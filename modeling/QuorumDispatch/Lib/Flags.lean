import Mathlib.Data.List.Basic
import Mathlib.Data.List.Infix
import QuorumDispatch.Lib.Text

/-!
Argument lists in which every flag has a value, either the next word or what follows a `=` in the
same word, and the line that the words of such a list make. The flags are an enumeration, with
what each one does to the state of the reader.
-/

namespace QuorumDispatch.Lib

/-! ### Reading -/

structure Flags (F σ : Type) where
  all : List F
  name : F → String
  put : F → σ → String → Except String σ

namespace Flags

variable {F σ : Type} (flags : Flags F σ)

def Spelled (f : F) (word : String) : Prop :=
  word = flags.name f ∨ (flags.name f ++ "=").toList <+: word.toList

instance (f : F) (word : String) : Decidable (flags.Spelled f word) :=
  inferInstanceAs (Decidable (_ ∨ _))

/-- What follows the `=`. -/
def attached (f : F) (word : String) : Option String :=
  if (flags.name f ++ "=").toList <+: word.toList then
    some (String.ofList (word.toList.drop (flags.name f ++ "=").length))
  else none

def parse (verb : String) : List String → σ → Except String σ
  | [], s => .ok s
  | word :: words, s =>
      match flags.all.find? fun f => decide (flags.Spelled f word) with
      | none => .error (verb ++ ": unexpected arg " ++ reprStr word)
      | some f =>
          match flags.attached f word, words with
          | some value, words => (flags.put f s value).bind (parse verb words)
          | none, value :: words => (flags.put f s value).bind (parse verb words)
          | none, [] => .error (verb ++ ": " ++ flags.name f ++ " requires a value")

structure Separate : Prop where
  complete : ∀ f, f ∈ flags.all
  injective : Function.Injective flags.name
  bare : ∀ f, '=' ∉ (flags.name f).toList

def spell (pairs : List (F × String)) : List String := pairs.flatMap fun p => [flags.name p.1, p.2]

variable {flags}

theorem Separate.spelled (h : flags.Separate) {f g : F} : flags.Spelled g (flags.name f) ↔ g = f := by
  constructor
  · rintro (heq | hpre)
    · exact (h.injective heq).symm
    · have hmem : '=' ∈ (flags.name g ++ "=").toList := by simp
      exact absurd (hpre.subset hmem) (h.bare f)
  · rintro rfl
    exact .inl rfl

theorem Separate.find (h : flags.Separate) (f : F) :
    flags.all.find? (fun g => decide (flags.Spelled g (flags.name f))) = some f := by
  have hfound : (flags.all.find? fun g => decide (flags.Spelled g (flags.name f))).isSome := by
    rw [List.find?_isSome]
    exact ⟨f, h.complete f, decide_eq_true (h.spelled.mpr rfl)⟩
  obtain ⟨g, hg⟩ := Option.isSome_iff_exists.mp hfound
  have hspelled := List.find?_some hg
  have hgf : g = f := h.spelled.mp (of_decide_eq_true hspelled)
  rw [hg, hgf]

theorem Separate.attached (h : flags.Separate) (f : F) : flags.attached f (flags.name f) = none := by
  rw [Flags.attached, if_neg]
  intro hpre
  have hmem : '=' ∈ (flags.name f ++ "=").toList := by simp
  exact absurd (hpre.subset hmem) (h.bare f)

theorem Separate.parse_spell (h : flags.Separate) (verb : String) (pairs : List (F × String)) (s : σ) :
    flags.parse verb (flags.spell pairs) s = pairs.foldlM (fun s p => flags.put p.1 s p.2) s := by
  induction pairs generalizing s with
  | nil => rfl
  | cons p pairs ih =>
      change flags.parse verb (flags.name p.1 :: p.2 :: flags.spell pairs) s = _
      rw [Flags.parse, h.find, List.foldlM_cons]
      simp only [h.attached]
      cases flags.put p.1 s p.2 with
      | error e => rfl
      | ok s' => exact ih s'

end Flags

/-! ### Lines of words -/

section Joined

variable {α : Type} {a : α} {part : List α}

theorem prefix_of_notMem {xs ys : List α} (ha : a ∉ part) (h : part <+: xs ++ a :: ys) : part <+: xs := by
  induction xs generalizing part with
  | nil =>
      rcases part with _ | ⟨b, part⟩
      · exact List.nil_prefix
      · rw [List.nil_append, List.cons_prefix_cons] at h
        exact absurd (h.1 ▸ List.mem_cons_self) ha
  | cons x xs ih =>
      rcases part with _ | ⟨b, part⟩
      · exact List.nil_prefix
      · rw [List.cons_append, List.cons_prefix_cons] at h
        rw [List.cons_prefix_cons]
        exact ⟨h.1, ih (fun hmem => ha (List.mem_cons_of_mem _ hmem)) h.2⟩

theorem infix_append_cons {xs ys : List α} (hne : part ≠ []) (ha : a ∉ part) :
    part <:+: xs ++ a :: ys ↔ part <:+: xs ∨ part <:+: ys := by
  induction xs with
  | nil =>
      rw [List.nil_append, List.infix_cons_iff]
      constructor
      · rintro (hpre | hys)
        · exact absurd (List.prefix_nil.mp (prefix_of_notMem ha hpre)) hne
        · exact .inr hys
      · rintro (hnil | hys)
        · exact absurd (List.infix_nil.mp hnil) hne
        · exact .inr hys
  | cons x xs ih =>
      rw [List.cons_append, List.infix_cons_iff, List.infix_cons_iff, ih, or_assoc]
      refine or_congr_left ⟨fun hpre => prefix_of_notMem ha hpre, fun hpre => ?_⟩
      exact hpre.trans (List.prefix_append _ _)

theorem infix_intercalate {words : List (List α)} (hne : part ≠ []) (ha : a ∉ part) :
    part <:+: List.intercalate [a] words ↔ ∃ w ∈ words, part <:+: w := by
  induction words with
  | nil => simpa using hne
  | cons w words ih =>
      rcases words with _ | ⟨w', words⟩
      · simp
      · rw [List.intercalate_cons_cons, List.append_assoc, List.singleton_append, infix_append_cons hne ha,
          ih]
        simp only [List.mem_cons, exists_eq_or_imp]

theorem infix_cons_iff_of_notMem {ys : List α} (ha : a ∉ ys) :
    a :: part <:+: a :: ys ↔ part <+: ys := by
  rw [List.infix_cons_iff, List.cons_prefix_cons]
  constructor
  · rintro (h | h)
    · exact h.2
    · exact absurd (h.subset List.mem_cons_self) ha
  · exact fun h => .inl ⟨rfl, h⟩

end Joined

end QuorumDispatch.Lib
