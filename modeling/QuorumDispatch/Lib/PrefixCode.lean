import Mathlib.Data.List.Infix

/-!
Codes in which no word opens another one. A text in such a code is read back word by word, so two
lists of symbols with one text have the same words.
-/

namespace QuorumDispatch.Lib

variable {α β : Type} {code : α → List β} {xs ys : List α}

structure PrefixCode (code : α → List β) : Prop where
  ne_nil : ∀ a, code a ≠ []
  opens : ∀ a b, code a <+: code b → code a = code b

theorem PrefixCode.head_eq (h : PrefixCode code) {a b : α} {rest rest' : List β}
    (heq : code a ++ rest = code b ++ rest') : code a = code b ∧ rest = rest' := by
  have hword : code a = code b := by
    rcases Nat.le_total (code a).length (code b).length with hle | hle
    · refine h.opens a b (List.prefix_of_prefix_length_le (List.prefix_append _ rest) ?_ hle)
      rw [heq]
      exact List.prefix_append _ rest'
    · refine (h.opens b a (List.prefix_of_prefix_length_le (List.prefix_append _ rest') ?_ hle)).symm
      rw [← heq]
      exact List.prefix_append _ rest
  rw [hword] at heq
  exact ⟨hword, List.append_cancel_left heq⟩

/-- **Two lists have one text exactly if they have the same words.** -/
theorem PrefixCode.flatMap_eq_iff (h : PrefixCode code) :
    xs.flatMap code = ys.flatMap code ↔ xs.map code = ys.map code := by
  constructor
  · intro heq
    induction xs generalizing ys with
    | nil =>
        cases ys with
        | nil => rfl
        | cons y ys =>
            rw [List.flatMap_nil, List.flatMap_cons] at heq
            exact absurd (List.append_eq_nil_iff.mp heq.symm).1 (h.ne_nil y)
    | cons x xs ih =>
        cases ys with
        | nil =>
            rw [List.flatMap_nil, List.flatMap_cons] at heq
            exact absurd (List.append_eq_nil_iff.mp heq).1 (h.ne_nil x)
        | cons y ys =>
            rw [List.flatMap_cons, List.flatMap_cons] at heq
            obtain ⟨hword, hrest⟩ := h.head_eq heq
            rw [List.map_cons, List.map_cons, hword, ih hrest]
  · intro heq
    rw [List.flatMap_def, List.flatMap_def, heq]

end QuorumDispatch.Lib
