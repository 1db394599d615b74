import Mathlib.Data.List.Induction
import Mathlib.Data.List.Nodup

/-!
Openings and closings in one sequence. A closing is for the opening with its key, and where that one is
not open it closes the oldest that is.

How many are open at the end does not depend on the keys: something is open exactly if some end piece of
the sequence has more openings than closings (`opened_ne_nil_iff`). Which ones they are is a matter of the
keys: the newest of those that no closing with their key follows (`opened_suffix_unanswered`).
-/

namespace QuorumDispatch.Lib

inductive Mark (κ : Type) where
  | opens (key : κ)
  | closes (key : κ)
deriving DecidableEq, Repr

namespace Mark

variable {κ : Type}

def isOpens : Mark κ → Bool
  | opens _ => true
  | closes _ => false

def opens? : Mark κ → Option κ
  | opens key => some key
  | closes _ => none

def keys (ms : List (Mark κ)) : List κ := ms.filterMap opens?

def Outnumbers (ms : List (Mark κ)) : Prop :=
  ∃ tail, tail <:+ ms ∧ tail.countP (!·.isOpens) < tail.countP isOpens

variable [DecidableEq κ]

def track (opened : List κ) : Mark κ → List κ
  | opens key => opened ++ [key]
  | closes key => if key ∈ opened then opened.erase key else opened.drop 1

def opened (ms : List (Mark κ)) : List κ := ms.foldl track []

def unanswered : List (Mark κ) → List κ
  | [] => []
  | opens key :: rest => if closes key ∈ rest then unanswered rest else key :: unanswered rest
  | closes _ :: rest => unanswered rest

theorem opened_snoc (ms : List (Mark κ)) (m : Mark κ) : opened (ms ++ [m]) = track (opened ms) m :=
  List.foldl_concat ..

/-! ### How many are open -/

theorem length_track_closes (opened : List κ) (key : κ) :
    (track opened (closes key)).length = opened.length - 1 := by
  rw [track]
  split
  · exact List.length_erase_of_mem ‹_›
  · exact List.length_drop

omit [DecidableEq κ] in
theorem exists_suffix_snoc {ms : List (Mark κ)} {m : Mark κ} {P : List (Mark κ) → Prop} (hnil : ¬P []) :
    (∃ tail, tail <:+ ms ++ [m] ∧ P tail) ↔ ∃ tail, tail <:+ ms ∧ P (tail ++ [m]) := by
  constructor
  · rintro ⟨tail, htail, h⟩
    rcases List.suffix_concat_iff.mp htail with rfl | ⟨front, rfl, hfront⟩
    · exact absurd h hnil
    · exact ⟨front, hfront, h⟩
  · rintro ⟨tail, htail, h⟩
    exact ⟨tail ++ [m], List.suffix_concat_iff.mpr (.inr ⟨tail, rfl, htail⟩), h⟩

theorem lt_length_opened_iff {ms : List (Mark κ)} {n : Nat} : n < (opened ms).length ↔
    ∃ tail, tail <:+ ms ∧ tail.countP (!·.isOpens) + n < tail.countP isOpens := by
  induction ms using List.reverseRecOn generalizing n with
  | nil =>
      refine iff_of_false (Nat.not_lt_zero n) ?_
      rintro ⟨tail, htail, h⟩
      rw [List.suffix_nil.mp htail] at h
      exact absurd h (Nat.not_lt_zero _)
  | append_singleton ms m ih =>
      rw [opened_snoc, exists_suffix_snoc (Nat.not_lt_zero _)]
      cases m with
      | opens key =>
          have hcount (tail : List (Mark κ)) : (tail ++ [opens key]).countP (!·.isOpens) = tail.countP (!·.isOpens) ∧
              (tail ++ [opens key]).countP isOpens = tail.countP isOpens + 1 := by
            simp [List.countP_append, isOpens]
          simp only [track, List.length_append, List.length_singleton, hcount]
          cases n with
          | zero => exact iff_of_true (Nat.succ_pos _) ⟨[], List.nil_suffix, Nat.zero_lt_one⟩
          | succ n =>
              rw [Nat.succ_lt_succ_iff, ih]
              refine exists_congr fun tail => and_congr_right fun _ => ?_
              omega
      | closes key =>
          have hcount (tail : List (Mark κ)) :
              (tail ++ [closes key]).countP (!·.isOpens) = tail.countP (!·.isOpens) + 1 ∧
                (tail ++ [closes key]).countP isOpens = tail.countP isOpens := by
            simp [List.countP_append, isOpens]
          simp only [length_track_closes, hcount]
          rw [Nat.lt_sub_iff_add_lt, ih]
          refine exists_congr fun tail => and_congr_right fun _ => ?_
          omega

/-- **Something is open exactly if an end piece has more openings than closings.** -/
theorem opened_ne_nil_iff {ms : List (Mark κ)} : opened ms ≠ [] ↔ Outnumbers ms := by
  rw [← List.length_pos_iff, lt_length_opened_iff]
  rfl

/-! ### Which ones are open -/

theorem unanswered_snoc_opens (ms : List (Mark κ)) (key : κ) :
    unanswered (ms ++ [opens key]) = unanswered ms ++ [key] := by
  induction ms with
  | nil => rfl
  | cons m ms ih =>
      cases m with
      | opens key' =>
          have hmem : closes key' ∈ ms ++ [opens key] ↔ closes key' ∈ ms := by simp
          rw [List.cons_append, unanswered, unanswered, ih]
          simp only [hmem]
          split <;> rfl
      | closes key' => exact ih

theorem unanswered_snoc_closes (ms : List (Mark κ)) (key : κ) :
    unanswered (ms ++ [closes key]) = (unanswered ms).filter (· ≠ key) := by
  induction ms with
  | nil => rfl
  | cons m ms ih =>
      cases m with
      | opens key' =>
          have hmem' : closes key' ∈ ms ++ [closes key] ↔ closes key' ∈ ms ∨ key' = key := by simp
          rw [List.cons_append, unanswered, unanswered, ih]
          simp only [hmem']
          by_cases hmem : closes key' ∈ ms
          · rw [if_pos hmem, if_pos (.inl hmem)]
          · rw [if_neg hmem]
            by_cases hkey : key' = key
            · simp [hkey]
            · rw [if_neg (by simp [hmem, hkey]), List.filter_cons_of_pos (by simpa using hkey)]
      | closes key' => exact ih

theorem unanswered_sublist_keys (ms : List (Mark κ)) : (unanswered ms).Sublist (keys ms) := by
  induction ms with
  | nil => exact .slnil
  | cons m ms ih =>
      cases m with
      | opens key =>
          change (unanswered (opens key :: ms)).Sublist (key :: keys ms)
          rw [unanswered]
          split
          · exact ih.cons key
          · exact ih.cons_cons key
      | closes key => exact ih

/-- **Open are the newest of the openings that no closing with their key follows.** -/
theorem opened_suffix_unanswered {ms : List (Mark κ)} (hnodup : (keys ms).Nodup) :
    opened ms <:+ unanswered ms := by
  induction ms using List.reverseRecOn with
  | nil => exact List.suffix_refl _
  | append_singleton ms m ih =>
      have hkeys : (keys ms).Nodup := by
        rw [keys, List.filterMap_append] at hnodup
        exact hnodup.of_append_left
      obtain ⟨older, holder⟩ := ih hkeys
      rw [opened_snoc]
      cases m with
      | opens key => exact ⟨older, by rw [track, unanswered_snoc_opens, ← holder, List.append_assoc]⟩
      | closes key =>
          rw [unanswered_snoc_closes, ← holder, List.filter_append, track]
          split
          · -- the one that is closed is not among the older ones, as the keys are different
            have hopen : (opened ms).Nodup :=
              (hkeys.sublist (unanswered_sublist_keys ms)).sublist (holder ▸ List.sublist_append_right ..)
            rw [hopen.erase_eq_filter]
            exact ⟨_, congrArg _ (List.filter_congr fun a _ => by simp [bne, beq_eq_decide])⟩
          case isFalse hmem =>
            have hall : (opened ms).filter (· ≠ key) = opened ms :=
              List.filter_eq_self.mpr fun a ha => decide_eq_true fun h => hmem (h ▸ ha)
            rw [hall]
            exact (List.drop_suffix 1 _).trans (List.suffix_append ..)

end Mark

end QuorumDispatch.Lib
