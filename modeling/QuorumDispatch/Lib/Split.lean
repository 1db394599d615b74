import Mathlib.Data.List.Basic
import Mathlib.Data.List.Infix

/-!
A list split at a separator. What is behind the last separator is the open piece: an append
lengthens it and adds pieces after it, and leaves the pieces in front of it as they are.
-/

namespace QuorumDispatch.Lib

variable {α : Type} [DecidableEq α] {a : α}

theorem notMem_of_mem_splitOn {xs piece : List α} (h : piece ∈ xs.splitOn a) : a ∉ piece := by
  induction xs generalizing piece with
  | nil =>
      rw [List.splitOn_nil, List.mem_singleton] at h
      rw [h]
      exact List.not_mem_nil
  | cons x xs ih =>
      rw [List.splitOn_cons_eq_if_modifyHead] at h
      split at h
      · rcases List.mem_cons.mp h with rfl | h
        · exact List.not_mem_nil
        · exact ih h
      · rename_i hx
        obtain ⟨first, others, hsplit⟩ := List.exists_cons_of_ne_nil (List.splitOn_ne_nil a xs)
        rw [hsplit, List.modifyHead_cons, List.mem_cons] at h
        have hmem : ∀ p ∈ first :: others, a ∉ p := fun p hp => ih (hsplit ▸ hp)
        rcases h with rfl | h
        · rw [List.mem_cons, not_or]
          exact ⟨fun heq => hx (beq_iff_eq.mpr heq.symm), hmem first List.mem_cons_self⟩
        · exact hmem piece (List.mem_cons_of_mem _ h)

/-- Pieces that are each followed by a separator are split off as they are. -/
theorem splitOn_flatMap {pieces : List (List α)} (h : ∀ p ∈ pieces, a ∉ p) (rest : List α) :
    (pieces.flatMap (· ++ [a]) ++ rest).splitOn a = pieces ++ rest.splitOn a := by
  induction pieces with
  | nil => rfl
  | cons p pieces ih =>
      rw [List.flatMap_cons, List.append_assoc, List.append_assoc, List.singleton_append,
        List.splitOn_append_cons_self_of_not_mem (h p List.mem_cons_self),
        ih fun q hq => h q (List.mem_cons_of_mem _ hq), List.cons_append]

/-- **What an append does to the pieces.** -/
theorem exists_splitOn_append (a : α) (xs : List α) :
    ∃ closed tail, xs.splitOn a = closed ++ [tail] ∧
      ∀ ys first others, ys.splitOn a = first :: others →
        (xs ++ ys).splitOn a = closed ++ (tail ++ first) :: others := by
  induction xs with
  | nil => exact ⟨[], [], rfl, fun ys first others h => by rw [List.nil_append, h]; rfl⟩
  | cons x xs ih =>
      obtain ⟨closed, tail, hsplit, happend⟩ := ih
      by_cases hx : (x == a) = true
      · refine ⟨[] :: closed, tail, ?_, fun ys first others h => ?_⟩
        · rw [List.splitOn_cons_eq_if_modifyHead, if_pos hx, hsplit]
          rfl
        · rw [List.cons_append, List.splitOn_cons_eq_if_modifyHead, if_pos hx,
            happend ys first others h]
          rfl
      · cases closed with
        | nil =>
            refine ⟨[], x :: tail, ?_, fun ys first others h => ?_⟩
            · rw [List.splitOn_cons_eq_if_modifyHead, if_neg hx, hsplit]
              rfl
            · rw [List.cons_append, List.splitOn_cons_eq_if_modifyHead, if_neg hx,
                happend ys first others h]
              rfl
        | cons p closed =>
            refine ⟨(x :: p) :: closed, tail, ?_, fun ys first others h => ?_⟩
            · rw [List.splitOn_cons_eq_if_modifyHead, if_neg hx, hsplit]
              rfl
            · rw [List.cons_append, List.splitOn_cons_eq_if_modifyHead, if_neg hx,
                happend ys first others h]
              rfl

/-! ### Pieces with their separators -/

/-- `str::split_inclusive`. -/
def splitInclusive (a : α) : List α → List (List α)
  | [] => []
  | x :: xs =>
      if x = a then [x] :: splitInclusive a xs
      else
        match splitInclusive a xs with
        | [] => [[x]]
        | piece :: pieces => (x :: piece) :: pieces

theorem splitInclusive_append_cons {piece : List α} (h : a ∉ piece) (rest : List α) :
    splitInclusive a (piece ++ a :: rest) = (piece ++ [a]) :: splitInclusive a rest := by
  induction piece with
  | nil => rw [List.nil_append, splitInclusive, if_pos rfl, List.nil_append]
  | cons x piece ih =>
      rw [List.mem_cons, not_or] at h
      rw [List.cons_append, splitInclusive, if_neg (Ne.symm h.1), ih h.2]
      rfl

theorem splitInclusive_of_notMem {tail : List α} (h : a ∉ tail) (hne : tail ≠ []) :
    splitInclusive a tail = [tail] := by
  induction tail with
  | nil => exact absurd rfl hne
  | cons x tail ih =>
      rw [List.mem_cons, not_or] at h
      rw [splitInclusive, if_neg (Ne.symm h.1)]
      cases tail with
      | nil => rfl
      | cons y tail => rw [ih h.2 (List.cons_ne_nil y tail)]

/-! ### Closed pieces and an open one -/

/-- Every list is made of closed pieces and an open one. -/
theorem exists_closed_tail (a : α) (xs : List α) :
    ∃ (closed : List (List α)) (tail : List α), (∀ p ∈ closed, a ∉ p) ∧ a ∉ tail ∧
      xs = closed.flatMap (· ++ [a]) ++ tail := by
  induction xs with
  | nil => exact ⟨[], [], List.forall_mem_nil _, List.not_mem_nil, rfl⟩
  | cons x xs ih =>
      obtain ⟨closed, tail, hclosed, htail, rfl⟩ := ih
      by_cases hx : x = a
      · subst hx
        exact ⟨[] :: closed, tail, List.forall_mem_cons.mpr ⟨List.not_mem_nil, hclosed⟩, htail, rfl⟩
      · have hcons : ∀ {p : List α}, a ∉ p → a ∉ x :: p := by
          intro p hp
          rw [List.mem_cons, not_or]
          exact ⟨Ne.symm hx, hp⟩
        cases closed with
        | nil => exact ⟨[], x :: tail, List.forall_mem_nil _, hcons htail, rfl⟩
        | cons p closed =>
            rw [List.forall_mem_cons] at hclosed
            exact ⟨(x :: p) :: closed, tail, List.forall_mem_cons.mpr ⟨hcons hclosed.1, hclosed.2⟩,
              htail, rfl⟩

theorem splitOn_closed_tail {closed : List (List α)} {tail : List α} (h : ∀ p ∈ closed, a ∉ p)
    (ht : a ∉ tail) : (closed.flatMap (· ++ [a]) ++ tail).splitOn a = closed ++ [tail] := by
  rw [splitOn_flatMap h, List.splitOn_eq_singleton ht]

theorem splitInclusive_closed_tail {closed : List (List α)} {tail : List α} (h : ∀ p ∈ closed, a ∉ p)
    (ht : a ∉ tail) : splitInclusive a (closed.flatMap (· ++ [a]) ++ tail) =
      closed.map (· ++ [a]) ++ if tail = [] then [] else [tail] := by
  induction closed with
  | nil =>
      rw [List.flatMap_nil, List.nil_append, List.map_nil, List.nil_append]
      split
      · rename_i hnil
        rw [hnil]
        rfl
      · rename_i hne
        exact splitInclusive_of_notMem ht hne
  | cons p closed ih =>
      rw [List.forall_mem_cons] at h
      rw [List.flatMap_cons, List.append_assoc, List.append_assoc, List.singleton_append,
        splitInclusive_append_cons h.1, ih h.2, List.map_cons, List.cons_append]

/-- Where a piece stands in a list that is split: behind closed pieces, and before a separator
or at the end. -/
theorem splitOn_eq_append_cons_iff {xs piece : List α} {before : List (List α)} :
    (∃ after, xs.splitOn a = before ++ piece :: after) ↔
      (∀ p ∈ before, a ∉ p) ∧ a ∉ piece ∧ ∃ rest,
        xs = before.flatMap (· ++ [a]) ++ piece ++ rest ∧ (rest = [] ∨ rest.head? = some a) := by
  constructor
  · rintro ⟨after, hsplit⟩
    have hmem : ∀ p ∈ before ++ piece :: after, a ∉ p :=
      fun p hp => notMem_of_mem_splitOn (hsplit ▸ hp)
    have hbefore : ∀ p ∈ before, a ∉ p := fun p hp => hmem p (List.mem_append_left _ hp)
    refine ⟨hbefore, hmem piece (List.mem_append_right _ List.mem_cons_self), ?_⟩
    -- joined again, the pieces are the list
    have hjoin : ∀ ps : List (List α), [a].intercalate (ps ++ piece :: after) =
        ps.flatMap (· ++ [a]) ++ [a].intercalate (piece :: after) := by
      intro ps
      induction ps with
      | nil => rfl
      | cons p ps ih =>
          rw [List.cons_append, List.intercalate_cons_of_ne_nil (by simp), ih, List.flatMap_cons,
            List.append_assoc, List.append_assoc, List.append_assoc]
    have hxs : xs = [a].intercalate (before ++ piece :: after) := by
      rw [← hsplit, List.intercalate_splitOn]
    rw [hjoin] at hxs
    cases after with
    | nil => exact ⟨[], by simp [hxs], .inl rfl⟩
    | cons q after =>
        refine ⟨a :: [a].intercalate (q :: after), ?_, .inr rfl⟩
        rw [hxs, List.intercalate_cons_cons, List.append_assoc, List.append_assoc,
          List.singleton_append]
  · rintro ⟨hbefore, hpiece, rest, rfl, hrest⟩
    rw [List.append_assoc, splitOn_flatMap hbefore]
    rcases hrest with rfl | hhead
    · exact ⟨[], by rw [List.append_nil, List.splitOn_eq_singleton hpiece]⟩
    · obtain ⟨b, rest, rfl⟩ : ∃ b r, rest = b :: r := by
        cases rest with
        | nil => cases hhead
        | cons b r => exact ⟨b, r, rfl⟩
      obtain rfl : b = a := Option.some.inj hhead
      exact ⟨rest.splitOn b, by rw [List.splitOn_append_cons_self_of_not_mem hpiece]⟩

end QuorumDispatch.Lib
