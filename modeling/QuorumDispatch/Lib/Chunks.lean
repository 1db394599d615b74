import Mathlib.Data.List.Basic

/-!
A list in pieces of one length, the last of which may be shorter.
-/

namespace QuorumDispatch.Lib

variable {α : Type}

/-- `chunks`, at most `left` of them. -/
def chunksFrom (n : Nat) : Nat → List α → List (List α)
  | 0, _ => []
  | _ + 1, [] => []
  | left + 1, x :: xs => (x :: xs).take n :: chunksFrom n left ((x :: xs).drop n)

def chunks (n : Nat) (xs : List α) : List (List α) := chunksFrom n xs.length xs

theorem chunksFrom_of_le {n left : Nat} (hn : 0 < n) {xs : List α} (h : xs.length ≤ left) :
    chunksFrom n left xs = chunks n xs := by
  unfold chunks
  generalize hlength : xs.length = length at h
  induction left using Nat.strongRecOn generalizing length xs with
  | _ left ih =>
      cases xs with
      | nil => cases left <;> cases length <;> rfl
      | cons x xs =>
          obtain ⟨left, rfl⟩ : ∃ k, left = k + 1 := ⟨left - 1, by rw [List.length_cons] at hlength; omega⟩
          obtain rfl := hlength.symm
          rw [List.length_cons] at h ⊢
          have hdrop : ((x :: xs).drop n).length ≤ xs.length := by
            rw [List.length_drop, List.length_cons]
            omega
          rw [chunksFrom, chunksFrom, ih left (Nat.lt_succ_self _) _ rfl (by omega)]
          by_cases hlt : xs.length < left + 1
          · rw [ih xs.length hlt _ rfl hdrop]
          · omega

theorem chunks_append {n : Nat} (hn : 0 < n) {xs : List α} (h : xs.length = n) (ys : List α) :
    chunks n (xs ++ ys) = xs :: chunks n ys := by
  cases xs with
  | nil => exact absurd h.symm (Nat.ne_of_gt hn)
  | cons x xs =>
      rw [chunks, List.cons_append, List.length_cons, chunksFrom, ← List.cons_append, ← h, List.take_left,
        List.drop_left, h, chunksFrom_of_le hn]
      rw [List.length_append]
      exact Nat.le_add_left _ _

@[simp] theorem flatten_chunks {n : Nat} (hn : 0 < n) (xs : List α) : (chunks n xs).flatten = xs := by
  have hpieces : ∀ (left : Nat) (xs : List α), xs.length ≤ left → (chunksFrom n left xs).flatten = xs := by
    intro left
    induction left with
    | zero =>
        intro xs h
        rw [List.length_eq_zero_iff.mp (Nat.le_zero.mp h)]
        rfl
    | succ left ih =>
        intro xs h
        cases xs with
        | nil => rfl
        | cons x xs =>
            have hdrop : ((x :: xs).drop n).length ≤ left := by
              rw [List.length_drop]
              omega
            rw [chunksFrom, List.flatten_cons, ih _ hdrop, List.take_append_drop]
  exact hpieces xs.length xs (Nat.le_refl _)

theorem length_of_mem_chunks {n : Nat} (hn : 0 < n) {xs piece : List α} (h : piece ∈ chunks n xs) :
    0 < piece.length ∧ piece.length ≤ n := by
  have hpieces : ∀ (left : Nat) (xs : List α), ∀ piece ∈ chunksFrom n left xs,
      0 < piece.length ∧ piece.length ≤ n := by
    intro left
    induction left with
    | zero => exact fun _ _ hmem => absurd hmem List.not_mem_nil
    | succ left ih =>
        intro xs piece hmem
        cases xs with
        | nil => exact absurd hmem List.not_mem_nil
        | cons x xs =>
            rcases List.mem_cons.mp hmem with rfl | hmem
            · rw [List.length_take, List.length_cons]
              omega
            · exact ih _ piece hmem
  exact hpieces xs.length xs piece h

variable {β : Type} {n : Nat}

/-- Pieces of the length that were put together come apart again. -/
theorem chunks_flatMap (hn : 0 < n) {f : β → List α} {ys : List β} (h : ∀ y ∈ ys, (f y).length = n) :
    chunks n (ys.flatMap f) = ys.map f := by
  induction ys with
  | nil => rfl
  | cons y ys ih =>
      rw [List.flatMap_cons, chunks_append hn (h y List.mem_cons_self), List.map_cons,
        ih fun y' hy' => h y' (List.mem_cons_of_mem _ hy')]

theorem length_of_mem_chunks_of_mod {xs piece : List α} (hmod : xs.length % n = 0)
    (h : piece ∈ chunks n xs) : piece.length = n := by
  have hpieces : ∀ (left : Nat) (xs : List α), xs.length % n = 0 → ∀ piece ∈ chunksFrom n left xs,
      piece.length = n := by
    intro left
    induction left with
    | zero => exact fun _ _ _ hmem => absurd hmem List.not_mem_nil
    | succ left ih =>
        intro xs hmod piece hmem
        cases xs with
        | nil => exact absurd hmem List.not_mem_nil
        | cons x xs =>
            -- a multiple that is not zero is one length at least
            have hle : n ≤ (x :: xs).length :=
              Nat.le_of_dvd (Nat.succ_pos _) (Nat.dvd_of_mod_eq_zero hmod)
            rcases List.mem_cons.mp hmem with rfl | hmem
            · rw [List.length_take]
              omega
            · refine ih _ ?_ piece hmem
              rw [List.length_drop, ← Nat.mod_eq_sub_mod hle]
              exact hmod
  exact hpieces xs.length xs hmod piece h

end QuorumDispatch.Lib
