import Mathlib.Data.List.Basic

/-!
A slot that one holder has at a time, seen through the log of its uses: it is taken, and
it is freed on behalf of somebody, which has an effect for the holder only.
-/

namespace QuorumDispatch.Lib

variable {α : Type}

inductive SlotOp (α : Type) where
  | take (a : α)
  | free (a : α)
deriving DecidableEq, Repr

namespace SlotOp

def takers (ops : List (SlotOp α)) : List α :=
  ops.filterMap fun
    | .take a => some a
    | .free _ => none

@[simp] theorem takers_take (a : α) (ops : List (SlotOp α)) :
    takers (.take a :: ops) = a :: takers ops := rfl

variable [DecidableEq α]

def next (holder : Option α) : SlotOp α → Option α
  | .take a => some a
  | .free a => if holder = some a then none else holder

def holder (ops : List (SlotOp α)) : Option α := ops.foldl next none

@[simp] theorem holder_snoc (ops : List (SlotOp α)) (op : SlotOp α) :
    holder (ops ++ [op]) = next (holder ops) op := by
  simp [holder]

theorem holder_of_takers_nil {ops : List (SlotOp α)} (h : takers ops = []) : holder ops = none := by
  unfold holder
  induction ops with
  | nil => rfl
  | cons op ops ih =>
      cases op with
      | take a => simp at h
      | free a => exact ih h

theorem foldl_next_of_notMem {ops : List (SlotOp α)} (htakers : takers ops = []) {a : α}
    (hfree : .free a ∉ ops) : ops.foldl next (some a) = some a := by
  induction ops with
  | nil => rfl
  | cons op ops ih =>
      rw [List.mem_cons, not_or] at hfree
      cases op with
      | take b => simp at htakers
      | free b =>
          have hne : a ≠ b := fun h => hfree.1 (h ▸ rfl)
          rw [List.foldl_cons, next, if_neg (by simpa using hne)]
          exact ih htakers hfree.2

def Exclusive (ops : List (SlotOp α)) : Prop :=
  ∀ pre a post, ops = pre ++ SlotOp.take a :: post → holder pre = none

theorem Exclusive.nil : Exclusive ([] : List (SlotOp α)) := by
  intro pre a post h
  simp at h

theorem Exclusive.snoc {ops : List (SlotOp α)} (h : Exclusive ops) {op : SlotOp α}
    (hop : ∀ a, op = .take a → holder ops = none) : Exclusive (ops ++ [op]) := by
  intro pre a post heq
  rcases List.eq_nil_or_concat post with rfl | ⟨post, last, rfl⟩
  · obtain ⟨rfl, hlast⟩ := List.append_inj' heq rfl
    exact hop a (List.singleton_inj.mp hlast)
  · rw [List.concat_eq_append, ← List.cons_append, ← List.append_assoc] at heq
    exact h pre a post (List.append_inj' heq rfl).1

theorem Exclusive.freed_between {ops pre mid post : List (SlotOp α)} {a b : α} (h : Exclusive ops)
    (heq : ops = pre ++ SlotOp.take a :: (mid ++ SlotOp.take b :: post)) (hmid : takers mid = []) :
    .free a ∈ mid := by
  by_contra hfree
  have hnone := h (pre ++ SlotOp.take a :: mid) b post (by simpa using heq)
  rw [holder, List.foldl_append, List.foldl_cons, next, foldl_next_of_notMem hmid hfree] at hnone
  cases hnone

end SlotOp

end QuorumDispatch.Lib
