import Mathlib.Data.List.Basic
import Mathlib.Data.List.Infix

/-!
Newline framing of an append-only file, over an arbitrary alphabet with a
chosen separator.

A content is read as the list of its terminated lines together with the
unterminated tail behind the last separator. Cutting from the left, one symbol
at a time, makes the reading a `foldl`, so that what an append does to it is
computed from the state the content left behind: symbols other than the
separator lengthen the tail, a separator closes it.
-/

namespace QuorumDispatch.Lib

variable {α : Type}

structure Lines (α : Type) where
  terminated : List (List α) := []
  tail : List α := []
deriving DecidableEq, Repr

namespace Lines

/-- Every segment of the content in order, the tail counted when it holds
something: the segments that `split` yields once the empty one behind a final
separator is dropped. -/
def segments (s : Lines α) : List (List α) :=
  s.terminated ++ (if s.tail.isEmpty then [] else [s.tail])

@[simp] theorem segments_nil_tail (ls : List (List α)) :
    (⟨ls, []⟩ : Lines α).segments = ls := by
  simp [segments]

variable [DecidableEq α]

def push (nl : α) (s : Lines α) (a : α) : Lines α :=
  if a = nl then ⟨s.terminated ++ [s.tail], []⟩ else ⟨s.terminated, s.tail ++ [a]⟩

def extend (nl : α) (s : Lines α) (as : List α) : Lines α :=
  as.foldl (push nl) s

def of (nl : α) (as : List α) : Lines α :=
  extend nl {} as

variable {nl : α}

@[simp] theorem extend_nil (s : Lines α) : extend nl s [] = s := rfl

@[simp] theorem extend_append (s : Lines α) (as bs : List α) :
    extend nl s (as ++ bs) = extend nl (extend nl s as) bs := by
  simp [extend]

theorem extend_cons (s : Lines α) (a : α) (as : List α) :
    extend nl s (a :: as) = extend nl (push nl s a) as := rfl

@[simp] theorem of_append (as bs : List α) :
    of nl (as ++ bs) = extend nl (of nl as) bs := by
  simp [of]

@[simp] theorem extend_sep (s : Lines α) :
    extend nl s [nl] = ⟨s.terminated ++ [s.tail], []⟩ := by
  simp [extend, push]

theorem extend_of_notMem {as : List α} (h : nl ∉ as) (s : Lines α) :
    extend nl s as = ⟨s.terminated, s.tail ++ as⟩ := by
  induction as generalizing s with
  | nil => simp
  | cons a as ih =>
      have ha : a ≠ nl := fun heq => h (heq ▸ List.mem_cons_self)
      rw [extend_cons, ih (fun hm => h (List.mem_cons_of_mem _ hm))]
      simp [push, ha]

theorem extend_of_terminated (ls : List (List α)) (s : Lines α) (as : List α) :
    extend nl ⟨ls ++ s.terminated, s.tail⟩ as =
      ⟨ls ++ (extend nl s as).terminated, (extend nl s as).tail⟩ := by
  induction as generalizing s with
  | nil => rfl
  | cons a as ih =>
      rw [extend_cons, extend_cons, ← ih]
      congr 1
      unfold push
      split <;> simp

@[simp] theorem of_nil : of nl ([] : List α) = {} := rfl

theorem of_tail_eq_nil_iff (as : List α) :
    (of nl as).tail = [] ↔ as = [] ∨ as.getLast? = some nl := by
  induction as using List.reverseRecOn with
  | nil => simp
  | append_singleton as a _ =>
      rw [of_append, extend, List.foldl_cons, List.foldl_nil, push]
      by_cases ha : a = nl
      · simp [ha]
      · simp [ha]

end Lines

end QuorumDispatch.Lib
