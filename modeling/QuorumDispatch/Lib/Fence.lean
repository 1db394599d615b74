import Mathlib.Data.List.Basic
import Mathlib.Data.List.Infix

/-!
A region of a list between an element that opens it and one that closes it. The first opener and
the first closer are looked for separately, and are a fence only when the opener comes first.
-/

namespace QuorumDispatch.Lib

variable {α : Type} {opens closes : α → Bool} {xs ys pre body post : List α}

/-- The places of the first opener and of the first closer, in this order. -/
def fence (opens closes : α → Bool) (xs : List α) : Option (Nat × Nat) :=
  match xs.findIdx? opens, xs.findIdx? closes with
  | some first, some last => if first < last then some (first, last) else none
  | _, _ => none

/-- A fence around the body: nothing in front of it opens or closes one, and it is
closed by its last element only. -/
structure Fenced (opens closes : α → Bool) (pre body : List α) : Prop where
  opens_pre : ∀ x ∈ pre, opens x = false
  closes_pre : ∀ x ∈ pre, closes x = false
  ends : ∃ a mid b, body = a :: (mid ++ [b]) ∧ opens a = true ∧ closes b = true ∧
    ∀ x ∈ a :: mid, closes x = false

theorem findIdx?_append_of_forall {p : α → Bool} (h : ∀ x ∈ xs, p x = false) :
    (xs ++ ys).findIdx? p = (ys.findIdx? p).map (· + xs.length) := by
  rw [List.findIdx?_append, List.findIdx?_eq_none_iff.mpr h, Option.none_or]

theorem fence_of_fenced (h : Fenced opens closes pre body) :
    fence opens closes (pre ++ body ++ post) = some (pre.length, pre.length + body.length - 1) := by
  obtain ⟨a, mid, b, rfl, ha, hb, hmid⟩ := h.ends
  have hopen : (pre ++ a :: (mid ++ [b]) ++ post).findIdx? opens = some pre.length := by
    rw [List.append_assoc, findIdx?_append_of_forall h.opens_pre, List.cons_append,
      List.findIdx?_cons, ha]
    simp
  have hclose : (pre ++ a :: (mid ++ [b]) ++ post).findIdx? closes =
      some (pre.length + (a :: mid).length) := by
    rw [show pre ++ a :: (mid ++ [b]) ++ post = pre ++ (a :: mid ++ b :: post) by simp,
      findIdx?_append_of_forall h.closes_pre, findIdx?_append_of_forall hmid, List.findIdx?_cons, hb]
    simp [Nat.add_comm]
  rw [fence, hopen, hclose]
  simp

/-- How the first opener and the first closer of a list can stand. -/
inductive Fencing (opens closes : α → Bool) (xs : List α) : Prop
  | fenced (pre body post : List α) (hxs : xs = pre ++ body ++ post)
      (h : Fenced opens closes pre body)
  | clean (hopen : ∀ x ∈ xs, opens x = false) (hclose : ∀ x ∈ xs, closes x = false)
  | unclosed (pre : List α) (a : α) (rest : List α) (hxs : xs = pre ++ a :: rest)
      (ha : opens a = true) (hpre : ∀ x ∈ pre, opens x = false)
      (hclose : ∀ x ∈ xs, closes x = false)
  | unopened (pre : List α) (b : α) (rest : List α) (hxs : xs = pre ++ b :: rest)
      (hb : closes b = true) (hopen : ∀ x ∈ pre ++ [b], opens x = false)

/-- An element that does not open and close at once leaves only these ways. -/
theorem fencing (hdisj : ∀ x, opens x = true → closes x = false) (xs : List α) :
    Fencing opens closes xs := by
  induction xs with
  | nil => exact .clean (List.forall_mem_nil _) (List.forall_mem_nil _)
  | cons x xs ih =>
      cases hclose : closes x with
      | true =>
          refine .unopened [] x xs rfl hclose ?_
          intro y hy
          rw [List.mem_singleton.mp hy, ← Bool.not_eq_true]
          intro hopen
          rw [hdisj x hopen] at hclose
          cases hclose
      | false =>
          cases hopen : opens x with
          | true =>
              cases hfind : xs.find? closes with
              | none =>
                  refine .unclosed [] x xs rfl hopen (List.forall_mem_nil _) ?_
                  intro y hy
                  rcases List.mem_cons.mp hy with rfl | hy
                  · exact hclose
                  · simpa using List.find?_eq_none.mp hfind y hy
              | some b =>
                  obtain ⟨hb, mid, post, rfl, hmid⟩ := List.find?_eq_some_iff_append.mp hfind
                  refine .fenced [] (x :: (mid ++ [b])) post (by simp)
                    ⟨List.forall_mem_nil _, List.forall_mem_nil _, x, mid, b, rfl, hopen, hb, ?_⟩
                  intro y hy
                  rcases List.mem_cons.mp hy with rfl | hy
                  · exact hclose
                  · simpa using hmid y hy
          | false =>
              have hcons : ∀ {p : α → Bool} {zs : List α}, p x = false → (∀ z ∈ zs, p z = false) →
                  ∀ z ∈ x :: zs, p z = false := fun hx hz => List.forall_mem_cons.mpr ⟨hx, hz⟩
              cases ih with
              | fenced pre body post hxs h =>
                  exact .fenced (x :: pre) body post (by rw [hxs]; rfl)
                    ⟨hcons hopen h.opens_pre, hcons hclose h.closes_pre, h.ends⟩
              | clean ho hc => exact .clean (hcons hopen ho) (hcons hclose hc)
              | unclosed pre a rest hxs ha hpre hc =>
                  exact .unclosed (x :: pre) a rest (by rw [hxs]; rfl) ha (hcons hopen hpre)
                    (hcons hclose hc)
              | unopened pre b rest hxs hb ho =>
                  exact .unopened (x :: pre) b rest (by rw [hxs]; rfl) hb (hcons hopen ho)

theorem fence_of_forall_closes (h : ∀ x ∈ xs, closes x = false) : fence opens closes xs = none := by
  rw [fence, List.findIdx?_eq_none_iff.mpr h]
  split <;> simp_all

theorem fence_of_unopened {b : α} {rest : List α} (hb : closes b = true)
    (hopen : ∀ x ∈ pre ++ [b], opens x = false) :
    fence opens closes (pre ++ b :: rest) = none := by
  have hlast : ∃ last ≤ pre.length, (pre ++ b :: rest).findIdx? closes = some last := by
    rw [List.findIdx?_append]
    cases hpre : pre.findIdx? closes with
    | none => exact ⟨pre.length, le_refl _, by simp [List.findIdx?_cons, hb]⟩
    | some i =>
        obtain ⟨hi, -⟩ := List.findIdx?_eq_some_iff_getElem.mp hpre
        exact ⟨i, hi.le, rfl⟩
  obtain ⟨last, hle, hclose⟩ := hlast
  rw [fence, hclose, show pre ++ b :: rest = (pre ++ [b]) ++ rest by simp,
    findIdx?_append_of_forall hopen]
  cases rest.findIdx? opens with
  | none => rfl
  | some first =>
      have hlen : (pre ++ [b]).length = pre.length + 1 := by simp
      simp only [Option.map_some, hlen]
      rw [if_neg (by omega)]

theorem append_cons_inj {p : α → Bool} {as bs as' bs' : List α} {x y : α}
    (h : as ++ x :: bs = as' ++ y :: bs') (has : ∀ z ∈ as, p z = false)
    (has' : ∀ z ∈ as', p z = false) (hx : p x = true) (hy : p y = true) :
    as = as' ∧ x = y ∧ bs = bs' := by
  have htake : ∀ {zs ts : List α} {z : α}, (∀ w ∈ zs, p w = false) → p z = true →
      (zs ++ z :: ts).takeWhile (fun w => !p w) = zs := by
    intro zs ts z hzs hz
    rw [List.takeWhile_append_of_pos fun w hw => by simp [hzs w hw]]
    simp [hz]
  have heq : as = as' := by rw [← htake has hx, h, htake has' hy]
  subst heq
  have htail := List.append_cancel_left h
  exact ⟨rfl, List.cons.inj htail⟩

end QuorumDispatch.Lib
