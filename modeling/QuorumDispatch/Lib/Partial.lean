import Mathlib.Data.List.Basic
import Mathlib.Data.Option.Basic
import Mathlib.Logic.Function.Iterate

/-!
Computations that may panic, as `Option`: `none` is a panic.

`Returns x Q` is total correctness: the computation returns, and what it returns
satisfies `Q`. `Ensures x Q` is partial correctness: what it returns, if it does,
satisfies `Q`. The rules below follow the `do` blocks that programs are written in.
-/

namespace QuorumDispatch.Lib

variable {α β : Type}

/-- The computation returns, with a result that satisfies `Q`. -/
def Returns (x : Option α) (Q : α → Prop) : Prop := ∃ a, x = some a ∧ Q a

namespace Returns

variable {x : Option α} {Q R : α → Prop} {S : β → Prop} {f : α → Option β}

theorem pure {a : α} (h : Q a) : Returns (some a) Q := ⟨a, rfl, h⟩

theorem mono (h : Returns x Q) (hQR : ∀ a, Q a → R a) : Returns x R := by
  obtain ⟨a, rfl, ha⟩ := h
  exact ⟨a, rfl, hQR a ha⟩

theorem bind (h : Returns x Q) (hf : ∀ a, Q a → Returns (f a) S) : Returns (x >>= f) S := by
  obtain ⟨a, rfl, ha⟩ := h
  exact hf a ha

theorem bind_eq {a : α} (h : x = some a) (hf : Returns (f a) S) : Returns (x >>= f) S := by
  subst h
  exact hf

theorem of_eq {a : α} (h : Returns x Q) (hx : x = some a) : Q a := by
  obtain ⟨b, hb, hQ⟩ := h
  cases hb.symm.trans hx
  exact hQ

theorem foldlM {σ : Type} {step : σ → β → Option σ} {Inv : σ → Prop} {xs : List β} {s : σ}
    (h0 : Inv s) (hstep : ∀ s b, b ∈ xs → Inv s → Returns (step s b) Inv) :
    Returns (xs.foldlM step s) Inv := by
  induction xs generalizing s with
  | nil => exact pure h0
  | cons b xs ih =>
      refine bind (hstep s b (by simp) h0) fun s' hs' => ?_
      exact ih hs' fun s c hc => hstep s c (List.mem_cons_of_mem _ hc)

theorem foldlM_sim {σ τ : Type} {step : σ → β → Option σ} {spec : τ → β → τ}
    {R : σ → τ → Prop} {xs : List β} {s : σ} {t : τ} (h0 : R s t)
    (hstep : ∀ s t b, b ∈ xs → R s t → Returns (step s b) (R · (spec t b))) :
    Returns (xs.foldlM step s) (R · (xs.foldl spec t)) := by
  induction xs generalizing s t with
  | nil => exact pure h0
  | cons b xs ih =>
      refine bind (hstep s t b (by simp) h0) fun s' hs' => ?_
      exact ih hs' fun s t c hc => hstep s t c (List.mem_cons_of_mem _ hc)

end Returns

/-- What the computation returns, if it does, satisfies `Q`. -/
def Ensures (x : Option α) (Q : α → Prop) : Prop := ∀ a, x = some a → Q a

namespace Ensures

variable {x : Option α} {Q R : α → Prop} {S : β → Prop} {f : α → Option β}

theorem pure {a : α} (h : Q a) : Ensures (some a) Q := by
  intro b hb
  cases hb
  exact h

theorem mono (h : Ensures x Q) (hQR : ∀ a, Q a → R a) : Ensures x R :=
  fun a ha => hQR a (h a ha)

theorem bind (h : Ensures x Q) (hf : ∀ a, Q a → Ensures (f a) S) : Ensures (x >>= f) S := by
  intro b hb
  obtain ⟨a, ha, hb⟩ := Option.bind_eq_some_iff.mp hb
  exact hf a (h a ha) b hb

theorem bind_some (hf : ∀ a, x = some a → Ensures (f a) S) : Ensures (x >>= f) S :=
  bind (Q := fun a => x = some a) (fun _ => id) hf

theorem foldlM {σ : Type} {step : σ → β → Option σ} {Inv : σ → Prop} {xs : List β} {s : σ}
    (h0 : Inv s) (hstep : ∀ s b, b ∈ xs → Inv s → Ensures (step s b) Inv) :
    Ensures (xs.foldlM step s) Inv := by
  induction xs generalizing s with
  | nil => exact pure h0
  | cons b xs ih =>
      refine bind (hstep s b (by simp) h0) fun s' hs' => ?_
      exact ih hs' fun s c hc => hstep s c (List.mem_cons_of_mem _ hc)

end Ensures

theorem guard_bind_eq_some {p : Prop} [Decidable p] {f : Unit → Option α} {a : α} :
    (guard p >>= f) = some a ↔ p ∧ f () = some a := by
  by_cases h : p <;> simp [guard, h]

theorem getElem?_of_snoc {log : List α} {last a : α} {i : Nat} (h : (log ++ [last])[i]? = some a)
    (hi : i ≠ log.length) : log[i]? = some a := by
  have hlt := (List.getElem?_eq_some_iff.mp h).1
  rw [List.length_append, List.length_singleton] at hlt
  rwa [List.getElem?_append_left (by omega)] at h

theorem getElem?_append_of_eq_some {log : List α} {a : α} {i : Nat} (h : log[i]? = some a)
    (rest : List α) : (log ++ rest)[i]? = some a :=
  (List.getElem?_append_left (List.getElem?_eq_some_iff.mp h).1).trans h

/-- A body that is run `n` times. -/
def times (n : Nat) (body : α → Option α) (a : α) : Option α :=
  match n with
  | 0 => some a
  | n + 1 => body a >>= times n body

theorem Ensures.times {body : α → Option α} {Inv : α → Prop} {n : Nat} {a : α} (h0 : Inv a)
    (hbody : ∀ a, Inv a → Ensures (body a) Inv) : Ensures (Lib.times n body a) Inv := by
  induction n generalizing a with
  | zero => exact .pure h0
  | succ n ih => exact .bind (hbody a h0) fun a' ha' => ih ha'

theorem Returns.times_sim {τ : Type} {body : α → Option α} {spec : τ → τ} {R : α → τ → Prop}
    {n : Nat} {a : α} {t : τ} (h0 : R a t)
    (hbody : ∀ a t, R a t → Returns (body a) (R · (spec t))) :
    Returns (Lib.times n body a) (R · (spec^[n] t)) := by
  induction n generalizing a t with
  | zero => exact .pure h0
  | succ n ih => exact .bind (hbody a t h0) fun a' ha' => ih ha'

/-! ### Runs -/

section Runs

variable {σ ε : Type} {step : σ → ε → Option σ} {cond : σ → ε → Bool}

/-- Every step of a run meets the condition in the state where it is taken. -/
def Meets (step : σ → ε → Option σ) (cond : σ → ε → Bool) : σ → List ε → Bool
  | _, [] => true
  | s, e :: run => cond s e && (step s e).all fun s' => Meets step cond s' run

/-- The invariant rule: what holds at the start and is kept by every step that meets the
condition holds where the run leads to. -/
theorem Meets.invariant {Inv : σ → Prop}
    (hstep : ∀ {s e s'}, Inv s → cond s e = true → step s e = some s' → Inv s')
    {run : List ε} {s s' : σ} (h0 : Inv s) (h : Meets step cond s run = true)
    (hrun : run.foldlM step s = some s') : Inv s' := by
  induction run generalizing s with
  | nil =>
      cases hrun
      exact h0
  | cons e run ih =>
      obtain ⟨s₁, hs₁, hrun⟩ := Option.bind_eq_some_iff.mp hrun
      rw [Meets, hs₁, Bool.and_eq_true] at h
      exact ih (hstep h0 h.1 hs₁) h.2 hrun

theorem Meets.of_snoc {run : List ε} {e : ε} {s s' : σ}
    (h : Meets step cond s (run ++ [e]) = true) (hrun : run.foldlM step s = some s') :
    Meets step cond s run = true ∧ cond s' e = true := by
  induction run generalizing s with
  | nil =>
      cases hrun
      rw [List.nil_append, Meets, Bool.and_eq_true] at h
      exact ⟨rfl, h.1⟩
  | cons e' run ih =>
      obtain ⟨s₁, hs₁, hrun⟩ := Option.bind_eq_some_iff.mp hrun
      rw [List.cons_append, Meets, hs₁, Bool.and_eq_true] at h
      obtain ⟨hmeets, hlast⟩ := ih h.2 hrun
      rw [Meets, hs₁, Bool.and_eq_true]
      exact ⟨⟨h.1, hmeets⟩, hlast⟩

end Runs

end QuorumDispatch.Lib
