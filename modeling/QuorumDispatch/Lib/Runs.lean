import Mathlib.Data.List.Basic

/-!
Runs of a deterministic system: a state, a step on events, and a condition on
single steps that a run may be asked to meet all along.
-/

namespace QuorumDispatch.Lib

variable {σ ε : Type} (step : σ → ε → σ)

/-- Every step of the run meets the condition in the state where it is taken. -/
def Along (P : σ → ε → Prop) : σ → List ε → Prop
  | _, [] => True
  | s, e :: run => P s e ∧ Along P (step s e) run

instance Along.decidable (P : σ → ε → Prop) [∀ s e, Decidable (P s e)] :
    ∀ (s : σ) (run : List ε), Decidable (Along step P s run)
  | _, [] => .isTrue trivial
  | s, e :: run =>
      have := Along.decidable P (step s e) run
      inferInstanceAs (Decidable (P s e ∧ Along step P (step s e) run))

variable {step} {P : σ → ε → Prop} {s : σ}

theorem Along.append_iff {xs ys : List ε} :
    Along step P s (xs ++ ys) ↔ Along step P s xs ∧ Along step P (xs.foldl step s) ys := by
  induction xs generalizing s with
  | nil => simp [Along]
  | cons e xs ih => simp [Along, ih, and_assoc]

theorem Along.front {xs ys : List ε} (h : Along step P s (xs ++ ys)) : Along step P s xs :=
  (Along.append_iff.mp h).1

theorem Along.of_here {run : List ε}
    (h : ∀ xs e ys, run = xs ++ e :: ys → P (xs.foldl step s) e) : Along step P s run := by
  induction run generalizing s with
  | nil => trivial
  | cons e run ih =>
      refine ⟨h [] e run rfl, ih fun xs e' ys hrun => ?_⟩
      exact h (e :: xs) e' ys (by rw [hrun]; rfl)

/-- The invariant rule: what holds at the start and is kept by every step that
meets the condition holds at the end. -/
theorem Along.invariant {Inv : σ → Prop} (hstep : ∀ s e, Inv s → P s e → Inv (step s e))
    {run : List ε} (h0 : Inv s) (h : Along step P s run) : Inv (run.foldl step s) := by
  induction run generalizing s with
  | nil => exact h0
  | cons e run ih => exact ih (hstep s e h0 h.1) h.2

theorem Along.and {Q : σ → ε → Prop} {run : List ε} (hp : Along step P s run)
    (hq : Along step Q s run) : Along step (fun s e => P s e ∧ Q s e) s run := by
  induction run generalizing s with
  | nil => trivial
  | cons e run ih => exact ⟨⟨hp.1, hq.1⟩, ih hp.2 hq.2⟩

theorem Along.iff_of_step {Inv Q : σ → Prop} {R : σ → ε → Prop}
    (hstep : ∀ s e, Inv s → P s e → Inv (step s e) ∧ (Q (step s e) ↔ Q s ∧ R s e))
    {run : List ε} (h0 : Inv s) (h : Along step P s run) :
    Q (run.foldl step s) ↔ Q s ∧ Along step R s run := by
  induction run generalizing s with
  | nil => simp [Along]
  | cons e run ih =>
      obtain ⟨hinv, hkeep⟩ := hstep s e h0 h.1
      rw [List.foldl_cons, ih hinv h.2, hkeep, Along, and_assoc]

/-! ### Logs -/

section Logs

variable {α : Type} {R : List α → α → Prop} {log : List α}

/-- Every entry of a log meets a condition on the entries before it. -/
def EachAfter (R : List α → α → Prop) (log : List α) : Prop :=
  Along (fun past a => past ++ [a]) R [] log

instance (R : List α → α → Prop) [∀ past a, Decidable (R past a)] (log : List α) :
    Decidable (EachAfter R log) :=
  inferInstanceAs (Decidable (Along _ _ _ _))

theorem foldl_snoc (past log : List α) :
    log.foldl (fun past a => past ++ [a]) past = past ++ log := by
  induction log generalizing past with
  | nil => simp
  | cons a log ih => simp [ih]

@[simp] theorem eachAfter_nil : EachAfter R [] := trivial

theorem eachAfter_snoc {a : α} : EachAfter R (log ++ [a]) ↔ EachAfter R log ∧ R log a := by
  unfold EachAfter
  rw [Along.append_iff, foldl_snoc, List.nil_append]
  simp [Along]

end Logs

end QuorumDispatch.Lib
