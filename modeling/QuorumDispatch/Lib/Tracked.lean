import QuorumDispatch.Lib.Fibers

/-!
Programs that run side by side, each with a state of its own beside the shared one: what it holds, and
how far it has come.

A program is checked alone, against all that its own state may become. What the own states say of the
shared one is kept by the steps of the others. Then every fiber of every run is where its program says
(`Tracking.holds_of_reachable`).
-/

namespace QuorumDispatch.Lib

namespace Dialog

variable {Q : Type} {A : Q → Type} {α β H : Type} {trans : H → Exchange Q A → H → Prop}
  {allowed : H → Q → Prop} {h : H} {m : Dialog Q A α} {f : α → Dialog Q A β}
  {post post₁ : α → H → Prop} {post' : β → H → Prop}

/-- The program asks what its own state allows, whatever the answers make of that state. -/
def Keeps (trans : H → Exchange Q A → H → Prop) (allowed : H → Q → Prop) :
    H → Dialog Q A α → (α → H → Prop) → Prop
  | h, pure a, post => post a h
  | h, ask q next, post =>
      allowed h q ∧ ∀ a h', trans h ⟨q, a⟩ h' → Keeps trans allowed h' (next a) post

theorem keeps_bind : Keeps trans allowed h (m >>= f) post' ↔
    Keeps trans allowed h m fun a h' => Keeps trans allowed h' (f a) post' := by
  induction m generalizing h with
  | pure a => rfl
  | ask q next ih =>
      change _ ∧ _ ↔ _ ∧ _
      exact and_congr_right fun _ => forall_congr' fun a => forall_congr' fun h' => imp_congr_right fun _ => ih a

theorem Keeps.mono (hm : Keeps trans allowed h m post) (hpost : ∀ a h', post a h' → post₁ a h') :
    Keeps trans allowed h m post₁ := by
  induction m generalizing h with
  | pure a => exact hpost a h hm
  | ask q next ih => exact ⟨hm.1, fun a h' ht => ih a (hm.2 a h' ht)⟩

theorem Keeps.bind (hm : Keeps trans allowed h m post)
    (hf : ∀ a h', post a h' → Keeps trans allowed h' (f a) post') :
    Keeps trans allowed h (m >>= f) post' :=
  keeps_bind.mpr (hm.mono hf)

end Dialog

variable {Q : Type} {A : Q → Type} {α κ σ H : Type}

/-- States of their own for programs: where they begin, what an answer makes of them, what they allow to
be asked, and what they say of the shared state. Beside them stands what is known of the shared state,
with so many fibers. -/
structure Tracking (κ Q : Type) (A : Q → Type) (σ H : Type) where
  first : H
  trans : κ → H → Exchange Q A → H → Prop
  allowed : κ → H → Q → Prop
  agrees : σ → Nat → H → Prop
  known : Nat → σ → Prop

namespace Tracking

variable {program : κ → Dialog Q A α} (t : Tracking κ Q A σ H)

structure Holds (p : Pool σ program) : Prop where
  known : t.known p.fibers.length p.shared
  fibers : ∀ (i : Nat) f, p.fibers[i]? = some f → ∃ h, t.agrees p.shared i h ∧
    f.rest.Keeps (t.trans f.key) (t.allowed f.key) h fun _ _ => True

/-- What is to be shown of the programs, and of the single steps. -/
structure Lawful (rules : PoolRules σ program) (allowedAct : Pool σ program → PoolAct κ Q A → Prop) :
    Prop where
  programs : ∀ key, (program key).Keeps (t.trans key) (t.allowed key) t.first fun _ _ => True
  start : ∀ n s, t.known n s → t.known (n + 1) s ∧ t.agrees s n t.first
  move : ∀ p s', t.Holds p → rules.moves p s' → allowedAct p .move →
    t.known p.fibers.length s' ∧ ∀ i h, t.agrees p.shared i h → t.agrees s' i h
  answer : ∀ p i f e s' h, t.Holds p → p.fibers[i]? = some f → t.agrees p.shared i h →
    t.allowed f.key h e.question → rules.answers p.shared i e s' → allowedAct p (.answer i e) →
    t.known p.fibers.length s' ∧ (∃ h', t.trans f.key h e h' ∧ t.agrees s' i h') ∧
      ∀ j, j ≠ i → ∀ h, t.agrees p.shared j h → t.agrees s' j h

variable {t} {rules : PoolRules σ program} {allowedAct : Pool σ program → PoolAct κ Q A → Prop}
  {p p' : Pool σ program}

theorem Holds.step (h : t.Holds p) (hlaw : t.Lawful rules allowedAct) {a : PoolAct κ Q A}
    (hstep : Pool.Step rules p a p') (ha : allowedAct p a) : t.Holds p' := by
  cases hstep with
  | start key =>
      obtain ⟨hknown, hagrees⟩ := hlaw.start _ _ h.known
      refine ⟨by rwa [List.length_append], fun i f hf => ?_⟩
      rcases Nat.lt_trichotomy i p.fibers.length with hlt | rfl | hgt
      · rw [List.getElem?_append_left hlt] at hf
        exact h.fibers i f hf
      · rw [List.getElem?_concat_length] at hf
        cases hf
        exact ⟨t.first, hagrees, hlaw.programs key⟩
      · rw [List.getElem?_eq_none (by rw [List.length_append]; exact hgt)] at hf
        cases hf
  | move hs =>
      obtain ⟨hknown, hagrees⟩ := hlaw.move _ _ h hs ha
      refine ⟨hknown, fun i f hf => ?_⟩
      obtain ⟨own, hown, hkeeps⟩ := h.fibers i f hf
      exact ⟨own, hagrees i own hown, hkeeps⟩
  | @answer s i f q next b hf hq hs =>
      obtain ⟨own, hown, hkeeps⟩ := h.fibers i f hf
      rw [hq] at hkeeps
      obtain ⟨hknown, ⟨own', htrans, hown'⟩, hothers⟩ :=
        hlaw.answer _ i f ⟨q, b⟩ s own h hf hown hkeeps.1 hs ha
      refine ⟨by rwa [List.length_set], fun j g hg => ?_⟩
      by_cases hij : j = i
      · subst hij
        rw [List.getElem?_set_self (List.getElem?_eq_some_iff.mp hf).1] at hg
        cases hg
        exact ⟨own', hown', hkeeps.2 b own' htrans⟩
      · rw [List.getElem?_set_ne (Ne.symm hij)] at hg
        obtain ⟨own₂, hown₂, hkeeps₂⟩ := h.fibers j g hg
        exact ⟨own₂, hothers j hij own₂ hown₂, hkeeps₂⟩

/-- **The rule for programs side by side.** -/
theorem holds_of_reachable (hlaw : t.Lawful rules allowedAct) {s₀ : σ} (h0 : t.known 0 s₀)
    (hp : Pool.Reachable rules allowedAct s₀ p) : t.Holds p :=
  hp.invariant ⟨h0, nofun⟩ fun _ _ _ h hstep ha => h.step hlaw hstep ha

end Tracking

end QuorumDispatch.Lib
