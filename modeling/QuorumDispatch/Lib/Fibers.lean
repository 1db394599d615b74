import Mathlib.Data.List.Perm.Basic
import QuorumDispatch.Lib.Dialog

/-!
Programs that run side by side over one state. At each step one of them has its question
answered from the state as it is then, or a new one starts, or the state moves on its own.

A fiber carries the path it went, so what its program ensures when it runs alone holds of the
fiber in every run (`Fiber.allowed_next`, `Fiber.allowed_asked`).
-/

namespace QuorumDispatch.Lib

namespace Dialog

variable {Q : Type} {A : Q → Type} {α : Type}

/-- What is left of a program behind a list of questions and answers. -/
inductive Leads : Dialog Q A α → List (Exchange Q A) → Dialog Q A α → Prop where
  | here {m} : Leads m [] m
  | ask {q next} (a : A q) {es m'} (rest : Leads (next a) es m') :
      Leads (ask q next) (⟨q, a⟩ :: es) m'

variable {m m' : Dialog Q A α} {allowed : List (Exchange Q A) → Q → Prop}
  {h es : List (Exchange Q A)} {post : α → List (Exchange Q A) → Prop}

theorem Leads.trans {es' : List (Exchange Q A)} {m'' : Dialog Q A α} (h₁ : Leads m es m')
    (h₂ : Leads m' es' m'') : Leads m (es ++ es') m'' := by
  induction h₁ with
  | here => exact h₂
  | ask a _ ih => exact .ask a (ih h₂)

theorem Leads.snoc {q : Q} {next : A q → Dialog Q A α} (hm : Leads m es (Dialog.ask q next)) (a : A q) :
    Leads m (es ++ [⟨q, a⟩]) (next a) :=
  hm.trans (.ask a .here)

theorem leads_nil (hm : Leads m [] m') : m' = m := by
  cases hm with
  | here => rfl

theorem leads_cons {e : Exchange Q A} (hm : Leads m (e :: es) m') :
    ∃ next, m = Dialog.ask e.question next ∧ Leads (next e.answer) es m' := by
  cases hm with
  | ask a rest => exact ⟨_, rfl, rest⟩

theorem Leads.split {es' : List (Exchange Q A)} (hm : Leads m (es ++ es') m') :
    ∃ n, Leads m es n ∧ Leads n es' m' := by
  induction es generalizing m with
  | nil => exact ⟨m, .here, hm⟩
  | cons e es ih =>
      cases hm with
      | ask a rest =>
          obtain ⟨n, h₁, h₂⟩ := ih rest
          exact ⟨n, .ask a h₁, h₂⟩

theorem Ensures.leads (hm : Ensures allowed h m post) (hl : Leads m es m') :
    Ensures allowed (h ++ es) m' post := by
  induction hl generalizing h with
  | here =>
      rw [List.append_nil]
      exact hm
  | ask a _ ih =>
      have hrest := ih (hm.2 a)
      rwa [List.append_assoc] at hrest

theorem Ensures.asked (hm : Ensures allowed h m post) (hl : Leads m es m')
    {xs ys : List (Exchange Q A)} {e : Exchange Q A} (hes : es = xs ++ e :: ys) :
    allowed (h ++ xs) e.question := by
  induction hl generalizing h xs with
  | here => cases xs <;> cases hes
  | ask a _ ih =>
      cases xs with
      | nil =>
          cases hes
          rw [List.append_nil]
          exact hm.1
      | cons x xs =>
          cases hes
          have hrest := ih (hm.2 a) rfl
          rwa [List.append_assoc] at hrest

end Dialog

variable {Q : Type} {A : Q → Type} {α κ σ : Type}

/-- A program under way: which one it is, what it has asked, and what is left of it. -/
structure Fiber (program : κ → Dialog Q A α) where
  key : κ
  asked : List (Exchange Q A)
  rest : Dialog Q A α
  leads : (program key).Leads asked rest

namespace Fiber

variable {program : κ → Dialog Q A α} {f : Fiber program} {q : Q} {next : A q → Dialog Q A α}
  {allowed : List (Exchange Q A) → Q → Prop} {post : α → List (Exchange Q A) → Prop}

def new (key : κ) : Fiber program := ⟨key, [], program key, .here⟩

def answer (f : Fiber program) (hq : f.rest = .ask q next) (a : A q) : Fiber program :=
  ⟨f.key, f.asked ++ [⟨q, a⟩], next a, Dialog.Leads.snoc (hq ▸ f.leads) a⟩

theorem allowed_next (hm : (program f.key).Ensures allowed [] post)
    (hq : f.rest = .ask q next) : allowed f.asked q := by
  have hrest := hm.leads f.leads
  rw [hq] at hrest
  exact hrest.1

theorem allowed_asked (hm : (program f.key).Ensures allowed [] post)
    {xs ys : List (Exchange Q A)} {e : Exchange Q A} (hes : f.asked = xs ++ e :: ys) :
    allowed xs e.question :=
  hm.asked f.leads hes

end Fiber

structure Pool (σ : Type) (program : κ → Dialog Q A α) where
  shared : σ
  fibers : List (Fiber program)

inductive PoolAct (κ Q : Type) (A : Q → Type) where
  | start (key : κ)
  | move
  | answer (i : Nat) (e : Exchange Q A)

structure PoolRules (σ : Type) (program : κ → Dialog Q A α) where
  answers : σ → Nat → Exchange Q A → σ → Prop
  moves : Pool σ program → σ → Prop

namespace Pool

variable {program : κ → Dialog Q A α} {rules : PoolRules σ program}
  {allowedAct : Pool σ program → PoolAct κ Q A → Prop} {s₀ : σ}

inductive Step (rules : PoolRules σ program) :
    Pool σ program → PoolAct κ Q A → Pool σ program → Prop where
  | start {p} (key : κ) : Step rules p (.start key) { p with fibers := p.fibers ++ [.new key] }
  | move {p s} (hs : rules.moves p s) : Step rules p .move { p with shared := s }
  | answer {p s i f q next} (a : A q) (hf : p.fibers[i]? = some f) (hq : f.rest = .ask q next)
      (hs : rules.answers p.shared i ⟨q, a⟩ s) :
      Step rules p (.answer i ⟨q, a⟩) ⟨s, p.fibers.set i (f.answer hq a)⟩

/-- The pools that a run reaches whose steps all meet a condition. -/
inductive Reachable (rules : PoolRules σ program)
    (allowedAct : Pool σ program → PoolAct κ Q A → Prop) (s₀ : σ) : Pool σ program → Prop where
  | init : Reachable rules allowedAct s₀ ⟨s₀, []⟩
  | step {p a p'} (hp : Reachable rules allowedAct s₀ p) (hstep : Step rules p a p')
      (ha : allowedAct p a) : Reachable rules allowedAct s₀ p'

theorem Reachable.invariant {Inv : Pool σ program → Prop} (h0 : Inv ⟨s₀, []⟩)
    (hstep : ∀ p a p', Inv p → Step rules p a p' → allowedAct p a → Inv p') {p : Pool σ program}
    (hp : Reachable rules allowedAct s₀ p) : Inv p := by
  induction hp with
  | init => exact h0
  | step _ h ha ih => exact hstep _ _ _ ih h ha

theorem Reachable.mono {allowedAct' : Pool σ program → PoolAct κ Q A → Prop} {p : Pool σ program}
    (hp : Reachable rules allowedAct s₀ p) (ha : ∀ p a, allowedAct p a → allowedAct' p a) :
    Reachable rules allowedAct' s₀ p := by
  induction hp with
  | init => exact .init
  | step _ h hact ih => exact ih.step h (ha _ _ hact)

def Serves (rules : PoolRules σ program) (i : Nat) : σ → List (Exchange Q A) → σ → Prop
  | s, [], s' => s' = s
  | s, e :: es, s' => ∃ s₁, rules.answers s i e s₁ ∧ Serves rules i s₁ es s'

theorem Reachable.serve {p : Pool σ program} {s' : σ} {i : Nat} {f : Fiber program}
    {es : List (Exchange Q A)} {m : Dialog Q A α}
    (hp : Reachable rules allowedAct s₀ p) (hf : p.fibers[i]? = some f)
    (hl : f.rest.Leads es m) (hs : Serves rules i p.shared es s')
    (ha : ∀ p, ∀ e ∈ es, allowedAct p (.answer i e)) :
    ∃ f' : Fiber program, f'.key = f.key ∧ f'.asked = f.asked ++ es ∧ f'.rest = m ∧
      Reachable rules allowedAct s₀ ⟨s', p.fibers.set i f'⟩ := by
  obtain ⟨hlt, hget⟩ := List.getElem?_eq_some_iff.mp hf
  induction es generalizing p f with
  | nil =>
      obtain rfl := hs
      obtain rfl := Dialog.leads_nil hl
      refine ⟨f, rfl, (List.append_nil _).symm, rfl, ?_⟩
      rw [← hget, List.set_getElem_self]
      exact hp
  | cons e es ih =>
      obtain ⟨s₁, hserved, hrest⟩ := hs
      obtain ⟨next, hr, hl⟩ := Dialog.leads_cons hl
      have hstep := hp.step (.answer e.answer hf hr hserved) (ha p e List.mem_cons_self)
      have hlt' : i < (p.fibers.set i (f.answer hr e.answer)).length := by rwa [List.length_set]
      have hself : (p.fibers.set i (f.answer hr e.answer))[i]? = some (f.answer hr e.answer) :=
        List.getElem?_set_self hlt
      obtain ⟨f', hkey, hasked, hrest', hreach⟩ :=
        ih hstep hself hl hrest (fun p e he => ha p e (List.mem_cons_of_mem _ he)) hlt'
          (List.getElem_set_self hlt')
      refine ⟨f', hkey, ?_, hrest', ?_⟩
      · rw [hasked]
        exact List.append_assoc ..
      · rwa [List.set_set] at hreach

/-! ### Fibers keep their names -/

variable {p p' : Pool σ program} {a : PoolAct κ Q A}

/-- A step leaves each fiber in its place, with its key and what it has asked. -/
theorem Step.keeps (h : Step rules p a p') {i : Nat} {f : Fiber program}
    (hf : p.fibers[i]? = some f) :
    ∃ f', p'.fibers[i]? = some f' ∧ f'.key = f.key ∧ f.asked <+: f'.asked := by
  cases h with
  | start key =>
      refine ⟨f, ?_, rfl, List.prefix_refl _⟩
      rw [List.getElem?_append_left (List.getElem?_eq_some_iff.mp hf).1, hf]
  | move hs => exact ⟨f, hf, rfl, List.prefix_refl _⟩
  | @answer s j g q next a hg hq hs =>
      by_cases hij : j = i
      · subst hij
        rw [hg] at hf
        cases hf
        refine ⟨f.answer hq a, ?_, rfl, List.prefix_append _ _⟩
        rw [List.getElem?_set_self (List.getElem?_eq_some_iff.mp hg).1]
      · exact ⟨f, by rw [List.getElem?_set_ne hij, hf], rfl, List.prefix_refl _⟩

/-- What a fiber in the new pool is: one that was there, or the one that was answered, or one
that has just started. -/
theorem Step.fiber (h : Step rules p a p') {i : Nat} {f' : Fiber program}
    (hf' : p'.fibers[i]? = some f') :
    p.fibers[i]? = some f' ∨
      (∃ f q, ∃ b : A q, p.fibers[i]? = some f ∧ a = .answer i ⟨q, b⟩ ∧ f'.key = f.key ∧
        f'.asked = f.asked ++ [⟨q, b⟩]) ∨ f'.asked = [] := by
  cases h with
  | start key =>
      rw [List.getElem?_append] at hf'
      split at hf'
      case isTrue => exact .inl hf'
      case isFalse =>
          rw [List.getElem?_singleton] at hf'
          split at hf'
          case isTrue => cases hf'; exact .inr (.inr rfl)
          case isFalse => cases hf'
  | move hs => exact .inl hf'
  | @answer s j g q next b hg hq hs =>
      by_cases hij : j = i
      · subst hij
        rw [List.getElem?_set_self (List.getElem?_eq_some_iff.mp hg).1] at hf'
        cases hf'
        exact .inr (.inl ⟨g, q, b, hg, rfl, rfl, rfl⟩)
      · rw [List.getElem?_set_ne hij] at hf'
        exact .inl hf'

theorem Step.answered {i : Nat} {e : Exchange Q A} (h : Step rules p (.answer i e) p') :
    ∃ f f' next, p.fibers[i]? = some f ∧ f.rest = .ask e.question next ∧
      p'.fibers[i]? = some f' ∧ f'.key = f.key ∧ f'.asked = f.asked ++ [e] := by
  cases h with
  | @answer s _ f q next b hf hq hs =>
      refine ⟨f, f.answer hq b, next, hf, hq, ?_, rfl, rfl⟩
      rw [List.getElem?_set_self (List.getElem?_eq_some_iff.mp hf).1]

theorem flatMap_perm {β : Type} (g : Fiber program → List β) {fs : List (Fiber program)} {i : Nat}
    {f : Fiber program} (hf : fs[i]? = some f) :
    (fs.flatMap g).Perm (g f ++ (fs.eraseIdx i).flatMap g) := by
  obtain ⟨hlt, rfl⟩ := List.getElem?_eq_some_iff.mp hf
  exact (List.getElem_cons_eraseIdx_perm hlt).symm.flatMap_right g

theorem flatMap_set_perm {β : Type} (g : Fiber program → List β) {fs : List (Fiber program)}
    {i : Nat} {f : Fiber program} (hf : fs[i]? = some f) (f' : Fiber program) :
    ((fs.set i f').flatMap g).Perm (g f' ++ (fs.eraseIdx i).flatMap g) :=
  (List.set_perm_cons_eraseIdx (List.getElem?_eq_some_iff.mp hf).1 f').flatMap_right g

end Pool

end QuorumDispatch.Lib
