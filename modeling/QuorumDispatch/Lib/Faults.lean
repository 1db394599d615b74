import QuorumDispatch.Lib.Dialog

/-!
Programs with effects on a state, where one step may fail. The step that fails is named beforehand; it
fails the first time it is taken, and every other step goes well. A run keeps the states that it passed,
for what a crash finds.
-/

namespace QuorumDispatch.Lib

/-- What the steps of a program do to a state, and what comes back, where they go well and where they
fail. -/
structure World (Q : Type) (A : Q → Type) (σ : Type) where
  perform : σ → (q : Q) → σ × A q
  fail : σ → (q : Q) → σ × A q

/-- A run: the states before each step, the failure that did not come yet, and the end. -/
structure Course (Q σ α : Type) where
  passed : List σ
  fault : Option Q
  final : σ
  result : α

namespace Course

variable {Q σ α β : Type}

def states (r : Course Q σ α) : List σ := r.passed ++ [r.final]

def andThen (r : Course Q σ α) (r' : Course Q σ β) : Course Q σ β := { r' with passed := r.passed ++ r'.passed }

@[simp] theorem andThen_fault (r : Course Q σ α) (r' : Course Q σ β) : (r.andThen r').fault = r'.fault := rfl

@[simp] theorem andThen_final (r : Course Q σ α) (r' : Course Q σ β) : (r.andThen r').final = r'.final := rfl

@[simp] theorem andThen_result (r : Course Q σ α) (r' : Course Q σ β) : (r.andThen r').result = r'.result :=
  rfl

end Course

namespace World

variable {Q : Type} {A : Q → Type} {σ α β : Type} (w : World Q A σ) [DecidableEq Q]

def run : Dialog Q A α → Option Q → σ → Course Q σ α
  | .pure a, fault, s => ⟨[], fault, s, a⟩
  | .ask q next, fault, s =>
      if fault = some q then
        let r := run (next (w.fail s q).2) none (w.fail s q).1
        { r with passed := s :: r.passed }
      else
        let r := run (next (w.perform s q).2) fault (w.perform s q).1
        { r with passed := s :: r.passed }

variable {w} {m : Dialog Q A α} {f : α → Dialog Q A β} {fault : Option Q} {s : σ}

@[simp] theorem run_pure {a : α} : w.run (Pure.pure a : Dialog Q A α) fault s = ⟨[], fault, s, a⟩ := rfl

theorem run_bind : w.run (m >>= f) fault s =
    (w.run m fault s).andThen (w.run (f (w.run m fault s).result) (w.run m fault s).fault
      (w.run m fault s).final) := by
  induction m generalizing fault s with
  | pure a => rfl
  | ask q next ih =>
      change w.run (.ask q fun a => next a >>= f) fault s = _
      rw [run, run]
      split
      · rw [ih]
        rfl
      · rw [ih]
        rfl

theorem run_query_of_ne {q : Q} {next : A q → Dialog Q A α} (h : fault ≠ some q) :
    w.run (Dialog.query q >>= next) fault s =
      { w.run (next (w.perform s q).2) fault (w.perform s q).1 with
        passed := s :: (w.run (next (w.perform s q).2) fault (w.perform s q).1).passed } := by
  change w.run (.ask q next) fault s = _
  rw [run, if_neg h]

theorem run_query_self {q : Q} {next : A q → Dialog Q A α} :
    w.run (Dialog.query q >>= next) (some q) s =
      { w.run (next (w.fail s q).2) none (w.fail s q).1 with
        passed := s :: (w.run (next (w.fail s q).2) none (w.fail s q).1).passed } := by
  change w.run (.ask q next) (some q) s = _
  rw [run, if_pos rfl]

/-! ### The rules -/

variable (w)

/-- From this state on, whatever a crash finds before the end is as the first says, and the end as the
second. -/
def Leaves (inv : σ → Prop) (fault : Option Q) (s : σ) (m : Dialog Q A α) (post : Option Q → σ → α → Prop) :
    Prop :=
  (∀ s' ∈ (w.run m fault s).passed, inv s') ∧
    post (w.run m fault s).fault (w.run m fault s).final (w.run m fault s).result

variable {w} {inv : σ → Prop} {post : Option Q → σ → α → Prop} {post' : Option Q → σ → β → Prop}

theorem leaves_pure {a : α} : w.Leaves inv fault s (Pure.pure a : Dialog Q A α) post ↔ post fault s a := by
  simp [Leaves]

theorem leaves_bind : w.Leaves inv fault s (m >>= f) post' ↔
    w.Leaves inv fault s m fun fault' s' a => w.Leaves inv fault' s' (f a) post' := by
  simp only [Leaves, run_bind, Course.andThen_fault, Course.andThen_final, Course.andThen_result]
  rw [← and_assoc]
  refine and_congr_left fun _ => ?_
  simp only [Course.andThen, List.mem_append, or_imp, forall_and]

theorem Leaves.mono {post₁ : Option Q → σ → α → Prop} (hm : w.Leaves inv fault s m post)
    (hpost : ∀ fault' s' a, post fault' s' a → post₁ fault' s' a) : w.Leaves inv fault s m post₁ :=
  ⟨hm.1, hpost _ _ _ hm.2⟩

theorem Leaves.bind (hm : w.Leaves inv fault s m post)
    (hf : ∀ fault' s' a, post fault' s' a → w.Leaves inv fault' s' (f a) post') :
    w.Leaves inv fault s (m >>= f) post' :=
  leaves_bind.mpr (hm.mono hf)

theorem Leaves.query_of_ne {q : Q} {next : A q → Dialog Q A α} (hs : inv s) (hq : fault ≠ some q)
    (hnext : w.Leaves inv fault (w.perform s q).1 (next (w.perform s q).2) post) :
    w.Leaves inv fault s (Dialog.query q >>= next) post := by
  rw [Leaves, run_query_of_ne hq]
  refine ⟨fun s' hs' => ?_, hnext.2⟩
  rcases List.mem_cons.mp hs' with rfl | hs'
  · exact hs
  · exact hnext.1 s' hs'

theorem Leaves.query_self {q : Q} {next : A q → Dialog Q A α} (hs : inv s)
    (hnext : w.Leaves inv none (w.fail s q).1 (next (w.fail s q).2) post) :
    w.Leaves inv (some q) s (Dialog.query q >>= next) post := by
  rw [Leaves, run_query_self]
  refine ⟨fun s' hs' => ?_, hnext.2⟩
  rcases List.mem_cons.mp hs' with rfl | hs'
  · exact hs
  · exact hnext.1 s' hs'

theorem Leaves.query {q : Q} {next : A q → Dialog Q A α} (hs : inv s)
    (hwell : fault ≠ some q → w.Leaves inv fault (w.perform s q).1 (next (w.perform s q).2) post)
    (hfail : fault = some q → w.Leaves inv none (w.fail s q).1 (next (w.fail s q).2) post) :
    w.Leaves inv fault s (Dialog.query q >>= next) post := by
  rcases eq_or_ne fault (some q) with rfl | hq
  · exact .query_self hs (hfail rfl)
  · exact .query_of_ne hs hq (hwell hq)

end World

end QuorumDispatch.Lib
