import Mathlib.Data.List.Infix

/-!
Programs that ask their environment: every probe and every effect is a question, and what the
program does next depends on the answer. A path is what was asked and answered so far in a run.

`Ensures` is the rule of pre- and postconditions for such programs. It says of every run that
each question is allowed by what was asked and answered before it, and that the result is as
promised.
-/

namespace QuorumDispatch.Lib

/-- A program that returns an `α`. The answer to a question has the type of the question. -/
inductive Dialog (Q : Type) (A : Q → Type) (α : Type) where
  | pure (a : α)
  | ask (q : Q) (next : A q → Dialog Q A α)

structure Exchange (Q : Type) (A : Q → Type) where
  question : Q
  answer : A question

namespace Dialog

variable {Q : Type} {A : Q → Type} {α β : Type}

def bind : Dialog Q A α → (α → Dialog Q A β) → Dialog Q A β
  | pure a, f => f a
  | ask q next, f => ask q fun a => (next a).bind f

instance : Monad (Dialog Q A) where
  pure := Dialog.pure
  bind := Dialog.bind

def query (q : Q) : Dialog Q A (A q) := ask q pure

/-- What may be asked and answered from the start of a program on. -/
inductive Path : Dialog Q A α → List (Exchange Q A) → Prop where
  | here {m : Dialog Q A α} : Path m []
  | ask {q next} (a : A q) {es} (rest : Path (next a) es) : Path (ask q next) (⟨q, a⟩ :: es)

/-- Behind a history, every question is allowed by what came before it, and the result meets
the postcondition. -/
def Ensures (allowed : List (Exchange Q A) → Q → Prop) (h : List (Exchange Q A)) :
    Dialog Q A α → (α → List (Exchange Q A) → Prop) → Prop
  | pure a, post => post a h
  | ask q next, post => allowed h q ∧ ∀ a, Ensures allowed (h ++ [⟨q, a⟩]) (next a) post

variable {allowed : List (Exchange Q A) → Q → Prop} {h : List (Exchange Q A)}
  {m : Dialog Q A α} {f : α → Dialog Q A β} {post : α → List (Exchange Q A) → Prop}
  {post' : β → List (Exchange Q A) → Prop}

theorem ensures_bind :
    Ensures allowed h (m >>= f) post' ↔
      Ensures allowed h m fun a h' => Ensures allowed h' (f a) post' := by
  induction m generalizing h with
  | pure a => rfl
  | ask q next ih =>
      change _ ∧ _ ↔ _ ∧ _
      exact and_congr_right fun _ => forall_congr' fun a => ih a

theorem Ensures.mono {post' : α → List (Exchange Q A) → Prop} (hm : Ensures allowed h m post)
    (hpost : ∀ a h', h <+: h' → post a h' → post' a h') : Ensures allowed h m post' := by
  induction m generalizing h with
  | pure a => exact hpost a h (List.prefix_refl h) hm
  | ask q next ih =>
      refine ⟨hm.1, fun a => ih a (hm.2 a) fun b h' hpre => ?_⟩
      exact hpost b h' ((List.prefix_append h _).trans hpre)

theorem Ensures.bind (hm : Ensures allowed h m post)
    (hf : ∀ a h', h <+: h' → post a h' → Ensures allowed h' (f a) post') :
    Ensures allowed h (m >>= f) post' :=
  ensures_bind.mpr (hm.mono hf)

theorem Ensures.ask {q : Q} {f : A q → Dialog Q A β} (hq : allowed h q)
    (hf : ∀ a, Ensures allowed (h ++ [⟨q, a⟩]) (f a) post') :
    Ensures allowed h (query q >>= f) post' :=
  ⟨hq, hf⟩

/-- **What `Ensures` says of the paths.** -/
theorem ensures_iff_path [hA : ∀ q, Nonempty (A q)] :
    Ensures allowed h m (fun _ _ => True) ↔
      ∀ es q a, Path m (es ++ [⟨q, a⟩]) → allowed (h ++ es) q := by
  induction m generalizing h with
  | pure a =>
      refine ⟨fun _ es q b hpath => ?_, fun _ => trivial⟩
      cases es with
      | nil => cases hpath
      | cons e es => cases hpath
  | ask q next ih =>
      constructor
      · rintro ⟨hallowed, hnext⟩ es q' b hpath
        cases es with
        | nil =>
            rw [List.append_nil]
            cases hpath
            exact hallowed
        | cons e es =>
            cases hpath with
            | ask a rest =>
                have hrest := (ih a).mp (hnext a) es q' b rest
                rwa [List.append_assoc] at hrest
      · intro hpaths
        refine ⟨?_, fun a => (ih a).mpr fun es q' b hpath => ?_⟩
        · have hhere := hpaths [] q (hA q).some (.ask _ .here)
          rwa [List.append_nil] at hhere
        · rw [List.append_assoc]
          exact hpaths (⟨q, a⟩ :: es) q' b (.ask a hpath)

/-! ### Whole runs -/

variable {a : α}

/-- A run from the start to the result, with all that was asked and answered. -/
inductive Returns : Dialog Q A α → List (Exchange Q A) → α → Prop where
  | pure (a : α) : Returns (pure a) [] a
  | ask {q next} (a : A q) {es r} (rest : Returns (next a) es r) :
      Returns (ask q next) (⟨q, a⟩ :: es) r

theorem returns_pure {b : α} {es : List (Exchange Q A)} :
    Returns (Pure.pure a : Dialog Q A α) es b ↔ es = [] ∧ b = a := by
  constructor
  · rintro ⟨⟩
    exact ⟨rfl, rfl⟩
  · rintro ⟨rfl, rfl⟩
    exact .pure b

theorem returns_ask {q : Q} {next : A q → Dialog Q A α} {es : List (Exchange Q A)} {b : α} :
    Returns (ask q next) es b ↔ ∃ a es', es = ⟨q, a⟩ :: es' ∧ Returns (next a) es' b := by
  constructor
  · rintro ⟨⟩
    exact ⟨_, _, rfl, by assumption⟩
  · rintro ⟨a, es', rfl, hrest⟩
    exact .ask a hrest

theorem returns_bind {es : List (Exchange Q A)} {b : β} :
    Returns (m >>= f) es b ↔
      ∃ es₁ a es₂, es = es₁ ++ es₂ ∧ Returns m es₁ a ∧ Returns (f a) es₂ b := by
  induction m generalizing es with
  | pure a =>
      refine ⟨fun h => ⟨[], a, es, rfl, .pure a, h⟩, ?_⟩
      rintro ⟨es₁, a', es₂, rfl, ⟨⟩, h⟩
      exact h
  | ask q next ih =>
      constructor
      · intro h
        obtain ⟨a, es', rfl, hrest⟩ := returns_ask.mp h
        obtain ⟨es₁, a', es₂, rfl, hm, hf⟩ := (ih a).mp hrest
        exact ⟨⟨q, a⟩ :: es₁, a', es₂, rfl, .ask a hm, hf⟩
      · rintro ⟨es₁, a', es₂, rfl, hm, hf⟩
        obtain ⟨a, es', rfl, hrest⟩ := returns_ask.mp hm
        exact .ask a ((ih a).mpr ⟨es', a', es₂, rfl, hrest, hf⟩)

theorem returns_query_bind {q : Q} {f : A q → Dialog Q A β} {es : List (Exchange Q A)} {b : β} :
    Returns (query q >>= f) es b ↔ ∃ a es', es = ⟨q, a⟩ :: es' ∧ Returns (f a) es' b :=
  returns_ask

theorem returns_query {q : Q} {es : List (Exchange Q A)} {a : A q} :
    Returns (query q) es a ↔ es = [⟨q, a⟩] := by
  constructor
  · intro h
    obtain ⟨a', es', rfl, hrest⟩ := returns_ask.mp h
    obtain ⟨rfl, rfl⟩ := returns_pure.mp hrest
    rfl
  · rintro rfl
    exact .ask a (.pure a)

theorem Ensures.allowed_of_returns {before after es : List (Exchange Q A)} {e : Exchange Q A} {r : α}
    (hm : Ensures allowed h m post) (hrun : Returns m es r) (hes : es = before ++ e :: after) :
    allowed (h ++ before) e.question := by
  induction hrun generalizing h before with
  | pure a => exact absurd hes.symm (by simp)
  | ask a rest ih =>
      cases before with
      | nil =>
          obtain ⟨rfl, rfl⟩ := List.cons.inj hes
          rw [List.append_nil]
          exact hm.1
      | cons e' before =>
          obtain ⟨rfl, hrest⟩ := List.cons.inj hes
          have hallowed := ih (hm.2 a) hrest
          rwa [List.append_assoc] at hallowed

/-! ### Fixed answers -/

/-- The run in which every question has the one answer, and its result. -/
def answers (world : (q : Q) → A q) : Dialog Q A α → List (Exchange Q A) × α
  | pure a => ([], a)
  | ask q next => (⟨q, world q⟩ :: (answers world (next (world q))).1, (answers world (next (world q))).2)

variable {world : (q : Q) → A q}

theorem answers_bind_snd :
    (answers world (m >>= f)).2 = (answers world (f (answers world m).2)).2 := by
  induction m with
  | pure a => rfl
  | ask q next ih => exact ih (world q)

theorem answer_of_mem_answers {e : Exchange Q A} (he : e ∈ (answers world m).1) :
    e.answer = world e.question := by
  induction m with
  | pure a => cases he
  | ask q next ih =>
      rcases List.mem_cons.mp he with rfl | he
      · rfl
      · exact ih (world q) he

theorem path_of_prefix_answers {es : List (Exchange Q A)} (hes : es <+: (answers world m).1) :
    Path m es := by
  induction m generalizing es with
  | pure a =>
      rw [List.prefix_nil.mp hes]
      exact .here
  | ask q next ih =>
      rcases List.prefix_cons_iff.mp hes with rfl | ⟨fs, rfl, hfs⟩
      · exact .here
      · exact .ask (world q) (ih (world q) hfs)

theorem Ensures.answers (world : (q : Q) → A q) (hm : Ensures allowed h m post) :
    post (answers world m).2 (h ++ (answers world m).1) := by
  induction m generalizing h with
  | pure a =>
      rw [Dialog.answers, List.append_nil]
      exact hm
  | ask q next ih =>
      have hnext := ih (world q) (hm.2 (world q))
      rwa [List.append_assoc] at hnext

/-! ### What a history says -/

def Asked (h : List (Exchange Q A)) (q : Q) (a : A q) : Prop := (⟨q, a⟩ : Exchange Q A) ∈ h

def NotAsked (h : List (Exchange Q A)) (q : Q) : Prop := ∀ e ∈ h, e.question ≠ q

def First (h : List (Exchange Q A)) (q : Q) (a : A q) : Prop :=
  ∃ before after, h = before ++ ⟨q, a⟩ :: after ∧ ∀ e ∈ before, e.question ≠ q

def Latest (h : List (Exchange Q A)) (q : Q) (a : A q) : Prop :=
  ∃ before after, h = before ++ ⟨q, a⟩ :: after ∧ ∀ e ∈ after, e.question ≠ q

variable {q q' : Q} {a : A q} {a' : A q'} {h' : List (Exchange Q A)}

theorem Asked.append (hasked : Asked h q a) (hpre : h <+: h') : Asked h' q a :=
  hpre.subset hasked

theorem asked_snoc : Asked (h ++ [⟨q, a⟩]) q a :=
  List.mem_append_right h (List.mem_singleton_self _)

theorem First.append (hfirst : First h q a) (hpre : h <+: h') : First h' q a := by
  obtain ⟨before, after, rfl, hbefore⟩ := hfirst
  obtain ⟨rest, rfl⟩ := hpre
  exact ⟨before, after ++ rest, by simp, hbefore⟩

theorem first_snoc (hnew : NotAsked h q) : First (h ++ [⟨q, a⟩]) q a :=
  ⟨h, [], rfl, hnew⟩

theorem NotAsked.snoc (hnew : NotAsked h q) (hne : q' ≠ q) : NotAsked (h ++ [⟨q', a'⟩]) q := by
  intro e he
  rcases List.mem_append.mp he with he | he
  · exact hnew e he
  · rw [List.mem_singleton.mp he]
    exact hne

theorem latest_snoc : Latest (h ++ [⟨q, a⟩]) q a :=
  ⟨h, [], rfl, fun _ he => by cases he⟩

def Since (P : Q → Prop) (h h' : List (Exchange Q A)) : Prop :=
  ∃ es, h' = h ++ es ∧ ∀ e ∈ es, P e.question

variable {P R : Q → Prop} {h'' : List (Exchange Q A)}

theorem Since.refl : Since P h h := ⟨[], (List.append_nil h).symm, fun _ he => by cases he⟩

theorem Since.trans (h₁ : Since P h h') (h₂ : Since P h' h'') : Since P h h'' := by
  obtain ⟨es, rfl, hes⟩ := h₁
  obtain ⟨fs, rfl, hfs⟩ := h₂
  refine ⟨es ++ fs, List.append_assoc h es fs, fun e he => ?_⟩
  rcases List.mem_append.mp he with he | he
  · exact hes e he
  · exact hfs e he

theorem since_snoc (hq : P q) : Since P h (h ++ [⟨q, a⟩]) :=
  ⟨[⟨q, a⟩], rfl, fun e he => by rw [List.mem_singleton.mp he]; exact hq⟩

theorem Since.isPrefix (hsince : Since P h h') : h <+: h' := by
  obtain ⟨es, rfl, -⟩ := hsince
  exact List.prefix_append h es

theorem NotAsked.since (hnew : NotAsked h q) (hsince : Since P h h') (hq : ¬P q) : NotAsked h' q := by
  obtain ⟨es, rfl, hes⟩ := hsince
  intro e he heq
  rcases List.mem_append.mp he with he | he
  · exact hnew e he heq
  · exact hq (heq ▸ hes e he)

theorem Latest.since (hlatest : Latest h q a) (hsince : Since P h h') (hq : ¬P q) :
    Latest h' q a := by
  obtain ⟨before, after, rfl, hafter⟩ := hlatest
  obtain ⟨es, rfl, hes⟩ := hsince
  refine ⟨before, after ++ es, by simp, fun e he heq => ?_⟩
  rcases List.mem_append.mp he with he | he
  · exact hafter e he heq
  · exact hq (heq ▸ hes e he)

/-! ### Programs that ask questions of one kind -/

def Only (P : Q → Prop) : Dialog Q A α → Prop
  | pure _ => True
  | ask q next => P q ∧ ∀ a, Only P (next a)

theorem only_query {q : Q} : Only P (query q : Dialog Q A (A q)) ↔ P q :=
  and_iff_left fun _ => trivial

theorem Only.bind (hm : Only P m) (hf : ∀ a, Only P (f a)) : Only P (m >>= f) := by
  induction m with
  | pure a => exact hf a
  | ask q next ih => exact ⟨hm.1, fun a => ih a (hm.2 a)⟩

theorem Only.ask {f : A q → Dialog Q A β} (hq : P q) (hf : ∀ a, Only P (f a)) :
    Only P (query q >>= f) :=
  ⟨hq, hf⟩

theorem Only.ite {c : Prop} [Decidable c] {m' : Dialog Q A α} (hm : c → Only P m)
    (hm' : ¬c → Only P m') : Only P (if c then m else m') := by
  split
  · exact hm ‹_›
  · exact hm' ‹_›

theorem Only.mono (hm : Only P m) (hPR : ∀ q, P q → R q) : Only R m := by
  induction m with
  | pure a => trivial
  | ask q next ih => exact ⟨hPR q hm.1, fun a => ih a (hm.2 a)⟩

theorem Ensures.since (hm : Ensures allowed h m post) (honly : Only P m) :
    Ensures allowed h m fun a h' => post a h' ∧ Since P h h' := by
  induction m generalizing h with
  | pure a => exact ⟨hm, .refl⟩
  | ask q next ih =>
      refine ⟨hm.1, fun a => (ih a (hm.2 a) (honly.2 a)).mono fun b h' _ hb => ?_⟩
      exact ⟨hb.1, (since_snoc honly.1).trans hb.2⟩

theorem Only.ensures (honly : Only P m)
    (hallowed : ∀ h' q, Since P h h' → P q → allowed h' q) :
    Ensures allowed h m fun _ h' => Since P h h' := by
  induction m generalizing h with
  | pure a => exact .refl
  | ask q next ih =>
      refine ⟨hallowed h q .refl honly.1, fun a => ?_⟩
      refine (ih a (honly.2 a) fun h' q' hsince hq' => ?_).mono fun b h' _ hsince => ?_
      · exact hallowed h' q' ((since_snoc honly.1).trans hsince) hq'
      · exact (since_snoc honly.1).trans hsince

end Dialog

end QuorumDispatch.Lib
