import QuorumDispatch.Attended.Fire
import QuorumDispatch.Lib.Runs

/-!
What becomes of human input while sends are fired.

Human bytes reach the terminal on two ways, written through by the input thread
or written out by the fire thread after it released the lock. The fire thread
takes the buffered bytes when it releases the lock but writes them out later, and
a burst that comes in between is written through ahead of them. As long as no
burst does, and the writes of human bytes go through, the terminal sees every
byte once and in order, with the replayed draft of a cleared composer ahead of
everything typed since the lock was taken.
-/

namespace QuorumDispatch.Attended

open Lib

/-! ### Reading a trace -/

def Effect.typedBytes : Effect → Bytes
  | passthrough b => b
  | flush b => b
  | _ => []

def typedWrites (trace : List Effect) : Bytes := trace.flatMap Effect.typedBytes

def Effect.isTyped : Effect → Bool
  | passthrough _ | flush _ => true
  | _ => false

def Effect.isHuman : Effect → Bool
  | passthrough _ | flush _ | replay _ => true
  | _ => false

def Effect.isChord : Effect → Bool
  | chord _ => true
  | _ => false

@[simp] theorem typedWrites_append (t u : List Effect) :
    typedWrites (t ++ u) = typedWrites t ++ typedWrites u := by
  simp [typedWrites]

@[simp] theorem typedWrites_singleton (e : Effect) : typedWrites [e] = e.typedBytes := by
  simp [typedWrites]

namespace State

/-- The bytes that the fire thread took from the lock and still has to write. -/
def drained (s : State) : Bytes :=
  match s.pc with
  | .flush buffered _ => buffered
  | _ => []

/-- The draft that the fire thread is about to put back in a cleared composer. -/
def replaying (s : State) : Bytes :=
  match s.pc with
  | .replay draft true _ => draft
  | _ => []

def segment (s : State) : List Effect := s.trace.drop s.traceMark

end State

def Pc.holdsLock : Pc → Bool
  | verify .. | start .. | clear .. | reverify .. | inject .. | complete .. | replay ..
  | unlock .. => true
  | idle | gate | lock | flush .. | landing => false

def Pc.draft? : Pc → Option Bytes
  | verify draft _ | start draft | clear draft _ | reverify draft | inject draft
  | complete draft | replay draft _ _ => some draft
  | idle | gate | lock | unlock .. | flush .. | landing => none

def Pc.untouched : Pc → Bool
  | verify .. | start .. | replay _ false _ => true
  | _ => false

structure HumanInputKept (s : State) : Prop where
  /-- The human bytes on the terminal, then those the fire holds, are what was
  typed. -/
  all : typedWrites s.trace ++ (s.drained ++ s.lock.buffer) = s.typed
  /-- The same of what was typed since the latest lock was taken. -/
  since : typedWrites s.segment ++ (s.drained ++ s.lock.buffer) = s.typed.drop s.typedMark
  /-- Outside a fire nothing is held back. -/
  settled : s.pc.holdsLock = false → s.drained = [] →
    typedWrites s.segment = s.typed.drop s.typedMark
  /-- The replayed snapshot, if any, stands ahead of what was typed since. -/
  replayFirst : ∃ replayed typed, s.segment.filter Effect.isHuman = replayed ++ typed ∧
    (replayed = [] ∨ replayed = [.replay s.snapshot]) ∧ ∀ e ∈ typed, e.isTyped = true
  /-- A cleared composer gets its draft back. -/
  reshown : s.segment.any Effect.isChord = true → s.pc.draft? = none → s.snapshot ≠ [] →
    .replay s.snapshot ∈ s.segment

/-- The condition on a step: no burst comes while the fire thread is about to
write out what it took from the lock, and the terminal takes the whole of every
write of human bytes. -/
def CleanEvent (s : State) : Event → Prop
  | .human bytes _ sent =>
      (bytes ≠ [] → s.drained = []) ∧ (s.lock.locked = false → bytes.length ≤ sent)
  | .fire a => s.drained.length ≤ a.sent ∧ s.replaying.length ≤ a.sent

instance (s : State) : ∀ e, Decidable (CleanEvent s e)
  | .human bytes _ sent => inferInstanceAs (Decidable
      ((bytes ≠ [] → s.drained = []) ∧ (s.lock.locked = false → bytes.length ≤ sent)))
  | .fire a => inferInstanceAs (Decidable
      (s.drained.length ≤ a.sent ∧ s.replaying.length ≤ a.sent))

/-! ### The invariant -/

inductive SegmentOk (s : State) : Prop where
  | before (hhuman : s.segment.filter Effect.isHuman = [])
      (hdraft : s.pc.draft? = some s.snapshot)
      (htouched : s.pc.untouched = true → s.segment.any Effect.isChord = false)
  | after (replayed typed : List Effect) (hdraft : s.pc.draft? = none)
      (hsplit : s.segment.filter Effect.isHuman = replayed ++ typed)
      (hreplayed : replayed = [.replay s.snapshot] ∨
        replayed = [] ∧ (s.snapshot = [] ∨ s.segment.any Effect.isChord = false))
      (htyped : ∀ e ∈ typed, e.isTyped = true)

structure Inv (s : State) : Prop where
  locked : s.lock.locked = s.pc.holdsLock
  buffer : s.lock.locked = false → s.lock.buffer = []
  order : typedWrites s.trace ++ (s.drained ++ s.lock.buffer) = s.typed
  traceMark : s.traceMark ≤ s.trace.length
  typedMark : typedWrites (s.trace.take s.traceMark) = s.typed.take s.typedMark
  typedLen : s.typedMark ≤ s.typed.length
  segmentOk : SegmentOk s

/-! ### What a step of the fire thread can do -/

inductive FireMove (s s' : State) (a : Answer) : Prop where
  | quiet (es : List Effect) (hlock : s'.lock = s.lock) (htrace : s'.trace = s.trace ++ es)
      (hquiet : ∀ e ∈ es, e.isHuman = false) (htyped : s'.typed = s.typed)
      (htraceMark : s'.traceMark = s.traceMark) (htypedMark : s'.typedMark = s.typedMark)
      (hsnapshot : s'.snapshot = s.snapshot) (hholds : s'.pc.holdsLock = s.pc.holdsLock)
      (hdrained : s.drained = [] ∧ s'.drained = []) (hdraft : s'.pc.draft? = s.pc.draft?)
      (hchord : s'.pc.untouched = true → s.pc.untouched = true ∧ es.any Effect.isChord = false)
      (hafter : s.pc.draft? = none → es = [])
  | lock (hpc : s.pc = .lock)
      (hs' : s' = { s with
        lock := s.lock.lock
        pc := .verify s.journal.draft 0
        traceMark := s.trace.length
        typedMark := s.typed.length
        snapshot := s.journal.draft })
  | replay (draft : Bytes) (cleared : Bool) (next : Tail) (hpc : s.pc = .replay draft cleared next)
      (hs' : s' = { s with
        pc := .unlock next
        trace := s.trace ++
          if cleared && !draft.isEmpty then [.replay (draft.take a.sent)] else [] })
  | unlock (next : Tail) (hpc : s.pc = .unlock next)
      (hs' : s' = { s with
        lock := { locked := false, buffer := [] }
        pc := .flush s.lock.buffer next })
  | flush (buffered : Bytes) (next : Tail) (hpc : s.pc = .flush buffered next)
      (hlock : s'.lock = s.lock)
      (htrace : s'.trace = s.trace ++
        if buffered.isEmpty then [] else [.flush (buffered.take a.sent)])
      (htyped : s'.typed = s.typed) (htraceMark : s'.traceMark = s.traceMark)
      (htypedMark : s'.typedMark = s.typedMark) (hsnapshot : s'.snapshot = s.snapshot)
      (hpc' : s'.pc = .idle ∨ s'.pc = .landing)

theorem FireMove.goto {s : State} {a : Answer} {pc : Pc}
    (hholds : pc.holdsLock = s.pc.holdsLock) (hold : s.drained = [])
    (hnew : (s.goto pc).drained = []) (hdraft : pc.draft? = s.pc.draft?)
    (huntouched : pc.untouched = true → s.pc.untouched = true) :
    FireMove s (s.goto pc) a :=
  .quiet [] rfl (List.append_nil _).symm (by simp) rfl rfl rfl rfl hholds ⟨hold, hnew⟩ hdraft
    (fun h => ⟨huntouched h, rfl⟩) (fun _ => rfl)

theorem FireMove.finish {s : State} {a : Answer} {outcome : FireOutcome}
    (hholds : s.pc.holdsLock = false) (hold : s.drained = []) (hdraft : s.pc.draft? = none) :
    FireMove s (s.finish outcome) a :=
  .quiet [] rfl (List.append_nil _).symm (by simp) rfl rfl rfl rfl hholds.symm ⟨hold, rfl⟩
    hdraft.symm (fun h => by cases h) (fun _ => rfl)

theorem landingStep_move (cfg : FireConfig) {s : State} (a : Answer) (hpc : s.pc = .landing) :
    FireMove s (landingStep cfg s a) a := by
  have hholds : s.pc.holdsLock = false := by rw [hpc]; rfl
  have hdrained : s.drained = [] := by simp [State.drained, hpc]
  have hdraft : s.pc.draft? = none := by rw [hpc]; rfl
  unfold landingStep
  split
  · exact .finish hholds hdrained hdraft
  · exact .finish hholds hdrained hdraft
  · split
    · exact .finish hholds hdrained hdraft
    · split
      · exact .finish hholds hdrained hdraft
      · exact .quiet [] rfl (List.append_nil _).symm (by simp) rfl rfl rfl rfl rfl
          ⟨hdrained, hdrained⟩ rfl (fun h => ⟨h, rfl⟩) (fun _ => rfl)

theorem fireStep_move (cfg : FireConfig) (s : State) (a : Answer) :
    FireMove s (fireStep cfg s a) a := by
  unfold fireStep
  split
  · next hpc =>
      refine .quiet [] rfl (List.append_nil _).symm (by simp) rfl rfl rfl rfl ?_ ?_ ?_ ?_ ?_ <;>
        simp [hpc, Pc.holdsLock, Pc.draft?, Pc.untouched, State.drained]
  · next hpc =>
      split
      · exact .finish (by rw [hpc]; rfl) (by simp [State.drained, hpc]) (by rw [hpc]; rfl)
      · exact .goto (by rw [hpc]; rfl) (by simp [State.drained, hpc]) rfl (by rw [hpc]; rfl)
          (fun h => by cases h)
  · next hpc => exact .lock hpc rfl
  · next draft attempt hpc =>
      split
      · exact .goto (by rw [hpc]; rfl) (by simp [State.drained, hpc]) rfl (by rw [hpc]; rfl)
          (fun _ => by rw [hpc]; rfl)
      · split
        · exact .goto (by rw [hpc]; rfl) (by simp [State.drained, hpc]) rfl (by rw [hpc]; rfl)
            (fun _ => by rw [hpc]; rfl)
        · exact .goto (by rw [hpc]; rfl) (by simp [State.drained, hpc]) rfl (by rw [hpc]; rfl)
            (fun _ => by rw [hpc]; rfl)
  · next draft hpc =>
      cases a.durable with
      | true =>
          refine .quiet [.spool _] rfl rfl (by simp [Effect.isHuman]) rfl rfl rfl rfl ?_ ?_ ?_ ?_ ?_ <;>
            simp [hpc, Pc.holdsLock, Pc.draft?, Pc.untouched, State.drained, State.goto,
              Effect.isChord]
      | false =>
          refine .quiet [] rfl (List.append_nil _).symm (by simp) rfl rfl rfl rfl ?_ ?_ ?_ ?_ ?_ <;>
            simp [hpc, Pc.holdsLock, Pc.draft?, Pc.untouched, State.drained, State.goto]
  · next draft left hpc =>
      have hmove : ∀ pc : Pc, pc.holdsLock = true → pc.draft? = some draft →
          pc.untouched = false →
          FireMove s ((s.emit (.chord (cfg.chord.take a.sent))).goto pc) a := by
        intro pc hholds hdraft huntouched
        refine .quiet [.chord (cfg.chord.take a.sent)] rfl rfl (by simp [Effect.isHuman])
          rfl rfl rfl rfl ?_ ?_ ?_ ?_ ?_
        · rw [hpc]; exact hholds
        · refine ⟨by simp [State.drained, hpc], ?_⟩
          cases pc <;> first | rfl | cases hholds
        · rw [hpc]; exact hdraft
        · intro h; exact absurd (huntouched.symm.trans h) (by simp)
        · rw [hpc]; intro h; cases h
      simp only
      split
      · exact hmove _ rfl rfl rfl
      · split
        · exact hmove _ rfl rfl rfl
        · split
          · exact hmove _ rfl rfl rfl
          · exact hmove _ rfl rfl rfl
  · next draft hpc =>
      split
      · exact .goto (by rw [hpc]; rfl) (by simp [State.drained, hpc]) rfl (by rw [hpc]; rfl)
          (fun h => by cases h)
      · exact .goto (by rw [hpc]; rfl) (by simp [State.drained, hpc]) rfl (by rw [hpc]; rfl)
          (fun h => by cases h)
  · next draft hpc =>
      have hmove : ∀ e : Effect, e.isHuman = false → FireMove s (s.emit e) a := by
        intro e he
        refine .quiet [e] rfl rfl (by simpa using he) rfl rfl rfl rfl rfl ?_ rfl ?_ ?_ <;>
          simp [hpc, Pc.draft?, Pc.untouched, State.drained, State.emit]
      split
      · exact hmove _ rfl
      · exact hmove _ rfl
      · split
        · exact .goto (by rw [hpc]; rfl) (by simp [State.drained, hpc]) rfl (by rw [hpc]; rfl)
            (fun h => by cases h)
        · exact .goto (by rw [hpc]; rfl) (by simp [State.drained, hpc]) rfl (by rw [hpc]; rfl)
            (fun h => by cases h)
  · next draft hpc =>
      cases a.durable with
      | true =>
          refine .quiet [.spool _] rfl rfl (by simp [Effect.isHuman]) rfl rfl rfl rfl ?_ ?_ ?_ ?_ ?_ <;>
            simp [hpc, Pc.holdsLock, Pc.draft?, Pc.untouched, State.drained, State.goto]
      | false =>
          refine .quiet [] rfl (List.append_nil _).symm (by simp) rfl rfl rfl rfl ?_ ?_ ?_ ?_ ?_ <;>
            simp [hpc, Pc.holdsLock, Pc.draft?, Pc.untouched, State.drained, State.goto]
  · next draft cleared next hpc =>
      refine .replay draft cleared next hpc ?_
      simp only
      split <;> simp [State.goto, State.emit]
  · next next hpc => exact .unlock next hpc rfl
  · next buffered next hpc =>
      refine .flush buffered next hpc ?_ ?_ ?_ ?_ ?_ ?_ ?_ <;>
        cases next <;> simp only <;> split <;>
        simp [State.goto, State.emit, State.finish]
  · next hpc => exact landingStep_move cfg a hpc

/-! ### The invariant is kept -/

variable {cfg : FireConfig} {s s' : State} {a : Answer}

theorem typedWrites_of_quiet {es : List Effect} (h : ∀ e ∈ es, e.isHuman = false) :
    typedWrites es = [] := by
  apply List.flatMap_eq_nil_iff.mpr
  intro e he
  have hquiet := h e he
  cases e <;> first | rfl | cases hquiet

theorem filter_of_quiet {es : List Effect} (h : ∀ e ∈ es, e.isHuman = false) :
    es.filter Effect.isHuman = [] := by
  apply List.filter_eq_nil_iff.mpr
  intro e he
  simp [h e he]

theorem segment_of_trace {es : List Effect} (hmark : s.traceMark ≤ s.trace.length)
    (htrace : s'.trace = s.trace ++ es) (htraceMark : s'.traceMark = s.traceMark) :
    s'.segment = s.segment ++ es := by
  rw [State.segment, htrace, htraceMark, List.drop_append_of_le_length hmark]
  rfl

theorem take_mark_of_trace {es : List Effect} (hmark : s.traceMark ≤ s.trace.length)
    (htrace : s'.trace = s.trace ++ es) (htraceMark : s'.traceMark = s.traceMark) :
    s'.trace.take s'.traceMark = s.trace.take s.traceMark := by
  rw [htrace, htraceMark, List.take_append_of_le_length hmark]

theorem SegmentOk.snoc {es : List Effect} (h : SegmentOk s) (hafter : s.pc.draft? = none)
    (hsegment : s'.segment = s.segment ++ es) (hsnapshot : s'.snapshot = s.snapshot)
    (hdraft : s'.pc.draft? = none) (hes : ∀ e ∈ es, e.isTyped = true) : SegmentOk s' := by
  have hhuman : es.filter Effect.isHuman = es := by
    apply List.filter_eq_self.mpr
    intro e he
    have htyped := hes e he
    cases e <;> first | rfl | cases htyped
  have hchord : es.any Effect.isChord = false := by
    rw [List.any_eq_false]
    intro e he
    have htyped := hes e he
    have hno : e.isChord = false := by cases e <;> first | rfl | cases htyped
    simp [hno]
  cases h with
  | before hempty hsome => cases hafter.symm.trans hsome
  | after replayed typed hnone hsplit hreplayed htyped =>
      refine .after replayed (typed ++ es) hdraft ?_ ?_ ?_
      · rw [hsegment, List.filter_append, hsplit, hhuman, List.append_assoc]
      · rw [hsnapshot, hsegment, List.any_append, hchord, Bool.or_false]
        exact hreplayed
      · intro e he
        rcases List.mem_append.mp he with he | he
        · exact htyped e he
        · exact hes e he

theorem fire_inv (hinv : Inv s) (hclean : CleanEvent s (.fire a)) (hmove : FireMove s s' a) :
    Inv s' := by
  cases hmove with
  | quiet es hlock htrace hquiet htyped htraceMark htypedMark hsnapshot hholds hdrained hdraft
      hchord hafter =>
      have hsegment := segment_of_trace hinv.traceMark htrace htraceMark
      refine ⟨?_, ?_, ?_, ?_, ?_, ?_, ?_⟩
      · rw [hlock, hinv.locked, hholds]
      · rw [hlock]
        exact hinv.buffer
      · rw [htrace, typedWrites_append, typedWrites_of_quiet hquiet, List.append_nil, hlock,
          htyped, hdrained.2, ← hinv.order, hdrained.1]
      · rw [htraceMark, htrace, List.length_append]
        exact Nat.le_add_right_of_le hinv.traceMark
      · rw [take_mark_of_trace hinv.traceMark htrace htraceMark, htypedMark, htyped]
        exact hinv.typedMark
      · rw [htypedMark, htyped]
        exact hinv.typedLen
      · cases hinv.segmentOk with
        | before hhuman hsome htouched =>
            refine .before ?_ ?_ ?_
            · rw [hsegment, List.filter_append, hhuman, filter_of_quiet hquiet]
              rfl
            · rw [hdraft, hsnapshot]
              exact hsome
            · intro huntouched
              obtain ⟨hold, hnone⟩ := hchord huntouched
              rw [hsegment, List.any_append, htouched hold, hnone]
              rfl
        | after replayed typed hnone hsplit hreplayed htyped' =>
            obtain rfl := hafter hnone
            rw [List.append_nil] at hsegment
            refine .after replayed typed (hdraft.trans hnone) ?_ ?_ htyped'
            · rw [hsegment]
              exact hsplit
            · rw [hsnapshot, hsegment]
              exact hreplayed
  | lock hpc hs' =>
      subst hs'
      have hdrained : s.drained = [] := by simp [State.drained, hpc]
      have hempty : State.segment { s with
          lock := s.lock.lock
          pc := .verify s.journal.draft 0
          traceMark := s.trace.length
          typedMark := s.typed.length
          snapshot := s.journal.draft } = [] := by
        simp [State.segment]
      have hbuffer : s.lock.buffer = [] := by
        apply hinv.buffer
        rw [hinv.locked, hpc]
        rfl
      have horder := hinv.order
      rw [hdrained, hbuffer, List.append_nil, List.append_nil] at horder
      refine ⟨rfl, ?_, ?_, Nat.le_refl _, ?_, Nat.le_refl _, ?_⟩
      · intro h
        cases h
      · simp only [State.drained, InputLock.lock, hbuffer]
        simpa using horder
      · simpa using horder
      · refine .before ?_ rfl ?_
        · rw [hempty]
          rfl
        · intro _
          rw [hempty]
          rfl
  | replay draft cleared next hpc hs' =>
      have htrace : s'.trace = s.trace ++
          if cleared && !draft.isEmpty then [.replay (draft.take a.sent)] else [] := by
        rw [hs']
      have htraceMark : s'.traceMark = s.traceMark := by rw [hs']
      have hdrained : s.drained = [] := by simp [State.drained, hpc]
      have hwhole : (if cleared && !draft.isEmpty then [Effect.replay (draft.take a.sent)] else []) =
          if cleared && !draft.isEmpty then [.replay draft] else [] := by
        cases cleared with
        | false => rfl
        | true =>
            have hsent : draft.length ≤ a.sent := by
              have hlen := hclean.2
              rw [State.replaying, hpc] at hlen
              exact hlen
            rw [List.take_of_length_le hsent]
      rw [hwhole] at htrace hs'
      have hsegment := segment_of_trace hinv.traceMark htrace htraceMark
      have hnone : typedWrites (if cleared && !draft.isEmpty then [.replay draft] else []) = [] := by
        split <;> rfl
      refine ⟨?_, ?_, ?_, ?_, ?_, ?_, ?_⟩
      · rw [hs']
        simp only [hinv.locked, hpc]
        rfl
      · rw [hs']
        exact hinv.buffer
      · rw [htrace, typedWrites_append, hnone, List.append_nil, hs', ← hinv.order, hdrained]
        rfl
      · rw [htraceMark, htrace, List.length_append]
        exact Nat.le_add_right_of_le hinv.traceMark
      · rw [take_mark_of_trace hinv.traceMark htrace htraceMark, hinv.typedMark, hs']
      · rw [hs']
        exact hinv.typedLen
      · cases hinv.segmentOk with
        | after replayed typed hnone =>
            rw [hpc] at hnone
            cases hnone
        | before hhuman hsome htouched =>
            rw [hpc] at hsome htouched
            obtain rfl : draft = s.snapshot := Option.some.inj hsome
            have hsnapshot : s'.snapshot = s.snapshot := by rw [hs']
            by_cases hreshow : (cleared && !s.snapshot.isEmpty) = true
            · rw [if_pos hreshow] at hsegment
              refine .after [.replay s.snapshot] [] (by rw [hs']; rfl) ?_ ?_ (by simp)
              · rw [hsegment, List.filter_append, hhuman]
                rfl
              · rw [hsnapshot]
                exact .inl rfl
            · rw [if_neg hreshow, List.append_nil] at hsegment
              refine .after [] [] (by rw [hs']; rfl) ?_ ?_ (by simp)
              · rw [hsegment, hhuman]
                rfl
              · rw [hsnapshot, hsegment]
                refine .inr ⟨rfl, ?_⟩
                cases cleared with
                | false => exact .inr (htouched rfl)
                | true => exact .inl (by simpa using hreshow)
  | unlock next hpc hs' =>
      subst hs'
      have hdrained : s.drained = [] := by simp [State.drained, hpc]
      have horder := hinv.order
      rw [hdrained, List.nil_append] at horder
      refine ⟨rfl, fun _ => rfl, ?_, hinv.traceMark, hinv.typedMark, hinv.typedLen, ?_⟩
      · simp only [State.drained, List.append_nil]
        exact horder
      · refine hinv.segmentOk.snoc (by rw [hpc]; rfl) (List.append_nil _).symm rfl rfl (by simp)
  | flush buffered next hpc hlock htrace htyped htraceMark htypedMark hsnapshot hpc' =>
      have hsegment := segment_of_trace hinv.traceMark htrace htraceMark
      have hwhole : buffered.take a.sent = buffered := by
        apply List.take_of_length_le
        have hlen := hclean.1
        rw [State.drained, hpc] at hlen
        exact hlen
      rw [hwhole] at htrace hsegment
      have hwrites : typedWrites (if buffered.isEmpty then [] else [.flush buffered]) = buffered := by
        cases buffered <;> simp [typedWrites, Effect.typedBytes]
      have hdrained : s.drained = buffered := by simp [State.drained, hpc]
      have hdrained' : s'.drained = [] := by
        rcases hpc' with hpc' | hpc' <;> simp [State.drained, hpc']
      have hholds : s'.pc.holdsLock = false := by
        rcases hpc' with hpc' | hpc' <;> rw [hpc'] <;> rfl
      refine ⟨?_, ?_, ?_, ?_, ?_, ?_, ?_⟩
      · rw [hlock, hinv.locked, hholds, hpc]
        rfl
      · rw [hlock]
        exact hinv.buffer
      · rw [htrace, typedWrites_append, hwrites, hdrained', hlock, htyped, ← hinv.order, hdrained]
        simp
      · rw [htraceMark, htrace, List.length_append]
        exact Nat.le_add_right_of_le hinv.traceMark
      · rw [take_mark_of_trace hinv.traceMark htrace htraceMark, htypedMark, htyped]
        exact hinv.typedMark
      · rw [htypedMark, htyped]
        exact hinv.typedLen
      · refine hinv.segmentOk.snoc (by rw [hpc]; rfl) hsegment hsnapshot ?_ ?_
        · rcases hpc' with hpc' | hpc' <;> rw [hpc'] <;> rfl
        · intro e he
          split at he
          · cases he
          · rw [List.mem_singleton.mp he]
            rfl

/-- What handling a burst does: it is buffered if it meets the lock, and written
through otherwise. -/
structure HumanMove (s s' : State) (bytes : Bytes) (sent : Nat) : Prop where
  pc : s'.pc = s.pc
  typed : s'.typed = s.typed ++ bytes
  traceMark : s'.traceMark = s.traceMark
  typedMark : s'.typedMark = s.typedMark
  snapshot : s'.snapshot = s.snapshot
  lock : s'.lock =
    if s.lock.locked then { s.lock with buffer := s.lock.buffer ++ bytes } else s.lock
  trace : s'.trace =
    s.trace ++ if s.lock.locked then [] else [.passthrough (bytes.take sent)]

theorem humanInput_move (cfg : FireConfig) (s : State) (bytes : Bytes) (nowMs : Int)
    (sent : Nat) : HumanMove s (humanInput cfg s bytes nowMs sent) bytes sent := by
  unfold humanInput InputLock.admit
  cases hlocked : s.lock.locked <;> constructor <;> simp [hlocked, State.emit]

theorem drained_of_holdsLock (h : s.pc.holdsLock = true) : s.drained = [] := by
  unfold State.drained
  split
  · next hpc =>
      rw [hpc] at h
      cases h
  · rfl

theorem draft?_of_holdsLock (h : s.pc.holdsLock = false) : s.pc.draft? = none := by
  cases hpc : s.pc <;> rw [hpc] at h <;> first | rfl | cases h

theorem human_inv {bytes : Bytes} {nowMs : Int} {sent : Nat} (hinv : Inv s)
    (hclean : CleanEvent s (.human bytes nowMs sent)) (hmove : HumanMove s s' bytes sent) :
    Inv s' := by
  have hdrained : s'.drained = s.drained := by simp [State.drained, hmove.pc]
  have htyped : s'.typed.take s'.typedMark = s.typed.take s.typedMark := by
    rw [hmove.typed, hmove.typedMark, List.take_append_of_le_length hinv.typedLen]
  have hlen : s'.typedMark ≤ s'.typed.length := by
    rw [hmove.typed, hmove.typedMark, List.length_append]
    exact Nat.le_add_right_of_le hinv.typedLen
  have hmark : s'.traceMark ≤ s'.trace.length := by
    rw [hmove.traceMark, hmove.trace, List.length_append]
    exact Nat.le_add_right_of_le hinv.traceMark
  have htake := take_mark_of_trace hinv.traceMark hmove.trace hmove.traceMark
  have hsegment := segment_of_trace hinv.traceMark hmove.trace hmove.traceMark
  have horder := hinv.order
  obtain ⟨hempty, hsent⟩ := hclean
  cases hlocked : s.lock.locked with
  | true =>
      have hlock := hmove.lock
      have htrace := hmove.trace
      rw [hlocked, if_pos rfl] at hlock htrace hsegment
      rw [List.append_nil] at htrace hsegment
      have hnone : s.drained = [] := by
        apply drained_of_holdsLock
        rw [← hinv.locked, hlocked]
      refine ⟨?_, ?_, ?_, hmark, ?_, hlen, ?_⟩
      · rw [hlock, hmove.pc]
        exact hinv.locked
      · intro h
        rw [hlock] at h
        cases hlocked.symm.trans h
      · rw [htrace, hdrained, hlock, hmove.typed, ← horder, hnone]
        simp
      · rw [htake, htyped]
        exact hinv.typedMark
      · cases hinv.segmentOk with
        | before hhuman hsome htouched =>
            refine .before ?_ ?_ ?_
            · rw [hsegment]
              exact hhuman
            · rw [hmove.pc, hmove.snapshot]
              exact hsome
            · rw [hmove.pc, hsegment]
              exact htouched
        | after replayed typed hnone hsplit hreplayed htyped' =>
            refine .after replayed typed ?_ ?_ ?_ htyped'
            · rw [hmove.pc]
              exact hnone
            · rw [hsegment]
              exact hsplit
            · rw [hmove.snapshot, hsegment]
              exact hreplayed
  | false =>
      have hlock := hmove.lock
      have htrace := hmove.trace
      rw [hlocked, if_neg Bool.false_ne_true] at hlock htrace hsegment
      have hwhole : bytes.take sent = bytes := List.take_of_length_le (hsent hlocked)
      rw [hwhole] at htrace hsegment
      have hbuffer := hinv.buffer hlocked
      have hholds : s.pc.holdsLock = false := by rw [← hinv.locked, hlocked]
      refine ⟨?_, ?_, ?_, hmark, ?_, hlen, ?_⟩
      · rw [hlock, hmove.pc]
        exact hinv.locked
      · rw [hlock]
        exact hinv.buffer
      · rw [htrace, hdrained, hlock, hmove.typed, ← horder, hbuffer]
        -- the written bytes may only pass the held ones when there are none of either
        rcases List.eq_nil_or_concat bytes with rfl | ⟨front, b, rfl⟩
        · simp [Effect.typedBytes]
        · rw [hempty (by simp)]
          simp [Effect.typedBytes]
      · rw [htake, htyped]
        exact hinv.typedMark
      · refine hinv.segmentOk.snoc (draft?_of_holdsLock hholds) hsegment hmove.snapshot ?_ ?_
        · rw [hmove.pc]
          exact draft?_of_holdsLock hholds
        · intro e he
          rw [List.mem_singleton.mp he]
          rfl

theorem step_inv {e : Event} (hinv : Inv s) (hclean : CleanEvent s e) : Inv (step cfg s e) := by
  cases e with
  | human bytes nowMs sent => exact human_inv hinv hclean (humanInput_move cfg s bytes nowMs sent)
  | fire a => exact fire_inv hinv hclean (fireStep_move cfg s a)

theorem inv_init : Inv {} :=
  ⟨rfl, fun _ => rfl, rfl, Nat.le_refl 0, rfl, Nat.le_refl 0,
    .after [] [] rfl rfl (.inr ⟨rfl, .inl rfl⟩) (by simp)⟩

theorem Inv.kept (h : Inv s) : HumanInputKept s := by
  have hsince : typedWrites s.segment ++ (s.drained ++ s.lock.buffer) =
      s.typed.drop s.typedMark := by
    have hsplit : typedWrites s.trace =
        s.typed.take s.typedMark ++ typedWrites s.segment := by
      rw [← h.typedMark, ← typedWrites_append, State.segment, List.take_append_drop]
    have horder := h.order
    rw [hsplit, List.append_assoc] at horder
    have hdrop := congrArg (List.drop s.typedMark) horder
    rw [List.drop_append_of_le_length (by simp [h.typedLen])] at hdrop
    simpa using hdrop
  refine ⟨h.order, hsince, ?_, ?_, ?_⟩
  · intro hholds hdrained
    have hbuffer := h.buffer (by rw [h.locked, hholds])
    rw [← hsince, hdrained, hbuffer]
    simp
  · cases h.segmentOk with
    | before hhuman => exact ⟨[], [], hhuman, .inl rfl, by simp⟩
    | after replayed typed hnone hsplit hreplayed htyped =>
        refine ⟨replayed, typed, hsplit, ?_, htyped⟩
        rcases hreplayed with hreplayed | ⟨hreplayed, -⟩
        · exact .inr hreplayed
        · exact .inl hreplayed
  · intro hchord hnone hne
    cases h.segmentOk with
    | before hhuman hsome => cases hnone.symm.trans hsome
    | after replayed typed hnone hsplit hreplayed htyped =>
        rcases hreplayed with rfl | ⟨-, hempty | hquiet⟩
        · have hmem : Effect.replay s.snapshot ∈ s.segment.filter Effect.isHuman := by
            rw [hsplit]
            simp
          exact List.mem_of_mem_filter hmem
        · exact absurd hempty hne
        · cases hchord.symm.trans hquiet

/-! ### Runs -/

def CleanRun (cfg : FireConfig) (run : List Event) : Prop := Along (step cfg) CleanEvent {} run

instance (cfg : FireConfig) (run : List Event) : Decidable (CleanRun cfg run) :=
  inferInstanceAs (Decidable (Along (step cfg) CleanEvent {} run))

theorem inv_of_cleanRun {run : List Event} (h : CleanRun cfg run) : Inv (stateAfter cfg run) :=
  Along.invariant (fun _ _ => step_inv) inv_init h

/-- In every interleaving of bursts and fires in which no burst is handled
between a release of the lock and the write of what it had buffered, and the
terminal takes every write of human bytes whole, human input is kept in every
state reached. -/
theorem humanInputKept_of_cleanRun (cfg : FireConfig) (run : List Event)
    (hclean : CleanRun cfg run) (pre post : List Event) (hrun : run = pre ++ post) :
    HumanInputKept (stateAfter cfg pre) := by
  subst hrun
  exact (inv_of_cleanRun hclean.front).kept

/-! ### A fire with human input around it -/

def safeDefaultFacts : FireConfig where
  signal := .busyTransition
  chord := [0x15]
  presses := 1
  reverifyPlain := false
  verifyAttempts := 3
  pasteThreshold := 8

def Answer.good : Answer where
  record := default
  confirmable := true
  plain := some true
  durable := true
  sent := 1000
  inject := .finish true
  scan := .landed
  statusGone := false
  pastDeadline := false

/-- A draft `d` is in the composer when the fire starts, and `x` is typed while
it clears; the fire runs up to the release of the lock. -/
def fireWithHuman : List Event :=
  [Event.human [100] 0 1000] ++ List.replicate 5 (Event.fire .good) ++ [Event.human [120] 1 1000] ++
    [Event.fire .good, Event.fire { Answer.good with inject := .text [104, 105] },
      Event.fire { Answer.good with inject := .cr }] ++
    List.replicate 4 (Event.fire .good)

theorem humanInputKept_fireWithHuman :
    HumanInputKept (stateAfter safeDefaultFacts
      (fireWithHuman ++ [Event.fire .good, Event.human [121] 2 1000, Event.fire .good])) :=
  humanInputKept_of_cleanRun safeDefaultFacts
    (fireWithHuman ++ [Event.fire .good, Event.human [121] 2 1000, Event.fire .good]) (by decide) _ []
    (List.append_nil _).symm

/-- A burst `y` between the release of the lock and the write of the buffered `x`
reaches the terminal first. -/
theorem burst_before_flush_not_humanInputKept :
    ¬HumanInputKept (stateAfter safeDefaultFacts
      (fireWithHuman ++ [Event.human [121] 2 1000, Event.fire .good])) := by
  intro h
  have hall := h.all
  revert hall
  decide

end QuorumDispatch.Attended
