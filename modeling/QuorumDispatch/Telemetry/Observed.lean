import QuorumDispatch.Registry.Claims
import QuorumDispatch.Telemetry.Stream

/-!
`record_observed_in`: the first sighting of a discovered session is recorded, once. The check
and the append are made under `observed.lock`; the marker of a key, created behind the append,
is looked for without it.

The steps of any number of calls interleave with writes that take no lock, and a call may die
between two of its steps.
-/

namespace QuorumDispatch.Telemetry

open Lib
open Registry (passesThrough hexDigit)

/-! ### Markers -/

def encodeKeyByte (b : UInt8) : Bytes :=
  if passesThrough b then [b] else [37, hexDigit (b / 16), hexDigit (b % 16)]

def encodeKeyField (s : String) : Bytes := (encodeUtf8 s.toList).flatMap encodeKeyByte

def encodeObservedKey (key : ObservedKey) : Bytes :=
  encodeKeyField key.host ++ 126 :: (encodeKeyField key.harness ++ 126 :: encodeKeyField key.sessionId)

def unhex (b : UInt8) : UInt8 := if b < 58 then b - 48 else b - 55

theorem unhex_hexDigit (b : UInt8) :
    16 * unhex (hexDigit (b / 16)) + unhex (hexDigit (b % 16)) = b := by
  have h : ∀ n : Fin 256, 16 * unhex (hexDigit (.ofNat n / 16)) + unhex (hexDigit (.ofNat n % 16)) =
      UInt8.ofNat n := by
    decide +kernel
  simpa using h ⟨b.toNat, b.toNat_lt⟩

theorem encodeKeyByte_append_inj {b c : UInt8} {xs ys : Bytes}
    (h : encodeKeyByte b ++ xs = encodeKeyByte c ++ ys) : b = c ∧ xs = ys := by
  have hpercent : passesThrough 37 = false := by decide
  unfold encodeKeyByte at h
  split_ifs at h with hb hc hc
  · simpa using h
  · obtain ⟨rfl, -⟩ := List.cons.inj h
    rw [hpercent] at hb
    cases hb
  · obtain ⟨rfl, -⟩ := List.cons.inj h
    rw [hpercent] at hc
    cases hc
  · simp only [List.cons_append, List.nil_append, List.cons.injEq, true_and] at h
    obtain ⟨hhigh, hlow, hrest⟩ := h
    exact ⟨by rw [← unhex_hexDigit b, hhigh, hlow, unhex_hexDigit], hrest⟩

theorem encodeKeyField_injective {s t : String} (h : encodeKeyField s = encodeKeyField t) : s = t := by
  have hbytes : ∀ xs ys : Bytes, xs.flatMap encodeKeyByte = ys.flatMap encodeKeyByte → xs = ys := by
    have hne : ∀ b, encodeKeyByte b ≠ [] := by
      intro b
      unfold encodeKeyByte
      split <;> simp
    intro xs
    induction xs with
    | nil =>
        intro ys h
        cases ys with
        | nil => rfl
        | cons c ys => simp [List.flatMap_cons, hne c] at h
    | cons b xs ih =>
        intro ys h
        cases ys with
        | nil => simp [List.flatMap_cons, hne b] at h
        | cons c ys =>
            obtain ⟨rfl, hrest⟩ := encodeKeyByte_append_inj h
            rw [ih ys hrest]
  exact String.ext (encodeUtf8_injective (hbytes _ _ h))

theorem tilde_notMem_encodeKeyField (s : String) : 126 ∉ encodeKeyField s := by
  have hbyte : ∀ n : Fin 256, 126 ∉ encodeKeyByte (.ofNat n) := by decide +kernel
  intro h
  obtain ⟨b, _, hb⟩ := List.mem_flatMap.mp h
  have hnot := hbyte ⟨b.toNat, b.toNat_lt⟩
  rw [show UInt8.ofNat b.toNat = b from UInt8.ofNat_toNat] at hnot
  exact hnot hb

theorem field_append_inj {xs ys rest rest' : Bytes} (hx : 126 ∉ xs) (hy : 126 ∉ ys)
    (h : xs ++ 126 :: rest = ys ++ 126 :: rest') : xs = ys ∧ rest = rest' := by
  induction xs generalizing ys with
  | nil =>
      cases ys with
      | nil => exact ⟨rfl, (List.cons.inj h).2⟩
      | cons c ys => exact absurd ((List.cons.inj h).1 ▸ List.mem_cons_self) hy
  | cons b xs ih =>
      cases ys with
      | nil => exact absurd ((List.cons.inj h).1 ▸ List.mem_cons_self) hx
      | cons c ys =>
          obtain ⟨rfl, htail⟩ := List.cons.inj h
          obtain ⟨rfl, hrest⟩ := ih (fun hm => hx (List.mem_cons_of_mem b hm))
            (fun hm => hy (List.mem_cons_of_mem b hm)) htail
          exact ⟨rfl, hrest⟩

theorem encodeObservedKey_injective {key key' : ObservedKey}
    (h : encodeObservedKey key = encodeObservedKey key') : key = key' := by
  obtain ⟨host, harness, sessionId⟩ := key
  obtain ⟨host', harness', sessionId'⟩ := key'
  obtain ⟨hhost, hrest⟩ := field_append_inj (tilde_notMem_encodeKeyField host)
    (tilde_notMem_encodeKeyField host') h
  obtain ⟨hharness, hsession⟩ := field_append_inj (tilde_notMem_encodeKeyField harness)
    (tilde_notMem_encodeKeyField harness') hrest
  have hkey : sessionId = sessionId' := encodeKeyField_injective hsession
  rw [encodeKeyField_injective hhost, encodeKeyField_injective hharness, hkey]

/-! ### Calls -/

/-- What goes wrong in the file system, or in a test seam; `lockTimedOut` is of a lock that
another call holds for too long. -/
inductive Fault where
  | stateDir
  | lockOpen
  | lockTimedOut
  | lockFailed
  | read
  | forced
  | parentDir
  | open
  | write
deriving DecidableEq, Repr

inductive RecordError where
  | emptyIdentity
  | notUtf8
  | fault (f : Fault)
deriving DecidableEq, Repr

def RecordError.message (path cause : String) : RecordError → String
  | emptyIdentity => "record_observed: empty identity component (host/harness/sessionId)"
  | notUtf8 | fault .read => "could not read " ++ path ++ ": " ++ cause
  | fault .stateDir => "could not create state dir " ++ path ++ ": " ++ cause
  | fault .lockOpen => "could not open observed lock " ++ path ++ ": " ++ cause
  | fault .lockTimedOut => "observed lock: timed out acquiring exclusive lock"
  | fault .lockFailed => "observed lock: flock failed: " ++ cause
  | fault .forced => "record_observed: append forced-failed (test seam)"
  | fault .parentDir => "could not create state dir: " ++ cause
  | fault .open => "could not open " ++ path ++ ": " ++ cause
  | fault .write => "write failed: " ++ cause

/-- What a call of `record_observed_in` is about to do, or its result. -/
inductive Phase where
  | checking
  | locking
  | scanning
  | appending
  | marking (appended : Bool)
  | releasing (result : Except RecordError Bool)
  | returned (result : Except RecordError Bool)
  | crashed
deriving DecidableEq, Repr

/-- A call with what it was given; the time is the one that its line has. -/
structure Call where
  key : ObservedKey
  cwd : Option String := none
  ts : String
  phase : Phase := .checking
deriving Repr

def Call.line (call : Call) : Json := buildObservedLine call.ts call.key call.cwd

def ObservedKey.incomplete (key : ObservedKey) : Bool :=
  key.host.isEmpty || key.harness.isEmpty || key.sessionId.isEmpty

/-- `marks.jsonl` and what is kept beside it; a file that is missing is one without bytes. A
call is numbered. -/
structure Observers where
  stream : Bytes := []
  markers : List Bytes := []
  lock : Option Nat := none
  calls : Nat → Option Call := fun _ => none

namespace Observers

def setPhase (s : Observers) (c : Nat) (call : Call) (phase : Phase) : Observers :=
  { s with calls := Function.update s.calls c (some { call with phase }) }

inductive Act where
  | call (c : Nat) (call : Call)
  | advance (c : Nat) (fault : Option Fault)
  | crash (c : Nat)
  | unlocked (line : UnlockedLine) (bytes : Nat)

section Serde

variable (serde : SerdeJson)

/-- The next step of a call. A marker that can not be looked for is not there, and one that
can not be created is left out. -/
def advance (s : Observers) (c : Nat) (call : Call) (fault : Option Fault) : Option Observers :=
  match call.phase, fault with
  | .checking, none =>
      if encodeObservedKey call.key ∈ s.markers then some (s.setPhase c call (.returned (.ok false)))
      else some (s.setPhase c call .locking)
  | .checking, some _ => some (s.setPhase c call .locking)
  | .locking, none =>
      -- the lock is polled
      if s.lock.isNone then some { s.setPhase c call .scanning with lock := some c } else some s
  | .locking, some f =>
      if f = .stateDir ∨ f = .lockOpen ∨ f = .lockFailed ∨ f = .lockTimedOut ∧ s.lock.isSome then
        some (s.setPhase c call (.returned (.error (.fault f))))
      else none
  | .scanning, none =>
      match decodeUtf8 s.stream with
      | none => some (s.setPhase c call (.releasing (.error .notUtf8)))
      | some text =>
          if observedLineInText serde call.key text then some (s.setPhase c call (.marking false))
          else some (s.setPhase c call .appending)
  | .scanning, some .read => some (s.setPhase c call (.releasing (.error (.fault .read))))
  | .appending, none =>
      some { s.setPhase c call (.marking true) with
        stream := s.stream ++ encodeUtf8 (selfDelimited serde call.line) }
  | .appending, some f =>
      if f = .forced ∨ f = .parentDir ∨ f = .open ∨ f = .write then
        some (s.setPhase c call (.releasing (.error (.fault f))))
      else none
  | .marking appended, none =>
      some { s.setPhase c call (.releasing (.ok appended)) with
        markers := s.markers.insert (encodeObservedKey call.key) }
  | .marking appended, some _ => some (s.setPhase c call (.releasing (.ok appended)))
  | .releasing result, none => some { s.setPhase c call (.returned result) with lock := none }
  | _, _ => none

def crash (s : Observers) (c : Nat) (call : Call) : Option Observers :=
  match call.phase with
  | .returned _ | .crashed => none
  | _ =>
      some { s.setPhase c call .crashed with lock := if s.lock = some c then none else s.lock }

def step (s : Observers) : Act → Option Observers
  | .call c call =>
      if (s.calls c).isSome then none
      else if call.key.incomplete then
        some (s.setPhase c call (.returned (.error .emptyIdentity)))
      else some (s.setPhase c call .checking)
  | .advance c fault => (s.calls c).bind fun call => s.advance serde c call fault
  | .crash c => (s.calls c).bind fun call => s.crash c call
  | .unlocked line bytes => some { s with stream := s.stream ++ (lineBytes serde line).take bytes }

def run? (s : Observers) (acts : List Act) : Option Observers := acts.foldlM (step serde) s

def LawfulAct : Act → Prop
  | .call _ call => serde.LawfulAt call.line
  | .unlocked line _ => PrintsAt serde line
  | _ => True

/-- A write without the lock is not cut off within a character. -/
def cutsWhole : Act → Bool
  | .unlocked line bytes => charBoundary (lineBytes serde line) bytes
  | _ => true

/-- **A session is recorded once, and every key stays recordable.** -/
structure Records (s : Observers) : Prop where
  /-- No two `observed` lines have one key. -/
  once : (observedKeys serde s.stream).Nodup
  /-- A call that returned `Ok` found the key recorded, or recorded it. -/
  returned : ∀ c call b, s.calls c = some call → call.phase = .returned (.ok b) →
    call.key ∈ observedKeys serde s.stream
  /-- So did the call that created a marker. -/
  marker : ∀ key, encodeObservedKey key ∈ s.markers → key ∈ observedKeys serde s.stream
  /-- A call fails by a fault, or by what it was given. -/
  failed : ∀ c call e, s.calls c = some call → call.phase = .returned (.error e) →
    e = .emptyIdentity ∧ call.key.incomplete ∨ ∃ f, e = .fault f
  /-- A further call on a key that is not recorded records it, where the lock is free and
  nothing fails. -/
  recordable : ∀ c (call : Call), s.calls c = none → s.lock = none → call.key.incomplete = false →
    call.key ∉ observedKeys serde s.stream →
    ∃ s', run? serde s (.call c call :: List.replicate 6 (.advance c none)) = some s' ∧
      ∃ call', s'.calls c = some call' ∧ call'.phase = .returned (.ok true)

/-! ### What every step keeps -/

def ResultOk (keys : List ObservedKey) (key : ObservedKey) : Except RecordError Bool → Prop
  | .ok _ => key ∈ keys
  | .error e => e = .emptyIdentity ∧ key.incomplete ∨ ∃ f, e = .fault f

/-- What is known at a call, by where it stands: from the scan on it holds the lock. -/
def CallOk (keys : List ObservedKey) (lock : Option Nat) (c : Nat) (call : Call) : Prop :=
  match call.phase with
  | .checking | .locking | .crashed => True
  | .scanning => lock = some c
  | .appending => lock = some c ∧ call.key ∉ keys
  | .marking _ => lock = some c ∧ call.key ∈ keys
  | .releasing result => lock = some c ∧ ResultOk keys call.key result
  | .returned result => ResultOk keys call.key result

structure Sound (s : Observers) : Prop where
  text : ∃ text, s.stream = encodeUtf8 text ∧ Written serde (Lines.of '\n' text)
  once : (observedKeys serde s.stream).Nodup
  marker : ∀ m ∈ s.markers, ∃ key ∈ observedKeys serde s.stream, m = encodeObservedKey key
  lawful : ∀ c call, s.calls c = some call → serde.LawfulAt call.line
  call : ∀ c call, s.calls c = some call → CallOk (observedKeys serde s.stream) s.lock c call

end Serde

variable {serde : SerdeJson} {s s' : Observers} {c : Nat} {call : Call}

theorem sound_empty : Sound serde {} where
  text := ⟨[], rfl, written_nil⟩
  once := List.nodup_nil
  marker m h := by cases h
  lawful c call h := by cases h
  call c call h := by cases h

theorem ResultOk.mono {keys keys' : List ObservedKey} {key : ObservedKey}
    {result : Except RecordError Bool} (h : ResultOk keys key result) (hsub : keys ⊆ keys') :
    ResultOk keys' key result := by
  cases result with
  | ok b => exact hsub h
  | error e => exact h

theorem CallOk.frame {keys keys' : List ObservedKey} {lock lock' : Option Nat}
    (h : CallOk keys lock c call) (hsub : keys ⊆ keys')
    (hlock : lock = some c → lock' = some c ∧ keys' = keys) : CallOk keys' lock' c call := by
  unfold CallOk at h ⊢
  cases hphase : call.phase with
  | checking => trivial
  | locking => trivial
  | crashed => trivial
  | scanning =>
      rw [hphase] at h
      exact (hlock h).1
  | appending =>
      rw [hphase] at h
      obtain ⟨hholds, hkeys⟩ := hlock h.1
      exact ⟨hholds, hkeys ▸ h.2⟩
  | marking appended =>
      rw [hphase] at h
      exact ⟨(hlock h.1).1, hsub h.2⟩
  | releasing result =>
      rw [hphase] at h
      exact ⟨(hlock h.1).1, h.2.mono hsub⟩
  | returned result =>
      rw [hphase] at h
      exact h.mono hsub

theorem Sound.update (h : Sound serde s) (c : Nat) (call' : Call)
    (hcalls : s'.calls = Function.update s.calls c (some call'))
    (htext : ∃ text, s'.stream = encodeUtf8 text ∧ Written serde (Lines.of '\n' text))
    (honce : (observedKeys serde s'.stream).Nodup)
    (hmarker : ∀ m ∈ s'.markers, ∃ key ∈ observedKeys serde s'.stream, m = encodeObservedKey key)
    (hsub : observedKeys serde s.stream ⊆ observedKeys serde s'.stream)
    (hlock : ∀ d, d ≠ c → s.lock = some d →
      s'.lock = some d ∧ observedKeys serde s'.stream = observedKeys serde s.stream)
    (hlawful : serde.LawfulAt call'.line)
    (hcall : CallOk (observedKeys serde s'.stream) s'.lock c call') : Sound serde s' where
  text := htext
  once := honce
  marker := hmarker
  lawful d other hother := by
    rw [hcalls] at hother
    by_cases hd : d = c
    · subst hd
      rw [Function.update_self] at hother
      cases hother
      exact hlawful
    · rw [Function.update_of_ne hd] at hother
      exact h.lawful d other hother
  call d other hother := by
    rw [hcalls] at hother
    by_cases hd : d = c
    · subst hd
      rw [Function.update_self] at hother
      cases hother
      exact hcall
    · rw [Function.update_of_ne hd] at hother
      exact (h.call d other hother).frame hsub (hlock d hd)

theorem Sound.setPhase (h : Sound serde s) (hlawful : serde.LawfulAt call.line) {phase : Phase}
    (hcall : CallOk (observedKeys serde s.stream) s.lock c { call with phase }) :
    Sound serde (s.setPhase c call phase) :=
  h.update c { call with phase } rfl h.text h.once h.marker (List.Subset.refl _)
    (fun _ _ hlock => ⟨hlock, rfl⟩) hlawful hcall

theorem Sound.scan (h : Sound serde s) (hlawful : serde.LawfulAt call.line)
    (hlock : s.lock = some c) {text : List Char} (htext : decodeUtf8 s.stream = some text) :
    Sound serde (if observedLineInText serde call.key text then s.setPhase c call (.marking false)
      else s.setPhase c call .appending) := by
  have hkeys : observedKeys serde s.stream = keysOfLines serde (Lines.of '\n' text).terminated := by
    rw [observedKeys, htext]
  split
  next hfound =>
    refine h.setPhase hlawful ⟨hlock, ?_⟩
    rw [hkeys]
    exact observedLineInText_iff.mp hfound
  next hnot =>
    refine h.setPhase hlawful ⟨hlock, ?_⟩
    rw [hkeys]
    exact fun hmem => hnot (observedLineInText_iff.mpr hmem)

theorem Sound.keys_append (h : Sound serde s) (hreads : ReadsBrackets serde)
    (hlawful : serde.LawfulAt call.line) :
    (∃ text, s.stream ++ encodeUtf8 (selfDelimited serde call.line) = encodeUtf8 text ∧
      Written serde (Lines.of '\n' text)) ∧
    observedKeys serde (s.stream ++ encodeUtf8 (selfDelimited serde call.line)) =
      observedKeys serde s.stream ++ [call.key] := by
  obtain ⟨text, hstream, hwritten⟩ := h.text
  obtain ⟨hwritten', hkeys⟩ := hwritten.append_observed hreads hlawful
  rw [hstream, ← encodeUtf8_append]
  refine ⟨⟨_, rfl, ?_⟩, ?_⟩
  · rw [Lines.of_append]
    exact hwritten'
  · rw [observedKeys_encodeUtf8, observedKeys_encodeUtf8, Lines.of_append]
    exact hkeys

theorem Sound.append (h : Sound serde s) (hreads : ReadsBrackets serde)
    (hlawful : serde.LawfulAt call.line) (hlock : s.lock = some c)
    (hnew : call.key ∉ observedKeys serde s.stream) :
    Sound serde { s.setPhase c call (.marking true) with
      stream := s.stream ++ encodeUtf8 (selfDelimited serde call.line) } := by
  obtain ⟨htext, hkeys⟩ := h.keys_append hreads hlawful
  refine h.update c { call with phase := .marking true } rfl htext ?_ ?_ ?_ ?_ hlawful ?_
  · change (observedKeys serde (s.stream ++ encodeUtf8 (selfDelimited serde call.line))).Nodup
    rw [hkeys, List.nodup_append]
    refine ⟨h.once, List.pairwise_singleton _ _, ?_⟩
    rintro key hkey other hother rfl
    exact hnew (List.mem_singleton.mp hother ▸ hkey)
  · intro m hm
    obtain ⟨key, hkey, rfl⟩ := h.marker m hm
    exact ⟨key, by rw [hkeys]; exact List.mem_append_left _ hkey, rfl⟩
  · intro key hkey
    change key ∈ observedKeys serde (s.stream ++ encodeUtf8 (selfDelimited serde call.line))
    rw [hkeys]
    exact List.mem_append_left _ hkey
  · intro d hd hother
    rw [hlock] at hother
    exact absurd (Option.some.inj hother).symm hd
  · refine ⟨hlock, ?_⟩
    change call.key ∈ observedKeys serde (s.stream ++ encodeUtf8 (selfDelimited serde call.line))
    rw [hkeys]
    exact List.mem_append_right _ (List.mem_singleton_self _)

theorem Sound.setLock (h : Sound serde s) (hlawful : serde.LawfulAt call.line) {phase : Phase}
    {lock : Option Nat} (hfree : s.lock = none ∨ s.lock = some c)
    (hcall : CallOk (observedKeys serde s.stream) lock c { call with phase }) :
    Sound serde { s.setPhase c call phase with lock } := by
  refine h.update c { call with phase } rfl h.text h.once h.marker (List.Subset.refl _) ?_ hlawful
    hcall
  intro d hd hother
  rcases hfree with hfree | hfree
  · rw [hfree] at hother
    cases hother
  · rw [hfree] at hother
    exact absurd (Option.some.inj hother).symm hd

theorem Sound.mark (h : Sound serde s) (hlawful : serde.LawfulAt call.line) {appended : Bool}
    (hlock : s.lock = some c) (hkey : call.key ∈ observedKeys serde s.stream) :
    Sound serde { s.setPhase c call (.releasing (.ok appended)) with
      markers := s.markers.insert (encodeObservedKey call.key) } := by
  refine h.update c { call with phase := .releasing (.ok appended) } rfl h.text h.once ?_
    (List.Subset.refl _) (fun _ _ hother => ⟨hother, rfl⟩) hlawful ⟨hlock, hkey⟩
  intro m hm
  rcases List.mem_insert_iff.mp hm with rfl | hm
  · exact ⟨call.key, hkey, rfl⟩
  · exact h.marker m hm

theorem Sound.advance (h : Sound serde s) (hreads : ReadsBrackets serde)
    (hc : s.calls c = some call) {fault : Option Fault}
    (hstep : s.advance serde c call fault = some s') : Sound serde s' := by
  have hlawful := h.lawful c call hc
  have hok := h.call c call hc
  unfold CallOk at hok
  cases hphase : call.phase with
  | checking =>
      cases fault with
      | none =>
          simp only [Observers.advance, hphase] at hstep
          split at hstep
          next hmarker =>
            cases hstep
            -- the marker is of no other key
            obtain ⟨key, hkey, heq⟩ := h.marker _ hmarker
            cases encodeObservedKey_injective heq
            exact h.setPhase hlawful hkey
          next =>
            cases hstep
            exact h.setPhase hlawful trivial
      | some f =>
          simp only [Observers.advance, hphase] at hstep
          cases hstep
          exact h.setPhase hlawful trivial
  | locking =>
      cases fault with
      | none =>
          simp only [Observers.advance, hphase] at hstep
          split at hstep
          next hfree =>
            cases hstep
            exact h.setLock hlawful (.inl (Option.isNone_iff_eq_none.mp hfree)) rfl
          next =>
            cases hstep
            exact h
      | some f =>
          simp only [Observers.advance, hphase] at hstep
          split at hstep
          next =>
            cases hstep
            exact h.setPhase hlawful (.inr ⟨f, rfl⟩)
          next => cases hstep
  | scanning =>
      rw [hphase] at hok
      cases fault with
      | none =>
          simp only [Observers.advance, hphase] at hstep
          obtain ⟨text, hstream, -⟩ := h.text
          have htext : decodeUtf8 s.stream = some text := by rw [hstream, decodeUtf8_encodeUtf8]
          rw [htext] at hstep
          simp only [← apply_ite some] at hstep
          cases hstep
          exact h.scan hlawful hok htext
      | some f =>
          cases f <;> simp only [Observers.advance, hphase, reduceCtorEq] at hstep
          cases hstep
          exact h.setPhase hlawful ⟨hok, .inr ⟨.read, rfl⟩⟩
  | appending =>
      rw [hphase] at hok
      cases fault with
      | none =>
          simp only [Observers.advance, hphase] at hstep
          cases hstep
          exact h.append hreads hlawful hok.1 hok.2
      | some f =>
          simp only [Observers.advance, hphase] at hstep
          split at hstep
          next =>
            cases hstep
            exact h.setPhase hlawful ⟨hok.1, .inr ⟨f, rfl⟩⟩
          next => cases hstep
  | marking appended =>
      rw [hphase] at hok
      cases fault with
      | none =>
          simp only [Observers.advance, hphase] at hstep
          cases hstep
          exact h.mark hlawful hok.1 hok.2
      | some f =>
          simp only [Observers.advance, hphase] at hstep
          cases hstep
          exact h.setPhase hlawful ⟨hok.1, hok.2⟩
  | releasing result =>
      rw [hphase] at hok
      cases fault with
      | none =>
          simp only [Observers.advance, hphase] at hstep
          cases hstep
          exact h.setLock hlawful (.inr hok.1) hok.2
      | some f => simp [Observers.advance, hphase] at hstep
  | returned result => simp [Observers.advance, hphase] at hstep
  | crashed => simp [Observers.advance, hphase] at hstep

theorem Sound.crash (h : Sound serde s) (hc : s.calls c = some call)
    (hstep : s.crash c call = some s') : Sound serde s' := by
  have hlawful := h.lawful c call hc
  unfold Observers.crash at hstep
  split at hstep
  · cases hstep
  · cases hstep
  · cases hstep
    by_cases hlock : s.lock = some c
    · rw [if_pos hlock]
      exact h.setLock hlawful (.inr hlock) trivial
    · rw [if_neg hlock]
      exact h.setPhase hlawful trivial

theorem Sound.unlocked (h : Sound serde s) (hreads : ReadsBrackets serde) {line : UnlockedLine}
    {bytes : Nat} (hprints : PrintsAt serde line)
    (hcut : charBoundary (lineBytes serde line) bytes = true) :
    Sound serde { s with stream := s.stream ++ (lineBytes serde line).take bytes } := by
  obtain ⟨text, hstream, hwritten⟩ := h.text
  obtain ⟨p, hp, htake⟩ := exists_prefix_of_charBoundary hcut
  have hbytes : (lineBytes serde line).take bytes = encodeUtf8 p := htake
  obtain ⟨hwritten', hkeys⟩ := hwritten.append_unlocked hreads hprints hp
  have hstream' : s.stream ++ (lineBytes serde line).take bytes = encodeUtf8 (text ++ p) := by
    rw [hstream, hbytes, encodeUtf8_append]
  have hsame : observedKeys serde (s.stream ++ (lineBytes serde line).take bytes) =
      observedKeys serde s.stream := by
    rw [hstream', hstream, observedKeys_encodeUtf8, observedKeys_encodeUtf8, Lines.of_append]
    exact hkeys
  refine ⟨⟨text ++ p, hstream', ?_⟩, ?_, ?_, h.lawful, ?_⟩
  · rw [Lines.of_append]
    exact hwritten'
  · rw [hsame]
    exact h.once
  · rw [hsame]
    exact h.marker
  · rw [hsame]
    exact h.call

theorem Sound.step (h : Sound serde s) (hreads : ReadsBrackets serde) {act : Act}
    (hlawful : LawfulAct serde act) (hcut : cutsWhole serde act = true)
    (hstep : s.step serde act = some s') : Sound serde s' := by
  cases act with
  | call c call =>
      rw [Observers.step] at hstep
      split at hstep
      · cases hstep
      · split at hstep
        next hempty =>
          cases hstep
          exact h.setPhase hlawful (.inl ⟨rfl, hempty⟩)
        next =>
          cases hstep
          exact h.setPhase hlawful trivial
  | advance c fault =>
      obtain ⟨call, hc, hstep⟩ := Option.bind_eq_some_iff.mp hstep
      exact h.advance hreads hc hstep
  | crash c =>
      obtain ⟨call, hc, hstep⟩ := Option.bind_eq_some_iff.mp hstep
      exact h.crash hc hstep
  | unlocked line bytes =>
      cases hstep
      exact h.unlocked hreads hlawful hcut

/-! ### Runs -/

theorem Sound.run? (h : Sound serde s) (hreads : ReadsBrackets serde) {acts : List Act}
    (hlawful : ∀ act ∈ acts, LawfulAct serde act)
    (hcut : ∀ act ∈ acts, cutsWhole serde act = true)
    (hrun : s.run? serde acts = some s') : Sound serde s' := by
  have hsteps : Ensures (acts.foldlM (Observers.step serde) s) (Sound serde) :=
    Ensures.foldlM h fun _ act hact hsound _ hstep =>
      hsound.step hreads (hlawful act hact) (hcut act hact) hstep
  exact hsteps s' hrun

theorem Sound.run?_alone (h : Sound serde s) (hc : s.calls c = none) (hlock : s.lock = none)
    (hcomplete : call.key.incomplete = false) (hnew : call.key ∉ observedKeys serde s.stream) :
    ∃ s', s.run? serde (.call c call :: List.replicate 6 (.advance c none)) = some s' ∧
      ∃ call', s'.calls c = some call' ∧ call'.phase = .returned (.ok true) := by
  obtain ⟨text, hstream, -⟩ := h.text
  have htext : decodeUtf8 s.stream = some text := by rw [hstream, decodeUtf8_encodeUtf8]
  have hmarker : encodeObservedKey call.key ∉ s.markers := by
    intro hmem
    obtain ⟨key, hkey, heq⟩ := h.marker _ hmem
    exact hnew (encodeObservedKey_injective heq ▸ hkey)
  have hscan : observedLineInText serde call.key text = false := by
    rw [observedKeys, htext] at hnew
    exact Bool.eq_false_iff.mpr fun hfound => hnew (observedLineInText_iff.mp hfound)
  simp [Observers.run?, List.replicate, Observers.step, hc, hcomplete, Observers.advance,
    Observers.setPhase, hmarker, hlock, htext, hscan]

theorem Sound.records (h : Sound serde s) : Records serde s where
  once := h.once
  returned c call b hc hphase := by
    have hok := h.call c call hc
    unfold CallOk at hok
    rw [hphase] at hok
    exact hok
  marker key hkey := by
    obtain ⟨key', hkey', heq⟩ := h.marker _ hkey
    exact encodeObservedKey_injective heq ▸ hkey'
  failed c call e hc hphase := by
    have hok := h.call c call hc
    unfold CallOk at hok
    rw [hphase] at hok
    exact hok
  recordable _ _ hc hlock hcomplete hnew := h.run?_alone hc hlock hcomplete hnew

/-- **Record once.** However calls interleave and die, with writes that take no lock and are
cut off anywhere but within a character, a key is recorded once, and it is recorded where a
call or a marker says so; a key that is not recorded stays recordable. -/
theorem run?_records {acts : List Act} (hreads : ReadsBrackets serde)
    (hlawful : ∀ act ∈ acts, LawfulAct serde act)
    (hcut : ∀ act ∈ acts, cutsWhole serde act = true)
    (hrun : run? serde {} acts = some s) : Records serde s :=
  (sound_empty.run? hreads hlawful hcut hrun).records

def accentMark : UnlockedLine := .mark "t" "s" [("k", .str "é")]

def discovery : Call := { key := { host := "h", harness := "pi", sessionId := "s" }, ts := "t" }

def accentSerde : SerdeJson := .knowing [accentMark.value, discovery.line]

theorem accentSerde_readsBrackets : ReadsBrackets accentSerde := by
  intro cs v h
  have htext : encodeUtf8 v.compact = encodeUtf8 ('\x7b' :: cs) := by
    simpa using List.find?_some h
  rw [← encodeUtf8_injective htext]
  have hmem := List.mem_of_find?_eq_some h
  simp only [List.mem_cons, List.not_mem_nil, or_false] at hmem
  rcases hmem with rfl | rfl <;> decide

theorem accentSerde_lawful {j : Json} (hj : j = accentMark.value ∨ j = discovery.line) :
    accentSerde.LawfulAt j := by
  obtain ⟨hmark, hline⟩ : accentSerde.LawfulAt _ ∧ accentSerde.LawfulAt _ :=
    SerdeJson.lawfulAt_knowing_pair (by decide) (by decide) (by decide) (by decide)
  rcases hj with rfl | rfl
  · exact hmark
  · exact hline

theorem accentMark_prints : PrintsAt accentSerde accentMark where
  lawful := accentSerde_lawful (.inl rfl)
  compact := rfl
  printable := by
    refine .obj ?_
    intro entry hentry
    simp only [List.mem_cons, List.not_mem_nil, or_false] at hentry
    rcases hentry with rfl | rfl | rfl
    · exact .str _
    · exact .str _
    · refine .obj ?_
      intro entry hentry
      rw [List.mem_singleton.mp hentry]
      exact .str _

/-- The mark is cut off after some bytes, and the session is recorded by a call. -/
def accentRun (bytes steps : Nat) : List Act :=
  .unlocked accentMark bytes :: .call 0 discovery :: List.replicate steps (.advance 0 none)

theorem accentRun_lawful (bytes steps : Nat) :
    ∀ act ∈ accentRun bytes steps, LawfulAct accentSerde act := by
  intro act hact
  simp only [accentRun, List.mem_cons, List.mem_replicate] at hact
  rcases hact with rfl | rfl | ⟨-, rfl⟩
  · exact accentMark_prints
  · exact accentSerde_lawful (.inr rfl)
  · trivial

/-- The mark is cut off behind the accent. -/
theorem run?_records_accent :
    ∃ s, run? accentSerde {} (accentRun 44 6) = some s ∧ Records accentSerde s := by
  have hrun : (run? accentSerde {} (accentRun 44 6)).isSome := by decide
  have hcut : ∀ act ∈ accentRun 44 6, cutsWhole accentSerde act = true := by decide
  obtain ⟨s, hs⟩ := Option.isSome_iff_exists.mp hrun
  exact ⟨s, hs, run?_records accentSerde_readsBrackets (accentRun_lawful 44 6) hcut hs⟩

/-- **Cut off within the accent, the mark leaves a stream that no call reads.** Nothing fails,
and the session is not recorded. -/
theorem splitAccent_not_records :
    ReadsBrackets accentSerde ∧ (∀ act ∈ accentRun 43 4, LawfulAct accentSerde act) ∧
      ∃ s, run? accentSerde {} (accentRun 43 4) = some s ∧ ¬Records accentSerde s := by
  have hrun : (run? accentSerde {} (accentRun 43 4)).map (fun s => (s.calls 0).map Call.phase) =
      some (some (.returned (.error .notUtf8))) := by decide
  refine ⟨accentSerde_readsBrackets, accentRun_lawful 43 4, ?_⟩
  obtain ⟨s, hs, hcall⟩ := Option.map_eq_some_iff.mp hrun
  obtain ⟨call, hc, hphase⟩ := Option.map_eq_some_iff.mp hcall
  refine ⟨s, hs, fun hrecords => ?_⟩
  rcases hrecords.failed 0 call .notUtf8 hc hphase with ⟨heq, -⟩ | ⟨f, heq⟩
  · cases heq
  · cases heq

end Observers

end QuorumDispatch.Telemetry
