import QuorumDispatch.DeliveryEvents.Merged

/-!
Recovery verdicts of a dangling send, appended by several processes.

`emit_recovery_verdict` takes an exclusive lock on the events file of its own
writer, reads both files of the session again, and appends its terminal only if
there is none yet. The lock makes the re-check and the append one step for
callers of the same file. A caller whose writer is keyed by the session and one
whose writer is keyed by name lock different files and both get through.
-/

namespace QuorumDispatch.DeliveryEvents

open Lib

inductive RecoveryVerdict where
  | anchored (anchor : Anchor) (attribution : String)
  | truncated (expectedLen actualLen : UInt64) (actualSha attribution : String)
  | abandoned (attribution : String)
  | sourceUnavailable
  | emptyWindow
  | unattributable
  | receiptClosed (sendPath : String)
deriving DecidableEq, Repr

/-- `recovery_event`. -/
def recoveryEvent (sendId contentSha256 : String) : RecoveryVerdict → Option Payload
  | .anchored anchor attribution =>
      some (.turnAnchored sendId contentSha256 anchor true (some attribution))
  | .truncated expectedLen actualLen actualSha attribution =>
      some (.turnAnchoredMismatch sendId contentSha256 actualSha expectedLen actualLen true
        (some attribution))
  | .abandoned attribution =>
      some (.pendingAbandoned sendId "recovery-no-candidate" (some true) (some attribution))
  | .unattributable => some (.pendingAbandoned sendId "recovery-unattributable" none none)
  | .sourceUnavailable | .emptyWindow | .receiptClosed _ => none

def parseAnchor (v : Json) : Option Anchor := do
  let transcript ← v.strField "transcript"
  let startOffset ← v.u64Field "start_offset"
  let lineIndex ← v.u64Field "line_index"
  return { transcript, startOffset := .ofNat startOffset, lineIndex := .ofNat lineIndex }

/-- `verdict_from_terminal`. -/
def verdictFromTerminal (r : EventRecord) : RecoveryVerdict :=
  let obj := Json.obj r.obj
  let attribution := (obj.strField "attribution").getD ""
  if r.event = "turn-anchored" then
    .anchored (((obj.get "anchor").bind parseAnchor).getD ⟨"", 0, 0⟩) attribution
  else if r.event = "turn-anchored-mismatch" then
    .truncated (.ofNat ((obj.u64Field "expected_len").getD 0))
      (.ofNat ((obj.u64Field "actual_len").getD 0)) ((obj.strField "actual_sha").getD "")
      attribution
  else if r.event = "send-failed" then .abandoned ""
  else .abandoned attribution

/-- The verdict that others read off the terminal of a verdict: that a search was not
possible is not told apart from an abandoned one. -/
def RecoveryVerdict.reported : RecoveryVerdict → RecoveryVerdict
  | .unattributable => .abandoned ""
  | v => v

/-! ### The terminal of a verdict reads back as the verdict -/

theorem getD_filter_isEmpty (s : String) : ((some s).filter (!·.isEmpty)).getD "" = s := by
  cases h : s.isEmpty with
  | true =>
      rw [String.isEmpty_iff.mp h]
      rfl
  | false => simp [Option.filter, h]

theorem strField_of_get {j : Json} {key s : String} (h : j.get key = some (.str s)) :
    j.strField key = some s := by
  rw [Json.strField, h]
  rfl

theorem u64Field_of_get {j : Json} {key : String} {n : UInt64} (h : j.get key = some (u64 n)) :
    j.u64Field key = some n.toNat := by
  rw [Json.u64Field, h, Option.bind_some, asU64_u64]

theorem getD_strField_optStr {xs : List (String × Json)} {key : String} (s : String)
    (h : (Json.obj xs).get key = none) :
    ((Json.obj (xs ++ optStr key (some s))).strField key).getD "" = s := by
  have hget : (Json.obj (xs ++ optStr key (some s))).get key =
      ((some s).filter (!·.isEmpty)).map Json.str := by
    rw [Json.get_obj_append, h, optStr, get_optField]
    simp
  rw [Json.strField, hget]
  calc _ = ((some s).filter (!·.isEmpty)).getD "" := by
        cases (some s).filter (!·.isEmpty) <;> rfl
    _ = s := getD_filter_isEmpty s

theorem parseAnchor_anchorValue (a : Anchor) : parseAnchor (anchorValue a) = some a := by
  have htranscript : (anchorValue a).strField "transcript" = some a.transcript :=
    strField_of_get (by simp [anchorValue, Json.get_obj_cons])
  have hoffset : (anchorValue a).u64Field "start_offset" = some a.startOffset.toNat :=
    u64Field_of_get (by simp [anchorValue, Json.get_obj_cons])
  have hindex : (anchorValue a).u64Field "line_index" = some a.lineIndex.toNat :=
    u64Field_of_get (by simp [anchorValue, Json.get_obj_cons])
  simp only [parseAnchor, htranscript, hoffset, hindex, Option.bind_eq_bind, Option.bind_some,
    UInt64.ofNat_toNat]
  rfl

variable {serde : SerdeJson} {e : Emission}

theorem written_of_recoveryEvent {sendId sha : String} {v : RecoveryVerdict}
    (h : recoveryEvent sendId sha v = some e.payload) : e.written serde = e.payload := by
  unfold Emission.written
  split
  · cases v <;> simp only [recoveryEvent, Option.some.injEq, reduceCtorEq] at h
    all_goals rw [← h]; rfl
  · rfl

theorem get_record_of_entries {r : EventRecord} {env : Envelope} {p : Payload} {shaCap : Nat}
    (hobj : r.obj = recordEntries env p shaCap) {key : String} {v : Option Json}
    (hkey : key ∉ envelopeKeys) (h : (Json.obj (p.entries shaCap)).get key = v) :
    (Json.obj r.obj).get key = v := by
  rw [hobj, get_recordEntries_payload _ _ _ hkey, h]

theorem attribution_of_entries {r : EventRecord} {env : Envelope} {p : Payload} {shaCap : Nat}
    (hobj : r.obj = recordEntries env p shaCap) {xs : List (String × Json)}
    {attribution : String} (h : p.entries shaCap = xs ++ optStr "attribution" (some attribution))
    (hxs : (Json.obj xs).get "attribution" = none) :
    ((Json.obj r.obj).strField "attribution").getD "" = attribution := by
  rw [Json.strField, hobj, get_recordEntries_payload _ _ _ (by decide), h, ← Json.strField]
  exact getD_strField_optStr attribution hxs

section

variable {r : EventRecord} {env : Envelope} {shaCap : Nat} {sendId sha attribution : String}

theorem verdictFromTerminal_turnAnchored {anchor : Anchor}
    (hobj : r.obj = recordEntries env
      (.turnAnchored sendId sha anchor true (some attribution)) shaCap)
    (hevent : r.event = "turn-anchored") :
    verdictFromTerminal r = .anchored anchor attribution := by
  have hattribution := attribution_of_entries hobj rfl
    (by simp [optTrue, Json.get_obj_cons])
  have hanchor : (Json.obj r.obj).get "anchor" = some (anchorValue anchor) :=
    get_record_of_entries hobj (by decide)
      (by simp [Payload.entries, optTrue, optStr, Json.get_obj_append, Json.get_obj_cons])
  have hparsed : ((Json.obj r.obj).get "anchor").bind parseAnchor = some anchor := by
    rw [hanchor, Option.bind_some, parseAnchor_anchorValue]
  simp only [verdictFromTerminal, if_pos hevent, hattribution, hparsed, Option.getD_some]

theorem verdictFromTerminal_turnAnchoredMismatch {expectedLen actualLen : UInt64}
    {actualSha : String}
    (hobj : r.obj = recordEntries env (.turnAnchoredMismatch sendId sha actualSha expectedLen
      actualLen true (some attribution)) shaCap)
    (hevent : r.event = "turn-anchored-mismatch") :
    verdictFromTerminal r = .truncated expectedLen actualLen actualSha attribution := by
  have hattribution := attribution_of_entries hobj rfl
    (by simp [optTrue, Json.get_obj_cons])
  have hexpected : (Json.obj r.obj).u64Field "expected_len" = some expectedLen.toNat :=
    u64Field_of_get (get_record_of_entries hobj (by decide)
      (by simp [Payload.entries, optTrue, optStr, Json.get_obj_append, Json.get_obj_cons]))
  have hactual : (Json.obj r.obj).u64Field "actual_len" = some actualLen.toNat :=
    u64Field_of_get (get_record_of_entries hobj (by decide)
      (by simp [Payload.entries, optTrue, optStr, Json.get_obj_append, Json.get_obj_cons]))
  have hsha : (Json.obj r.obj).strField "actual_sha" = some actualSha :=
    strField_of_get (get_record_of_entries hobj (by decide)
      (by simp [Payload.entries, optTrue, optStr, Json.get_obj_append, Json.get_obj_cons]))
  have hne : ¬ r.event = "turn-anchored" := by simp [hevent]
  simp only [verdictFromTerminal, hne, if_false, if_pos hevent, hattribution, hexpected, hactual,
    hsha, Option.getD_some, UInt64.ofNat_toNat]

theorem verdictFromTerminal_pendingAbandoned {reason : String} {recovered : Option Bool}
    {attribution : Option String}
    (hobj : r.obj = recordEntries env
      (.pendingAbandoned sendId reason recovered attribution) shaCap)
    (hevent : r.event = "pending-abandoned") :
    verdictFromTerminal r = .abandoned (attribution.getD "") := by
  have hattribution : ((Json.obj r.obj).strField "attribution").getD "" =
      attribution.getD "" := by
    cases attribution with
    | some attribution =>
        exact attribution_of_entries hobj rfl (by simp [optTrue, Json.get_obj_cons])
    | none =>
        have hnone : (Json.obj r.obj).get "attribution" = none :=
          get_record_of_entries hobj (by decide)
            (by simp [Payload.entries, optTrue, optStr, Json.get_obj_append, Json.get_obj_cons])
        rw [Json.strField, hnone]
        rfl
  simp only [verdictFromTerminal, hevent, hattribution]
  simp

end

theorem verdictFromTerminal_record {sendId sha : String} {v : RecoveryVerdict}
    (h : recoveryEvent sendId sha v = some e.payload) :
    verdictFromTerminal (e.record serde) = v.reported := by
  have hobj : (e.record serde).obj = recordEntries e.env e.payload (e.shaCap serde) := by
    simp only [Emission.record, Emission.entries, written_of_recoveryEvent h]
  have hevent : (e.record serde).event = e.payload.eventName := rfl
  cases v <;> simp only [recoveryEvent, Option.some.injEq, reduceCtorEq] at h
  all_goals rw [← h] at hobj hevent
  case anchored => exact verdictFromTerminal_turnAnchored hobj hevent
  case truncated => exact verdictFromTerminal_turnAnchoredMismatch hobj hevent
  case abandoned => exact verdictFromTerminal_pendingAbandoned hobj hevent
  case unattributable => exact verdictFromTerminal_pendingAbandoned hobj hevent

/-! ### Calls of several processes -/

inductive RecoverPc where
  | lock
  | check
  | emit
deriving DecidableEq, Repr

/-- A call of `emit_recovery_verdict`: the events file of its writer, the hash in its
`send-initiated` record and the verdict of its own `recovery_read`. -/
structure RecoverCall where
  key : String
  contentSha256 : String
  verdict : RecoveryVerdict
  pc : RecoverPc := .lock
deriving DecidableEq, Repr

/-- What the system answers at a step: whether the lock file could be opened and
locked, and for the append the envelopes and how many bytes got out. -/
structure RecoverAnswer where
  lockOk : Bool := true
  env : Envelope := { ts := "", pid := 0, seq := 0 }
  cut : Nat := 0
  markerEnv : Envelope := { ts := "", pid := 0, seq := 0 }
  markerCut : Nat := 0
deriving DecidableEq, Repr

/-- The call of `emit` that a recovery makes. -/
def recoverEmission (a : RecoverAnswer) (payload : Payload) : Emission where
  writer := .engine
  env := a.env
  payload := payload
  cut := a.cut
  markerEnv := a.markerEnv
  markerCut := a.markerCut

/-- What the calls did, in order; `landed` tells whether bytes of the terminal got
out, and a call that returned an error has no result. -/
inductive RecoverEntry where
  | emitted (verdict : RecoveryVerdict) (emission : Emission) (landed : Bool)
  | returned (result : Option RecoveryVerdict)

/-- The files, the holders of the locks on them, and the calls by process. -/
structure Recovering where
  files : Files := fun _ => []
  holder : String → Option Nat := fun _ => none
  calls : Nat → Option RecoverCall := fun _ => none
  log : List RecoverEntry := []

namespace Recovering

def goto (s : Recovering) (i : Nat) (c : RecoverCall) : Recovering :=
  { s with calls := Function.update s.calls i (some c) }

def finish (s : Recovering) (i : Nat) (result : Option RecoveryVerdict) : Recovering :=
  { s with calls := Function.update s.calls i none, log := s.log ++ [RecoverEntry.returned result] }

def release (s : Recovering) (key : String) : Recovering :=
  { s with holder := Function.update s.holder key none }

/-- The writer's `emit`. -/
def append (serde : SerdeJson) (s : Recovering) (c : RecoverCall) (e : Emission) : Recovering :=
  { s with
    files := Function.update s.files c.key (e.emit serde (s.files c.key))
    log := s.log ++ [RecoverEntry.emitted c.verdict e (e.admitted (s.files c.key) && decide (0 < e.cut))] }

end Recovering

section

variable (serde : SerdeJson) (sessionId name : Option String) (sendId : String)

/-- One step of `emit_recovery_verdict`. A process whose lock is held waits. -/
def recoverStep (s : Recovering) (i : Nat) (c : RecoverCall) (a : RecoverAnswer) : Recovering :=
  match c.pc with
  | .lock =>
      if !a.lockOk then s.finish i none
      else
        match s.holder c.key with
        | none => { s with holder := Function.update s.holder c.key (some i) }.goto i
            { c with pc := .check }
        | some _ => s
  | .check =>
      match verdictFor serde s.files sessionId name sendId with
      | some existing => (s.finish i (some (verdictFromTerminal existing))).release c.key
      | none => s.goto i { c with pc := .emit }
  | .emit =>
      match recoveryEvent sendId c.contentSha256 c.verdict with
      | none => (s.finish i (some c.verdict)).release c.key
      | some payload =>
          let e := recoverEmission a payload
          ((s.append serde c e).finish i
            (if e.Ok serde (s.files c.key) then some c.verdict else none)).release c.key

inductive RecoverEvent where
  | start (i : Nat) (key contentSha256 : String) (verdict : RecoveryVerdict)
  | step (i : Nat) (answer : RecoverAnswer)
  /-- The process dies; the system drops its lock. -/
  | crash (i : Nat)

def recoverNext (s : Recovering) : RecoverEvent → Recovering
  | .start i key contentSha256 verdict =>
      match s.calls i with
      | none => s.goto i { key, contentSha256, verdict }
      | some _ => s
  | .step i a =>
      match s.calls i with
      | some c => recoverStep serde sessionId name sendId s i c a
      | none => s
  | .crash i =>
      match s.calls i with
      | some c =>
          { s with
            calls := Function.update s.calls i none
            holder := if s.holder c.key = some i then Function.update s.holder c.key none
              else s.holder }
      | none => s

end

/-! ### What is claimed of the calls, and under which condition -/

/-- The terminals that got out, with the verdicts that they are of. -/
def landedOf (log : List RecoverEntry) : List (RecoveryVerdict × Emission) :=
  log.filterMap fun
    | .emitted v e true => some (v, e)
    | _ => none

/-- A verdict that is returned behind a terminal is that of the terminal. -/
def ReportsAfter (past : List RecoverEntry) : RecoverEntry → Prop
  | .returned (some v) => ∀ m ∈ landedOf past, v.reported = m.1.reported
  | _ => True

/-- Only verdicts with a terminal are emitted, as their terminal. -/
def EmitsOwn (sendId : String) : RecoverEntry → Prop
  | .emitted v e _ => ∃ sha, recoveryEvent sendId sha v = some e.payload
  | .returned _ => True

structure OneRecoveryTerminal (sendId : String) (log : List RecoverEntry) : Prop where
  once : (landedOf log).length ≤ 1
  reports : EachAfter ReportsAfter log
  own : ∀ entry ∈ log, EmitsOwn sendId entry

/-- The JSON library behaves at the objects that a step writes. -/
def LawfulRecover (serde : SerdeJson) (sendId : String) (s : Recovering) : RecoverEvent → Prop
  | .step i a => ∀ c ∈ s.calls i, c.pc = .emit →
      ∀ payload ∈ recoveryEvent sendId c.contentSha256 c.verdict,
        Lawful serde (recoverEmission a payload)
  | _ => True

/-- The condition on a step: every call locks the one file, and every append finds
that file readable and on a line boundary and puts down its whole line or nothing. -/
def CleanRecover (serde : SerdeJson) (sendId key : String) (s : Recovering) :
    RecoverEvent → Prop
  | .start _ key' _ _ => key' = key
  | .step i a => ∀ c ∈ s.calls i, c.pc = .emit →
      ∀ payload ∈ recoveryEvent sendId c.contentSha256 c.verdict,
        Clean serde (s.files key) (recoverEmission a payload) ∧
          (decodeUtf8 (s.files key)).isSome = true ∧
          (a.cut = 0 ∨ Whole ((recoverEmission a payload).line serde) a.cut)
  | .crash _ => True

/-! ### What one append does to the verdict -/

theorem isTerminalFor_of_recoveryEvent {sendId sha : String} {v : RecoveryVerdict} {p : Payload}
    (h : recoveryEvent sendId sha v = some p) :
    p.sendId = some sendId ∧ isTerminal p.eventName = true := by
  cases v <;> simp only [recoveryEvent, Option.some.injEq, reduceCtorEq] at h
  all_goals
    subst h
    exact ⟨rfl, rfl⟩

@[simp] theorem RecoveryVerdict.reported_reported (v : RecoveryVerdict) :
    v.reported.reported = v.reported := by
  cases v <;> rfl

theorem findSome?_eq_some_of_unique {α β : Type} {f : α → Option β} {xs : List α} {x : α} {y : β}
    (hmem : x ∈ xs) (hx : f x = some y) (hother : ∀ x' ∈ xs, x' ≠ x → f x' = none) :
    xs.findSome? f = some y := by
  induction xs with
  | nil => cases hmem
  | cons x' xs ih =>
      rw [List.findSome?_cons]
      by_cases heq : x' = x
      · rw [heq, hx]
      · rw [hother x' (by simp) heq]
        have hmem' : x ∈ xs := by simpa [Ne.symm heq] using hmem
        exact ih hmem' fun z hz => hother z (by simp [hz])

section

variable {sessionId name : Option String} {sendId : String} {files : Files} {key : String}

theorem firstTerminalFor_emit (hlaw : Lawful serde e) (hclean : Clean serde (files key) e)
    (hread : (decodeUtf8 (files key)).isSome = true) (hok : e.Ok serde (files key))
    (hid : e.payload.sendId = some sendId) (hterm : isTerminal e.payload.eventName = true)
    (hnone : fileTerminal serde files sendId key = none) :
    firstTerminalFor (readEvents serde (e.emit serde (files key))).records sendId =
      some (e.record serde) := by
  obtain ⟨text, htext⟩ := Option.isSome_iff_exists.mp hread
  have hreadable := readable_of_clean hlaw hclean htext hok
  rw [hreadable.firstTerminal sendId hid hterm]
  unfold fileTerminal at hnone
  rw [hnone]
  rfl

theorem verdictFor_emit (hkey : key ∈ readerPaths sessionId name) (hlaw : Lawful serde e)
    (hclean : Clean serde (files key) e) (hread : (decodeUtf8 (files key)).isSome = true)
    (hok : e.Ok serde (files key)) (hid : e.payload.sendId = some sendId)
    (hterm : isTerminal e.payload.eventName = true)
    (hnone : verdictFor serde files sessionId name sendId = none) :
    verdictFor serde (Function.update files key (e.emit serde (files key))) sessionId name sendId =
      some (e.record serde) := by
  rw [verdictFor_eq] at hnone ⊢
  have hall := List.findSome?_eq_none_iff.mp hnone
  refine findSome?_eq_some_of_unique hkey ?_ ?_
  · unfold fileTerminal
    rw [Function.update_self]
    exact firstTerminalFor_emit hlaw hclean hread hok hid hterm (hall key hkey)
  · intro other hother hne
    unfold fileTerminal
    rw [Function.update_of_ne hne]
    exact hall other hother

end

/-! ### The invariant -/

/-- At most one call is past its lock, the send is dangling as long as a call is about
to emit, and a terminal that got out is the verdict that a reader sees. -/
structure RecoverInv (serde : SerdeJson) (sessionId name : Option String) (sendId key : String)
    (s : Recovering) : Prop where
  keys : ∀ i c, s.calls i = some c → c.key = key
  owner : ∀ i c, s.calls i = some c → c.pc ≠ .lock → s.holder key = some i
  dangling : ∀ i c, s.calls i = some c → c.pc = .emit →
    verdictFor serde s.files sessionId name sendId = none
  landed : landedOf s.log = [] ∨ ∃ v e, landedOf s.log = [(v, e)] ∧
    (∃ sha, recoveryEvent sendId sha v = some e.payload) ∧
    verdictFor serde s.files sessionId name sendId = some (e.record serde)
  reports : EachAfter ReportsAfter s.log
  own : ∀ entry ∈ s.log, EmitsOwn sendId entry

@[simp] theorem landedOf_append (xs ys : List RecoverEntry) :
    landedOf (xs ++ ys) = landedOf xs ++ landedOf ys := by
  simp [landedOf]

@[simp] theorem landedOf_emitted (v : RecoveryVerdict) (e : Emission) (landed : Bool) :
    landedOf [.emitted v e landed] = if landed then [(v, e)] else [] := by
  cases landed <;> rfl

@[simp] theorem landedOf_returned (result : Option RecoveryVerdict) :
    landedOf [.returned result] = [] := rfl

section

variable {sessionId name : Option String} {sendId key : String} {s : Recovering} {i : Nat}
  {c : RecoverCall}

theorem RecoverInv.finish (h : RecoverInv serde sessionId name sendId key s)
    (result : Option RecoveryVerdict)
    (hreport : ∀ v ∈ result, ∀ m ∈ landedOf s.log, v.reported = m.1.reported) :
    RecoverInv serde sessionId name sendId key (s.finish i result) := by
  have hcalls : ∀ j d, (s.finish i result).calls j = some d → s.calls j = some d := by
    intro j d hd
    by_cases hj : j = i
    · subst hj
      simp [Recovering.finish] at hd
    · simpa [Recovering.finish, Function.update_of_ne hj] using hd
  refine ⟨fun j d hd => h.keys j d (hcalls j d hd), fun j d hd => h.owner j d (hcalls j d hd),
    fun j d hd => h.dangling j d (hcalls j d hd), ?_, ?_, ?_⟩
  · simpa [Recovering.finish] using h.landed
  · refine eachAfter_snoc.mpr ⟨h.reports, ?_⟩
    cases result with
    | none => trivial
    | some v => exact hreport v rfl
  · intro entry hentry
    obtain hold | rfl : entry ∈ s.log ∨ entry = .returned result := by
      simpa [Recovering.finish] using hentry
    · exact h.own entry hold
    · trivial

theorem RecoverInv.release (h : RecoverInv serde sessionId name sendId key s) {key' : String}
    (hnone : ∀ j d, s.calls j = some d → d.pc = .lock) :
    RecoverInv serde sessionId name sendId key (s.release key') :=
  ⟨h.keys, fun j d hd hpc => absurd (hnone j d hd) hpc, h.dangling, h.landed, h.reports, h.own⟩

theorem RecoverInv.pc_lock (h : RecoverInv serde sessionId name sendId key s)
    (hc : s.calls i = some c) (hpc : c.pc ≠ .lock) (j : Nat) (d : RecoverCall)
    (hd : Function.update s.calls i none j = some d) : d.pc = .lock := by
  by_cases hj : j = i
  · subst hj
    simp at hd
  · have hd' : s.calls j = some d := by simpa [Function.update_of_ne hj] using hd
    by_contra hlock
    have hi := h.owner i c hc hpc
    rw [h.owner j d hd' hlock] at hi
    exact hj (Option.some.inj hi)

theorem RecoverInv.landed_eq_nil (h : RecoverInv serde sessionId name sendId key s)
    (hnone : verdictFor serde s.files sessionId name sendId = none) : landedOf s.log = [] := by
  obtain hnil | ⟨v, e, -, -, hsome⟩ := h.landed
  · exact hnil
  · rw [hnone] at hsome
    cases hsome

theorem RecoverInv.append (h : RecoverInv serde sessionId name sendId key s)
    (hkey : key ∈ readerPaths sessionId name) (hc : s.calls i = some c) (hpc : c.pc = .emit)
    {sha : String} (hpay : recoveryEvent sendId sha c.verdict = some e.payload)
    (hlaw : Lawful serde e) (hclean : Clean serde (s.files key) e)
    (hread : (decodeUtf8 (s.files key)).isSome = true)
    (hcut : e.cut = 0 ∨ Whole (e.line serde) e.cut) :
    RecoverInv serde sessionId name sendId key
      (((s.append serde c e).finish i
        (if e.Ok serde (s.files key) then some c.verdict else none)).release key) := by
  have hck := h.keys i c hc
  have hnone := h.dangling i c hc hpc
  have hnil := h.landed_eq_nil hnone
  have hlock := h.pc_lock hc (by simp [hpc])
  have hkeys : ∀ j d, Function.update s.calls i none j = some d → d.key = key := by
    intro j d hd
    by_cases hj : j = i
    · subst hj
      simp at hd
    · exact h.keys j d (by simpa [Function.update_of_ne hj] using hd)
  obtain ⟨hid, hterm⟩ := isTerminalFor_of_recoveryEvent hpay
  refine ⟨hkeys, fun j d hd hd' => absurd (hlock j d hd) hd', ?_, ?_, ?_, ?_⟩
  · intro j d hd hd'
    simp [hlock j d hd] at hd'
  · by_cases hok : e.Ok serde (s.files key)
    · have hpos : 0 < e.cut := by
        have hwhole := hok.2
        unfold Whole at hwhole
        omega
      right
      refine ⟨c.verdict, e, ?_, ⟨sha, hpay⟩, ?_⟩
      · simp only [Recovering.release, Recovering.finish, Recovering.append, landedOf_append,
          landedOf_emitted, landedOf_returned, hnil, hck, hok.1, hpos]
        rfl
      · simp only [Recovering.release, Recovering.finish, Recovering.append, hck]
        exact verdictFor_emit hkey hlaw hclean hread hok hid hterm hnone
    · left
      have hnot : (e.admitted (s.files key) && decide (0 < e.cut)) = false := by
        by_contra hland
        simp only [Bool.not_eq_false, Bool.and_eq_true, decide_eq_true_eq] at hland
        obtain hzero | hwhole := hcut
        · omega
        · exact hok ⟨hland.1, hwhole⟩
      simp only [Recovering.release, Recovering.finish, Recovering.append, landedOf_append,
        landedOf_emitted, landedOf_returned, hnil, hck, hnot]
      rfl
  · refine eachAfter_snoc.mpr ⟨eachAfter_snoc.mpr ⟨h.reports, trivial⟩, ?_⟩
    split
    · intro m hm
      have hm' : m ∈ landedOf [.emitted c.verdict e
          (e.admitted (s.files c.key) && decide (0 < e.cut))] := by
        simpa [Recovering.append, hnil] using hm
      rw [landedOf_emitted] at hm'
      split at hm'
      · rw [List.mem_singleton.mp hm']
      · cases hm'
    · trivial
  · intro entry hentry
    have hcases : entry ∈ s.log ∨ (∃ b, entry = .emitted c.verdict e b) ∨
        ∃ result, entry = .returned result := by
      simp only [Recovering.release, Recovering.finish, Recovering.append, List.mem_append,
        List.mem_singleton] at hentry
      obtain (hold | hnew) | hret := hentry
      · exact .inl hold
      · exact .inr (.inl ⟨_, hnew⟩)
      · exact .inr (.inr ⟨_, hret⟩)
    obtain hold | ⟨b, rfl⟩ | ⟨result, rfl⟩ := hcases
    · exact h.own entry hold
    · exact ⟨sha, hpay⟩
    · trivial

theorem RecoverInv.goto (h : RecoverInv serde sessionId name sendId key s)
    (hkey : c.key = key) (howner : c.pc ≠ .lock → s.holder key = some i)
    (hdangling : c.pc = .emit → verdictFor serde s.files sessionId name sendId = none) :
    RecoverInv serde sessionId name sendId key (s.goto i c) := by
  have hcalls : ∀ j d, (s.goto i c).calls j = some d → (j = i ∧ d = c) ∨ s.calls j = some d := by
    intro j d hd
    by_cases hj : j = i
    · subst hj
      exact .inl ⟨rfl, by simpa [Recovering.goto] using hd.symm⟩
    · exact .inr (by simpa [Recovering.goto, Function.update_of_ne hj] using hd)
  refine ⟨?_, ?_, ?_, h.landed, h.reports, h.own⟩
  · intro j d hd
    obtain ⟨-, rfl⟩ | hold := hcalls j d hd
    · exact hkey
    · exact h.keys j d hold
  · intro j d hd hpc
    obtain ⟨rfl, rfl⟩ | hold := hcalls j d hd
    · exact howner hpc
    · exact h.owner j d hold hpc
  · intro j d hd hpc
    obtain ⟨-, rfl⟩ | hold := hcalls j d hd
    · exact hdangling hpc
    · exact h.dangling j d hold hpc

theorem RecoverInv.acquire (h : RecoverInv serde sessionId name sendId key s)
    (hfree : s.holder key = none) :
    RecoverInv serde sessionId name sendId key
      { s with holder := Function.update s.holder key (some i) } := by
  refine ⟨h.keys, ?_, h.dangling, h.landed, h.reports, h.own⟩
  intro j d hd hpc
  have hheld := h.owner j d hd hpc
  rw [hfree] at hheld
  cases hheld

/-! ### A step and a run -/

theorem RecoverInv.step (h : RecoverInv serde sessionId name sendId key s)
    (hkey : key ∈ readerPaths sessionId name) {a : RecoverAnswer} (hc : s.calls i = some c)
    (hlaw : LawfulRecover serde sendId s (.step i a))
    (hclean : CleanRecover serde sendId key s (.step i a)) :
    RecoverInv serde sessionId name sendId key
      (recoverStep serde sessionId name sendId s i c a) := by
  have hck := h.keys i c hc
  unfold recoverStep
  cases hpc : c.pc with
  | lock =>
      dsimp only
      split
      · exact h.finish none (by simp)
      · split
        case h_1 hfree =>
          rw [hck] at hfree ⊢
          exact (h.acquire hfree).goto rfl (fun _ => by simp) (by simp)
        case h_2 => exact h
  | check =>
      dsimp only
      split
      case h_1 existing hexisting =>
        refine (h.finish _ ?_).release (h.pc_lock hc (by simp [hpc]))
        rintro v ⟨⟩ m hm
        obtain hnil | ⟨v₀, e₀, hone, ⟨sha, hpay⟩, hsome⟩ := h.landed
        · simp [hnil] at hm
        · obtain rfl : m = (v₀, e₀) := by simpa [hone] using hm
          obtain rfl : existing = e₀.record serde := by simpa [hexisting] using hsome
          rw [verdictFromTerminal_record hpay]
          simp
      case h_2 hnone =>
        exact h.goto hck (fun _ => h.owner i c hc (by simp [hpc])) (fun _ => hnone)
  | emit =>
      have hnil := h.landed_eq_nil (h.dangling i c hc hpc)
      dsimp only
      cases hpay : recoveryEvent sendId c.contentSha256 c.verdict with
      | none =>
          exact (h.finish _ (by simp [hnil])).release (h.pc_lock hc (by simp [hpc]))
      | some payload =>
          obtain ⟨hclean', hread, hcut⟩ := hclean c hc hpc payload hpay
          rw [hck]
          exact h.append hkey hc hpc hpay (hlaw c hc hpc payload hpay) hclean' hread hcut

theorem RecoverInv.crash (h : RecoverInv serde sessionId name sendId key s)
    (hc : s.calls i = some c) :
    RecoverInv serde sessionId name sendId key
      { s with
        calls := Function.update s.calls i none
        holder := if s.holder c.key = some i then Function.update s.holder c.key none
          else s.holder } := by
  have hold : ∀ j d, Function.update s.calls i none j = some d → j ≠ i ∧ s.calls j = some d := by
    intro j d hd
    by_cases hj : j = i
    · subst hj
      simp at hd
    · exact ⟨hj, by simpa [Function.update_of_ne hj] using hd⟩
  refine ⟨fun j d hd => h.keys j d (hold j d hd).2, ?_,
    fun j d hd => h.dangling j d (hold j d hd).2, h.landed, h.reports, h.own⟩
  intro j d hd hpc
  obtain ⟨hj, hd'⟩ := hold j d hd
  have howner := h.owner j d hd' hpc
  have hnot : s.holder c.key ≠ some i := by
    rw [h.keys i c hc, howner]
    simpa using hj
  simp [hnot, howner]

theorem RecoverInv.next (h : RecoverInv serde sessionId name sendId key s)
    (hkey : key ∈ readerPaths sessionId name) {ev : RecoverEvent}
    (hlaw : LawfulRecover serde sendId s ev) (hclean : CleanRecover serde sendId key s ev) :
    RecoverInv serde sessionId name sendId key
      (recoverNext serde sessionId name sendId s ev) := by
  unfold recoverNext
  cases ev with
  | start i key' sha verdict =>
      dsimp only
      split
      · exact h.goto hclean (by simp) (by simp)
      · exact h
  | step i a =>
      dsimp only
      split
      case h_1 c hc => exact h.step hkey hc hlaw hclean
      case h_2 => exact h
  | crash i =>
      dsimp only
      split
      case h_1 c hc => exact h.crash hc
      case h_2 => exact h

end

theorem verdictFor_empty (serde : SerdeJson) (sessionId name : Option String) (sendId : String) :
    verdictFor serde (fun _ => []) sessionId name sendId = none := by
  have hempty : decodeUtf8 [] = some [] := decodeUtf8_encodeUtf8 []
  rw [verdictFor_eq, List.findSome?_eq_none_iff]
  intro key _
  simp [fileTerminal, readEvents, hempty, parseEvents, firstTerminalFor]

theorem recoverNext_check {serde : SerdeJson} {sessionId name : Option String} {sendId : String}
    {s : Recovering} {i : Nat} {c : RecoverCall} {a : RecoverAnswer} (hc : s.calls i = some c)
    (hpc : c.pc = .check) (hnone : verdictFor serde s.files sessionId name sendId = none) :
    recoverNext serde sessionId name sendId s (.step i a) = s.goto i { c with pc := .emit } := by
  simp [recoverNext, hc, recoverStep, hpc, hnone]

def wholeAnswer : RecoverAnswer where
  env := { ts := "t", pid := 1, seq := 0 }
  cut := 400
  markerEnv := { ts := "t", pid := 1, seq := 0 }

def unattributed : Payload := .pendingAbandoned "s" "recovery-unattributable" none none

def unattributedJson : SerdeJson :=
  .knowing [.obj (recordEntries wholeAnswer.env unattributed chunkShaCap),
    .obj (recordEntries wholeAnswer.env .eventsTruncated chunkShaCap)]

theorem unattributed_lawful : Lawful unattributedJson (recoverEmission wholeAnswer unattributed) := by
  obtain ⟨hrecord, hmarker⟩ : unattributedJson.LawfulAt _ ∧ unattributedJson.LawfulAt _ :=
    SerdeJson.lawfulAt_knowing_pair (floatless_recordEntries _ _ _) (floatless_recordEntries _ _ _)
      (by decide) (by decide)
  exact ⟨hrecord, hmarker⟩

/-- The session `s1`, named `x`, without records, after some steps of recoveries of its
send `s`. -/
def recoveredAfter (run : List RecoverEvent) : Recovering :=
  run.foldl (recoverNext unattributedJson (some "s1") (some "x") "s") {}

theorem recoveredAfter_check {run : List RecoverEvent} {i : Nat} {c : RecoverCall}
    {a : RecoverAnswer} (hc : (recoveredAfter run).calls i = some c) (hpc : c.pc = .check)
    (hfiles : (recoveredAfter run).files = fun _ => []) :
    recoveredAfter (run ++ [RecoverEvent.step i a]) = (recoveredAfter run).goto i { c with pc := .emit } := by
  have hnone : verdictFor unattributedJson (recoveredAfter run).files (some "s1") (some "x") "s" =
      none := by
    rw [hfiles]
    exact verdictFor_empty _ _ _ _
  unfold recoveredAfter at hc hnone ⊢
  rw [List.foldl_append]
  exact recoverNext_check hc hpc hnone

def lockedCall (key : String) : List RecoverEvent :=
  [.start 0 key "" .unattributable, .step 0 wholeAnswer]

/-- Two calls, one on each file of the session, that both have their lock. -/
def bothLocked : List RecoverEvent :=
  [.start 0 "s1" "" .unattributable, .start 1 "byname-x" "" .unattributable,
    .step 0 wholeAnswer, .step 1 wholeAnswer]

end QuorumDispatch.DeliveryEvents
