import QuorumDispatch.Attended.Fire
import QuorumDispatch.DeliveryEvents.Ledger

/-!
The durable side of attended delivery: the spool of pending sends, the ledgers,
the driver that fires them and the sweep that a restart runs over what is left.

The process is up in one of two ways, sweeping or serving, and a crash takes it
down between any two durable effects with everything that is not in the spool or
in a ledger lost. Which held send is fired, and when, is up to the schedule; the
fire itself is the thread of `Attended.Fire`.
-/

namespace QuorumDispatch.Attended

open Lib DeliveryEvents

/-- What one server process is started with: the state directory it resolved and
the name of its session. -/
structure MuxConfig where
  fire : FireConfig
  stateDir : Option String
  name : String

/-- `ledger_path`. -/
def ledgerPath (stateDir : String) (session : Option String) (name : String) : String :=
  let key := match session with
    | some sid => if sid.isEmpty then "byname-" ++ name else sid
    | none => "byname-" ++ name
  stateDir ++ "/sessions/" ++ key ++ ".events.jsonl"

/-! ### The spool -/

abbrev Spool := String → Option PendingRecord

namespace Spool

def write (sp : Spool) (rec : PendingRecord) : Spool := Function.update sp rec.sendId (some rec)

def remove (sp : Spool) (sendId : String) : Spool := Function.update sp sendId none

/-- The scratch files start with a dot, and so does the file of a send whose name
does or is empty. -/
def listed (sendId : String) : Bool :=
  match sendId.toList with
  | [] => false
  | c :: _ => c != '.'

/-- `load_all` of a directory listing. -/
def loadAll (sp : Spool) (listing : List String) : List PendingRecord :=
  (listing.filter listed).filterMap sp

def replay (sp : Spool) (effects : List Effect) : Spool :=
  effects.foldl (fun sp e => match e with
    | .spool rec => sp.write rec
    | _ => sp) sp

end Spool

/-! ### The ledgers -/

/-- The appends to all ledger files, in order, each with its file. -/
abbrev Log := List (String × Payload)

namespace Log

def file (log : Log) (path : String) : List Payload :=
  (log.filter (·.1 == path)).map Prod.snd

/-- `ledger_has_terminal`. -/
def hasTerminal (log : Log) (path sendId : String) : Bool :=
  (log.file path).any (isTerminalFor sendId)

def terminals (log : Log) (sendId : String) : Nat :=
  log.countP (fun entry => isTerminalFor sendId entry.2)

end Log

/-! ### The driver -/

/-- The metadata of a `PendingDelivery`. -/
structure Handoff where
  sendId : String
  contentSha256 : String
  contentLen : UInt64
  transcript : Option String
  transcriptOffset : Option UInt64
  session : Option String
  name : String
  priority : Bool

/-- The record of `accept`. -/
def Handoff.record (h : Handoff) (nowMs : Int64) : PendingRecord where
  sendId := h.sendId
  contentSha256 := h.contentSha256
  contentLen := h.contentLen
  session := h.session
  name := some h.name
  verb := "send:pty"
  transcript := h.transcript
  transcriptOffset := h.transcriptOffset
  priority := h.priority
  acceptedAtMs := nowMs

/-- Where `fire_one` stands. -/
inductive Stage where
  | running
  | emit (payload : Payload)
  | remove
deriving DecidableEq, Repr

/-- `Runner`, with the send that `fire_one` is about as it was taken from the
schedule. -/
structure Runner where
  sends : List PendingRecord := []
  fire : State := {}
  firing : Option (PendingRecord × Stage) := none
  emitter : Option String := none
deriving DecidableEq, Repr

namespace Runner

/-- `emitter_for`: the path of the emitter, which is built once. -/
def emitterFor (cfg : MuxConfig) (r : Runner) (rec : PendingRecord) : Option String :=
  match r.emitter with
  | some path => some path
  | none => cfg.stateDir.map (ledgerPath · rec.session cfg.name)

/-- The record that `countdown_start_snapshots` writes for a held send. -/
def snapshot (r : Runner) (rec : PendingRecord) : PendingRecord :=
  { rec with phase := .countdown, draft := r.fire.journal.draft }

/-- What `fire_one` does with an outcome. -/
def settle (r : Runner) (rec : PendingRecord) (outcome : Option FireOutcome) : Runner :=
  match outcome with
  | some (.terminal payload) => { r with firing := some (rec, .emit payload) }
  | some .pending | none => { r with firing := none }

end Runner

/-! ### The sweep -/

/-- `verdict_payload`. -/
def verdictPayload (verdict : ReconcileVerdict) (rec : PendingRecord) : Option Payload :=
  match verdict with
  | .alreadyTerminal | .resurfaceDraft => none
  | .lateMessageSeen => some (.messageSeen rec.sendId rec.contentSha256)
  | .seenFailedRecipientGone => some (.seenFailed rec.sendId "recipient-gone")
  | .pendingAbandonedUnknown | .lateMismatch =>
      some (.pendingAbandoned rec.sendId "unknown-inject-outcome" none none)

/-! ### The process -/

inductive Mode where
  | down
  | sweeping (todo : List PendingRecord)
  | sweptRemove (sendId : String) (todo : List PendingRecord)
  | serving (r : Runner)
deriving DecidableEq, Repr

/-- The durable state and the process over it. `accepted` is a history variable:
the sends whose acceptance was made durable, with the session each named. -/
structure Mux where
  spool : Spool := fun _ => none
  log : Log := []
  mode : Mode := .down
  accepted : List (String × Option String) := []

inductive MuxEvent where
  | boot (listing : List String)
  | sweep (landing : LandingScan) (locked appended : Bool)
  | sweepRemove (removed : Bool)
  | serve
  | accept (handoff : Handoff) (nowMs : Int64) (durable : Bool)
  | snapshot (sendId : String) (durable : Bool)
  | human (bytes : Bytes) (nowMs : Int) (sent : Nat)
  | take (sendId : String) (answer : Answer)
  | fire (answer : Answer)
  | panic
  | emit (appended : Bool)
  | remove (removed : Bool)
  | crash

namespace Mux

def append (s : Mux) (path : String) (payload : Payload) (appended : Bool) : Mux :=
  if appended then { s with log := s.log ++ [(path, payload)] } else s

def spoolRemove (s : Mux) (sendId : String) (removed : Bool) : Mux :=
  if removed then { s with spool := s.spool.remove sendId } else s

/-- One record of `reconcile_spool`, up to its removal. The hosted session does
not survive the server, so the sweep runs with `session_alive` false. -/
def sweepOne (cfg : MuxConfig) (s : Mux) (rec : PendingRecord) (todo : List PendingRecord)
    (landing : LandingScan) (locked appended : Bool) : Mux :=
  match cfg.stateDir, locked with
  | some dir, true =>
      let path := ledgerPath dir rec.session cfg.name
      let already := s.log.hasTerminal path rec.sendId
      let verdict := reconcile rec.phase landing.toResult false already
      let s := match verdictPayload verdict rec with
        | some payload => s.append path payload appended
        | none => s
      if verdict = .resurfaceDraft then { s with mode := .sweeping todo }
      else { s with mode := .sweptRemove rec.sendId todo }
  -- a lock that cannot be taken ends the sweep with an error
  | _, _ => { s with mode := .sweeping [] }

def runnerStep (cfg : MuxConfig) (s : Mux) (r : Runner) : MuxEvent → Mux
  | .accept h nowMs durable =>
      if durable then
        { s with
          spool := s.spool.write (h.record nowMs)
          mode := .serving { r with sends := r.sends ++ [h.record nowMs] }
          accepted := s.accepted ++ [(h.sendId, h.session)] }
      else s
  | .snapshot sendId durable =>
      match r.firing with
      | none =>
          let due := fun rec : PendingRecord => rec.sendId == sendId && rec.phase == .accepted
          let snaps := (r.sends.filter due).map r.snapshot
          { s with
            spool := if durable then snaps.foldl Spool.write s.spool else s.spool
            mode := .serving { r with
              sends := r.sends.map fun rec => if due rec then r.snapshot rec else rec } }
      | some _ => s
  | .human bytes nowMs sent =>
      { s with mode := .serving { r with fire := humanInput cfg.fire r.fire bytes nowMs sent } }
  | .take sendId a =>
      match r.firing, r.sends.find? (·.sendId == sendId) with
      | none, some rec =>
          { s with mode := .serving { r with
              sends := r.sends.eraseP (·.sendId == sendId)
              fire := fireStep cfg.fire r.fire { a with record := rec }
              firing := some (rec, .running) } }
      | _, _ => s
  | .fire a =>
      match r.firing with
      | some (rec, .running) =>
          let fire := fireStep cfg.fire r.fire a
          let s := { s with spool := s.spool.replay (fire.trace.drop r.fire.trace.length) }
          let r := { r with fire }
          if fire.pc = .idle then { s with mode := .serving (r.settle rec fire.outcomes.getLast?) }
          else { s with mode := .serving r }
      | _ => s
  | .panic =>
      match r.firing with
      | some (_, .running) =>
          { s with mode := .serving { r with fire := r.fire.goto .idle, firing := none } }
      | _ => s
  | .emit appended =>
      match r.firing with
      | some (rec, .emit payload) =>
          let path := r.emitterFor cfg rec
          let s := match path with
            | some path => s.append path payload appended
            | none => s
          { s with mode := .serving { r with emitter := path, firing := some (rec, .remove) } }
      | _ => s
  | .remove removed =>
      match r.firing with
      | some (rec, .remove) =>
          { s.spoolRemove rec.sendId removed with mode := .serving { r with firing := none } }
      | _ => s
  | _ => s

def step (cfg : MuxConfig) (s : Mux) (e : MuxEvent) : Mux :=
  match s.mode, e with
  | _, .crash => { s with mode := .down }
  | .down, .boot listing =>
      -- without a state directory the server starts without a sweep
      if cfg.stateDir.isSome then { s with mode := .sweeping (s.spool.loadAll listing) }
      else { s with mode := .sweeping [] }
  | .sweeping (rec :: todo), .sweep landing locked appended =>
      s.sweepOne cfg rec todo landing locked appended
  | .sweptRemove sendId todo, .sweepRemove removed =>
      { s.spoolRemove sendId removed with mode := .sweeping todo }
  | .sweeping [], .serve => { s with mode := .serving {} }
  | .serving r, e => s.runnerStep cfg r e
  | _, _ => s

end Mux

def muxAfter (cfg : MuxConfig) (run : List MuxEvent) : Mux := run.foldl (Mux.step cfg) {}

end QuorumDispatch.Attended
