import QuorumDispatch.Acp.Queue
import QuorumDispatch.Lib.Json
import QuorumDispatch.Lib.Slot

/-!
The resident host of an ACP session. It owns the outbound queue, sends commands to the
connection of the bridge, and takes the events of the bridge off one ordered bus. A turn is
over for the host when its terminal was taken off the bus.
-/

namespace QuorumDispatch.Acp

open Lib

inductive StopReason where
  | endTurn
  | maxTokens
  | maxTurnRequests
  | refusal
  | cancelled
deriving DecidableEq, Repr

inductive AcpEvent where
  | update (session kind : String) (payload : Json)
  | terminal (session turn : String) (stop : StopReason)
  | terminalError (session turn message : String)

inductive AcpError where
  | closed
  | transport (message : String)
  | protocol (message : String)
  | queueFull
deriving DecidableEq, Repr

inductive Command where
  | prompt (session turn text : String)
  | cancel (session : String)
deriving DecidableEq, Repr

inductive BusEvent where
  | update (session kind : String) (payload : Json)
  | terminal (session turn : String) (stop : StopReason)
  | terminalError (session turn message : String)
  | closed (why : String)

def BusEvent.terminalTurn : BusEvent → Option String
  | .terminal _ turn _ | .terminalError _ turn _ => some turn
  | .update .. | .closed _ => none

inductive AcpTurnObservation where
  | pending
  | terminal (stop : StopReason)
  | failed (message : String)
  | transportLost (why : String)
deriving DecidableEq, Repr

inductive Received where
  | event (e : BusEvent)
  | timeout
  | disconnected

/-- `sent` is all that went out on the command channel, which is open as long as the
connection takes commands. -/
structure AcpHost where
  capacity : Nat
  session : Option String := none
  queue : Option OutboundQueue
  updatesSeen : Nat := 0
  lastObs : AcpTurnObservation := .pending
  transcript : List Json := []
  isOpen : Bool := true
  sent : List Command := []

namespace AcpHost

def spawn (capacity : Nat) : AcpHost :=
  { capacity, queue := some (.new "pending-session" capacity) }

/-- `new_session`, as the bridge answers with the id of the session. -/
def newSession (h : AcpHost) (session : String) : AcpHost :=
  { h with queue := some (.new session h.capacity), session := some session }

def send (h : AcpHost) (command : Command) : Except AcpError Unit × AcpHost :=
  if h.isOpen then (.ok (), { h with sent := h.sent ++ [command] }) else (.error .closed, h)

/-- If the session is idle and an item waits, the item is sent. -/
def releaseNext (h : AcpHost) : Except AcpError Unit × AcpHost :=
  match h.session, h.queue.map OutboundQueue.tryRelease with
  | some session, some (some item, queue) =>
      ({ h with queue := some queue, updatesSeen := 0 } : AcpHost).send
        (.prompt session item.turn item.message)
  | _, _ => (.ok (), h)

def prompt? (h : AcpHost) (text sender : String) : Option (Except AcpError String × AcpHost) :=
  match h.session, h.queue with
  | some _, some queue => do
      match ← queue.enqueue? text sender with
      | (none, _) => some (.error .queueFull, h)
      | (some turn, queue) =>
          match ({ h with queue := some queue } : AcpHost).releaseNext with
          | (.ok (), h) => some (.ok turn, h)
          | (.error e, h) => some (.error e, h)
  | _, _ => some (.error (.protocol "no acp session established"), h)

def cancel (h : AcpHost) : Except AcpError Unit × AcpHost :=
  match h.session with
  | some session => h.send (.cancel session)
  | none => (.error (.protocol "no acp session established"), h)

/-- A terminal was taken off the bus: the slot is freed if it is the one in flight, and the
next turn is sent. -/
def finishTurn (h : AcpHost) (turn : String) (obs : AcpTurnObservation) (event : AcpEvent) :
    Except AcpError (Option AcpEvent) × AcpHost :=
  match ({ h with
      queue := h.queue.map fun queue => (queue.complete turn).2
      lastObs := obs } : AcpHost).releaseNext with
  | (.ok (), h) => (.ok (some event), h)
  | (.error e, h) => (.error e, h)

def nextUpdate (h : AcpHost) : Received → Except AcpError (Option AcpEvent) × AcpHost
  | .event (.update session kind payload) =>
      (.ok (some (.update session kind payload)),
        { h with updatesSeen := h.updatesSeen + 1, transcript := h.transcript ++ [payload] })
  | .event (.terminal session turn stop) =>
      h.finishTurn turn (.terminal stop) (.terminal session turn stop)
  | .event (.terminalError session turn message) =>
      h.finishTurn turn (.failed message) (.terminalError session turn message)
  | .event (.closed why) => (.error .closed, { h with lastObs := .transportLost why })
  | .timeout => (.ok none, h)
  | .disconnected => (.error .closed, { h with lastObs := .transportLost "connection thread gone" })

/-- `in_flight`: a turn is in flight. -/
def inFlight (h : AcpHost) : Bool := (h.queue.map fun queue => !queue.isIdle).getD false

end AcpHost

/-! ### The log of a host -/

inductive Entry where
  | accepted (turn text : String)
  | refused (e : AcpError)
  | cancelled
  | consumed (e : BusEvent)
  | quiet
  | sent (c : Command)

namespace Entry

def accepted? : Entry → Option (String × String)
  | .accepted turn text => some (turn, text)
  | _ => none

def prompt? : Entry → Option (String × String)
  | .sent (.prompt _ turn text) => some (turn, text)
  | _ => none

def slotOp? : Entry → Option (SlotOp String)
  | .sent (.prompt _ turn _) => some (.take turn)
  | .consumed e => e.terminalTurn.map .free
  | _ => none

end Entry

def accepted (log : List Entry) : List (String × String) := log.filterMap Entry.accepted?

def prompts (log : List Entry) : List (String × String) := log.filterMap Entry.prompt?

def slotOps (log : List Entry) : List (SlotOp String) := log.filterMap Entry.slotOp?

inductive Call where
  | prompt (text sender : String)
  | cancel
  | nextUpdate (received : Received)

structure Driven where
  host : AcpHost
  log : List Entry := []

namespace Driven

def established (session : String) (capacity : Nat) : Driven :=
  { host := (AcpHost.spawn capacity).newSession session }

/-- The log after a call that left `host`, and that was first of all `entry`. -/
def record (s : Driven) (entry : Entry) (host : AcpHost) : Driven :=
  { host, log := s.log ++ entry :: (host.sent.drop s.host.sent.length).map .sent }

def step? (s : Driven) : Call → Option Driven
  | .prompt text sender => do
      let (result, host) ← s.host.prompt? text sender
      match result with
      | .ok turn => some (s.record (.accepted turn text) host)
      | .error e => some (s.record (.refused e) host)
  | .cancel =>
      match s.host.cancel with
      | (.ok (), host) => some (s.record .cancelled host)
      | (.error e, host) => some (s.record (.refused e) host)
  | .nextUpdate received =>
      match received with
      | .event e => some (s.record (.consumed e) (s.host.nextUpdate received).2)
      | _ => some (s.record .quiet (s.host.nextUpdate received).2)

def run? (s : Driven) (calls : List Call) : Option Driven := calls.foldlM step? s

end Driven

end QuorumDispatch.Acp
