import QuorumDispatch.Lib.Json
import Mathlib.Data.Nat.Digits.Defs

/-!
The records of the daemon event stream, one JSON line each. A record carries the session, the epoch of
the file and a sequence number.
-/

namespace QuorumDispatch.Events

open Lib

set_option linter.dupNamespace false

def maxSessionNameLen : Nat := 128

def validNameChar (c : Char) : Bool :=
  ('a' ≤ c && c ≤ 'z') || ('A' ≤ c && c ≤ 'Z') || ('0' ≤ c && c ≤ '9') || c == '_' || c == '-' || c == '.'

/-- `validate_session_name`. -/
def validateSessionName (name : List Char) : Bool :=
  !name.isEmpty && decide (name.length ≤ maxSessionNameLen) && name.all validNameChar

structure SessionName where
  text : List Char
  valid : validateSessionName text = true

/-- `DAEMON_EVENTS_SCHEMA_VERSION` -/
def schemaVersion : UInt32 := 2

def defaultMaxBytes : UInt64 := 5 * 1024 * 1024

/-- `TERMINAL_RESERVE_BYTES` -/
def terminalReserve : Nat := 64 * 1024

/-! ### Records -/

structure EventMeta where
  session : SessionName
  epoch : UInt64
  seq : Nat
  tsMs : UInt64

inductive CloseReason where
  | killed
  | childExited
  | daemonShutdown
  | dropped
deriving DecidableEq

def CloseReason.text : CloseReason → String
  | killed => "killed"
  | childExited => "child-exited"
  | daemonShutdown => "daemon-shutdown"
  | dropped => "dropped"

inductive DaemonEvent where
  | sessionOpened (info : EventMeta) (pid schemaVersion : UInt32) (pidStartMs : Option UInt64)
      (bootId : Option String)
  | ptyBytesWritten (info : EventMeta) (bytes : UInt64) (contentSha256 : String) (contentLen : UInt64)
  | ptyWriteFailed (info : EventMeta) (errno : Option Int32) (error contentSha256 : String)
      (contentLen : UInt64)
  | sessionClosed (info : EventMeta) (reason : CloseReason)
  | eventsTruncated (info : EventMeta) (capBytes : UInt64)
  | heartbeat (info : EventMeta)

namespace DaemonEvent

def info : DaemonEvent → EventMeta
  | sessionOpened info .. | ptyBytesWritten info .. | ptyWriteFailed info .. | sessionClosed info _
  | eventsTruncated info _ | heartbeat info => info

def seq (e : DaemonEvent) : Nat := e.info.seq

def setSeq (seq : Nat) : DaemonEvent → DaemonEvent
  | sessionOpened info pid version start boot =>
      sessionOpened { info with seq } pid version start boot
  | ptyBytesWritten info bytes sha len => ptyBytesWritten { info with seq } bytes sha len
  | ptyWriteFailed info errno error sha len => ptyWriteFailed { info with seq } errno error sha len
  | sessionClosed info reason => sessionClosed { info with seq } reason
  | eventsTruncated info cap => eventsTruncated { info with seq } cap
  | heartbeat info => heartbeat { info with seq }

def isOpened : DaemonEvent → Bool
  | sessionOpened .. => true
  | _ => false

def isClosed : DaemonEvent → Bool
  | sessionClosed .. => true
  | _ => false

def isTruncated : DaemonEvent → Bool
  | eventsTruncated .. => true
  | _ => false

@[simp] theorem seq_setSeq (e : DaemonEvent) (n : Nat) : (e.setSeq n).seq = n := by cases e <;> rfl

@[simp] theorem isClosed_setSeq (e : DaemonEvent) (n : Nat) : (e.setSeq n).isClosed = e.isClosed := by
  cases e <;> rfl

/-! ### Lines -/

def num (n : Nat) : Json := .num n

def metaFields (m : EventMeta) : List (String × Json) :=
  [("session", .str (String.ofList m.session.text)), ("epoch", num m.epoch.toNat), ("seq", num m.seq),
    ("ts_ms", num m.tsMs.toNat)]

def omitNone (key : String) (v : Option Json) : List (String × Json) := v.toList.map fun j => (key, j)

def value : DaemonEvent → Json
  | sessionOpened info pid version start boot => .obj (("event", .str "session-opened") ::
      (metaFields info ++ [("pid", num pid.toNat), ("schema_version", num version.toNat)] ++
        omitNone "pid_start_ms" (start.map (num ·.toNat)) ++ omitNone "boot_id" (boot.map .str)))
  | ptyBytesWritten info bytes sha len => .obj (("event", .str "pty-bytes-written") ::
      (metaFields info ++
        [("bytes", num bytes.toNat), ("content_sha256", .str sha), ("content_len", num len.toNat)]))
  | ptyWriteFailed info errno error sha len => .obj (("event", .str "pty-write-failed") ::
      (metaFields info ++
        [("errno", (errno.map fun n => Json.num n.toInt).getD .null), ("error", .str error),
          ("content_sha256", .str sha), ("content_len", num len.toNat)]))
  | sessionClosed info reason => .obj (("event", .str "session-closed") ::
      (metaFields info ++ [("reason", .str reason.text)]))
  | eventsTruncated info cap => .obj (("event", .str "events-truncated") ::
      (metaFields info ++ [("cap_bytes", num cap.toNat)]))
  | heartbeat info => .obj (("event", .str "heartbeat") :: metaFields info)

def line (e : DaemonEvent) : Bytes := encodeUtf8 (e.value.compact ++ ['\n'])

def lineLen (e : DaemonEvent) : Nat := e.line.length

theorem lineLen_pos (e : DaemonEvent) : 0 < e.lineLen := by
  unfold lineLen line
  rw [encodeUtf8_append, List.length_append, encodeUtf8_newline]
  exact Nat.succ_pos _

end DaemonEvent

/-! ### How long a marker is -/

theorem length_utf8EncodeChar_le (c : Char) : (String.utf8EncodeChar c).length ≤ 4 := by
  unfold String.utf8EncodeChar
  dsimp only
  split_ifs <;> simp

theorem length_encodeUtf8_le (cs : List Char) : (encodeUtf8 cs).length ≤ 4 * cs.length := by
  induction cs with
  | nil => exact Nat.zero_le _
  | cons c cs ih =>
      have hc := length_utf8EncodeChar_le c
      change (String.utf8EncodeChar c ++ encodeUtf8 cs).length ≤ 4 * (cs.length + 1)
      rw [List.length_append]
      omega

theorem length_escape_le (c : Char) : (Json.escape c).length ≤ 6 := by
  unfold Json.escape
  split <;> first | decide | (split_ifs <;> simp)

theorem length_flatMap_escape_le (cs : List Char) : (cs.flatMap Json.escape).length ≤ 6 * cs.length := by
  induction cs with
  | nil => exact Nat.zero_le _
  | cons c cs ih =>
      have hc := length_escape_le c
      rw [List.flatMap_cons, List.length_append, List.length_cons]
      omega

theorem length_num_le {n : Nat} (h : n < 10 ^ 20) : (DaemonEvent.num n).compact.length ≤ 20 := by
  have hdigits := Nat.toDigits_length 10 n 20 (by decide) h
  have hcompact : (DaemonEvent.num n).compact = Nat.toDigits 10 n := by
    unfold DaemonEvent.num
    rw [Json.compact, if_neg (by omega)]
    rfl
  rwa [hcompact]

theorem SessionName.length_le (s : SessionName) : s.text.length ≤ 128 := by
  have h := s.valid
  unfold validateSessionName at h
  simp only [Bool.and_eq_true, decide_eq_true_eq] at h
  exact h.1.2

/-- The marker of a file always fits the reserve. -/
theorem lineLen_truncated_le {m : EventMeta} {cap : UInt64} (hseq : m.seq < 10 ^ 20) :
    (DaemonEvent.eventsTruncated m cap).lineLen ≤ terminalReserve := by
  have hname : (Json.quote (String.ofList m.session.text)).length ≤ 770 := by
    have h := length_flatMap_escape_le m.session.text
    have hlen := m.session.length_le
    unfold Json.quote
    rw [String.toList_ofList]
    simp only [List.length_cons, List.length_append, List.length_nil]
    omega
  have hepoch := length_num_le (n := m.epoch.toNat) (m.epoch.toNat_lt.trans (by decide))
  have hcap := length_num_le (n := cap.toNat) (cap.toNat_lt.trans (by decide))
  have hts := length_num_le (n := m.tsMs.toNat) (m.tsMs.toNat_lt.trans (by decide))
  have hnum := length_num_le hseq
  have htext : (DaemonEvent.eventsTruncated m cap).value.compact.length ≤ 1000 := by
    have hkeys : (Json.quote "event").length = 7 ∧ (Json.quote "events-truncated").length = 18 ∧
        (Json.quote "session").length = 9 ∧ (Json.quote "epoch").length = 7 ∧
        (Json.quote "seq").length = 5 ∧ (Json.quote "ts_ms").length = 7 ∧
        (Json.quote "cap_bytes").length = 11 := by decide
    unfold DaemonEvent.value DaemonEvent.metaFields
    simp only [List.cons_append, List.nil_append, Json.compact, Json.compactEntries,
      List.length_append, List.length_cons, List.length_nil]
    omega
  have hbytes := length_encodeUtf8_le ((DaemonEvent.eventsTruncated m cap).value.compact ++ ['\n'])
  unfold DaemonEvent.lineLen DaemonEvent.line terminalReserve
  rw [List.length_append] at hbytes
  simp only [List.length_cons, List.length_nil] at hbytes
  omega

end QuorumDispatch.Events
