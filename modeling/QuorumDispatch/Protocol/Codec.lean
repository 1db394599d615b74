import Mathlib.Algebra.Order.Ring.Int
import Mathlib.Data.List.Forall2
import QuorumDispatch.Lib.Text

/-!
The frames of the protocol. A message is serialized and prefixed with its length in four
bytes. The reader keeps what it has read and not decoded in a buffer, which it fills from
a connection that hands out its bytes in chunks.

The serializer is a parameter: it says how long a message is and reads back what it wrote.
-/

namespace QuorumDispatch.Protocol

open Lib

inductive ProtocolError where
  | frameTooLarge (size max : Nat)
  | encodeTooLarge (size : Nat)
  | deserialize
deriving DecidableEq, Repr

def maxFrameSize : Nat := 16 * 1024 * 1024

def readBufSize : Nat := 65536

/-! ### Messages -/

/-- What `bincode` writes of a type of messages. -/
structure Serializer (T : Type) where
  bytes : T → Bytes
  serializedSize : T → Nat
  length_bytes : ∀ msg, (bytes msg).length = serializedSize msg

/-- `bincode` with the limit `maxFrameSize`, which reads back what it wrote. -/
structure Bincode (T : Type) extends Serializer T where
  deserialize : Bytes → Option T
  deserialize_bytes : ∀ msg, serializedSize msg ≤ maxFrameSize → deserialize (bytes msg) = some msg

variable {T : Type}

def Serializer.serialize (c : Serializer T) (msg : T) : Except ProtocolError Bytes :=
  if c.serializedSize msg ≤ maxFrameSize then .ok (c.bytes msg) else .error .deserialize

def toBeBytes (n : Nat) : Bytes :=
  [.ofNat (n / 2 ^ 24), .ofNat (n / 2 ^ 16), .ofNat (n / 2 ^ 8), .ofNat n]

def fromBeBytes (b₀ b₁ b₂ b₃ : UInt8) : Nat :=
  ((b₀.toNat * 256 + b₁.toNat) * 256 + b₂.toNat) * 256 + b₃.toNat

def encode (c : Serializer T) (msg : T) : Except ProtocolError Bytes := do
  let data ← c.serialize msg
  if data.length < 2 ^ 32 then .ok (toBeBytes data.length ++ data)
  else .error (.encodeTooLarge data.length)

def decode (c : Bincode T) (data : Bytes) : Except ProtocolError T :=
  match c.deserialize data with
  | some msg => .ok msg
  | none => .error .deserialize

/-- The bytes of the first frame with the number of bytes that it takes, or `none` if the
frame is not complete. -/
def decodeFrame : Bytes → Except ProtocolError (Option (Bytes × Nat))
  | b₀ :: b₁ :: b₂ :: b₃ :: rest =>
      let len := fromBeBytes b₀ b₁ b₂ b₃
      if maxFrameSize < len then .error (.frameTooLarge len maxFrameSize)
      else if rest.length < len then .ok none
      else .ok (some (rest.take len, 4 + len))
  | _ => .ok none

/-! ### The reader -/

/-- A connection: what is read next is at most the first chunk. -/
def readChunk : List Bytes → Bytes × List Bytes
  | [] => ([], [])
  | chunk :: chunks =>
      if chunk.length ≤ readBufSize then (chunk, chunks)
      else (chunk.take readBufSize, chunk.drop readBufSize :: chunks)

structure FrameReader where
  readBuf : Bytes := []
  offset : Nat := 0
deriving DecidableEq, Repr

namespace FrameReader

def intoLeftover (r : FrameReader) : Bytes := r.readBuf.drop r.offset

/-- `none` at the end of the connection. -/
def fillFrom (r : FrameReader) (chunks : List Bytes) :
    Except ProtocolError (Option (FrameReader × List Bytes)) :=
  let (data, chunks) := readChunk chunks
  if data = [] then .ok none
  else
    let readBuf := r.intoLeftover ++ data
    if maxFrameSize * 2 + 8 < readBuf.length then .error (.frameTooLarge readBuf.length maxFrameSize)
    else .ok (some ({ readBuf }, chunks))

def decodeNext (c : Bincode T) (r : FrameReader) :
    Except ProtocolError (Option (T × FrameReader)) := do
  match ← decodeFrame r.intoLeftover with
  | some (data, consumed) =>
      let msg ← decode c data
      .ok (some (msg, { r with offset := r.offset + consumed }))
  | none => .ok none

theorem decodeFrame_consumes {buf data : Bytes} {consumed : Nat}
    (h : decodeFrame buf = .ok (some (data, consumed))) : 4 ≤ consumed ∧ consumed ≤ buf.length := by
  unfold decodeFrame at h
  split at h
  next rest =>
    dsimp only at h
    split_ifs at h <;> cases h
    simp only [List.length_cons]
    omega
  next => cases h

theorem decodeNext_consumes {c : Bincode T} {r r' : FrameReader} {msg : T}
    (h : r.decodeNext c = .ok (some (msg, r'))) :
    r'.intoLeftover.length < r.intoLeftover.length := by
  unfold decodeNext at h
  cases hframe : decodeFrame r.intoLeftover with
  | error e => simp [hframe, bind, Except.bind] at h
  | ok frame =>
      rw [hframe] at h
      cases frame with
      | none => cases h
      | some frame =>
          obtain ⟨data, consumed⟩ := frame
          obtain ⟨hfour, hle⟩ := decodeFrame_consumes hframe
          cases hmsg : decode c data with
          | error e => simp [hmsg, bind, Except.bind] at h
          | ok msg' =>
              simp only [hmsg, bind, Except.bind, Except.ok.injEq, Option.some.injEq,
                Prod.mk.injEq] at h
              obtain ⟨-, rfl⟩ := h
              simp only [intoLeftover, List.length_drop] at hle ⊢
              omega

def decodeAll (c : Bincode T) (r : FrameReader) : Except ProtocolError (List T × FrameReader) :=
  match h : r.decodeNext c with
  | .error e => .error e
  | .ok none => .ok ([], r)
  | .ok (some (msg, r')) =>
      have := decodeNext_consumes h
      match decodeAll c r' with
      | .error e => .error e
      | .ok (msgs, r'') => .ok (msg :: msgs, r'')
termination_by r.intoLeftover.length

theorem readChunk_flatten (chunks : List Bytes) :
    (readChunk chunks).1 ++ (readChunk chunks).2.flatten = chunks.flatten := by
  cases chunks with
  | nil => rfl
  | cons chunk chunks =>
      rw [readChunk]
      split_ifs
      · rfl
      · rw [List.flatten_cons, ← List.append_assoc, List.take_append_drop, List.flatten_cons]

theorem fillFrom_flatten {r r' : FrameReader} {chunks chunks' : List Bytes}
    (h : r.fillFrom chunks = .ok (some (r', chunks'))) :
    chunks'.flatten.length < chunks.flatten.length := by
  have hflatten := readChunk_flatten chunks
  unfold fillFrom at h
  generalize readChunk chunks = read at h hflatten
  obtain ⟨data, rest⟩ := read
  dsimp only at h hflatten
  split_ifs at h with hdata <;> cases h
  rw [← hflatten, List.length_append]
  have := List.length_pos_iff.mpr hdata
  omega

/-- The loop of the clients of the reader: to decode what there is and to fill the buffer
again, to the end of the connection. -/
def receive (c : Bincode T) (r : FrameReader) (chunks : List Bytes) :
    Except ProtocolError (List T × FrameReader) :=
  match r.decodeAll c with
  | .error e => .error e
  | .ok (msgs, r') =>
      match h : r'.fillFrom chunks with
      | .error e => .error e
      | .ok none => .ok (msgs, r')
      | .ok (some (r'', chunks')) =>
          have := fillFrom_flatten h
          match receive c r'' chunks' with
          | .error e => .error e
          | .ok (msgs', r) => .ok (msgs ++ msgs', r)
termination_by chunks.flatten.length
decreasing_by exact this

end FrameReader

/-! ### Frames -/

theorem fromBeBytes_toBeBytes {n : Nat} (h : n < 2 ^ 32) :
    fromBeBytes (.ofNat (n / 2 ^ 24)) (.ofNat (n / 2 ^ 16)) (.ofNat (n / 2 ^ 8)) (.ofNat n) = n := by
  simp only [fromBeBytes, UInt8.toNat_ofNat']
  omega

def frameOf (data : Bytes) : Bytes := toBeBytes data.length ++ data

@[simp] theorem length_frameOf (data : Bytes) : (frameOf data).length = 4 + data.length := by
  simp [frameOf, toBeBytes]
  omega

theorem encode_of_le {c : Serializer T} {msg : T} (h : c.serializedSize msg ≤ maxFrameSize) :
    encode c msg = .ok (frameOf (c.bytes msg)) := by
  have hlen : (c.bytes msg).length < 2 ^ 32 := by
    rw [c.length_bytes]
    exact h.trans_lt (by decide)
  unfold encode Serializer.serialize
  rw [if_pos h]
  exact if_pos hlen

theorem encode_eq_ok {c : Serializer T} {msg : T} {frame : Bytes} :
    encode c msg = .ok frame ↔
      c.serializedSize msg ≤ maxFrameSize ∧ frame = frameOf (c.bytes msg) := by
  by_cases h : c.serializedSize msg ≤ maxFrameSize
  · rw [encode_of_le h, Except.ok.injEq]
    exact ⟨fun heq => ⟨h, heq.symm⟩, fun heq => heq.2.symm⟩
  · have herr : encode c msg = .error .deserialize := by
      unfold encode Serializer.serialize
      rw [if_neg h]
      rfl
    rw [herr]
    exact ⟨fun heq => (nomatch heq), fun heq => absurd heq.1 h⟩

theorem decodeFrame_frameOf {data : Bytes} (h : data.length ≤ maxFrameSize) (rest : Bytes) :
    decodeFrame (frameOf data ++ rest) = .ok (some (data, 4 + data.length)) := by
  have hlen := fromBeBytes_toBeBytes (n := data.length) (by unfold maxFrameSize at h; omega)
  show decodeFrame (_ :: _ :: _ :: _ :: (data ++ rest)) = _
  rw [decodeFrame, hlen]
  simp [Nat.not_lt.mpr h]

theorem decodeFrame_part {data buf : Bytes} (h : data.length ≤ maxFrameSize)
    (hbuf : buf <+: frameOf data) (hlt : buf.length < 4 + data.length) :
    decodeFrame buf = .ok none := by
  have hlen := fromBeBytes_toBeBytes (n := data.length) (by unfold maxFrameSize at h; omega)
  match buf, hbuf, hlt with
  | [], _, _ => rfl
  | [_], _, _ => rfl
  | [_, _], _, _ => rfl
  | [_, _, _], _, _ => rfl
  | b₀ :: b₁ :: b₂ :: b₃ :: rest, hbuf, hlt =>
      simp only [frameOf, toBeBytes, List.cons_append, List.nil_append, List.cons_prefix_cons] at hbuf
      obtain ⟨rfl, rfl, rfl, rfl, -⟩ := hbuf
      rw [decodeFrame, hlen]
      have hrest : rest.length < data.length := by
        simp only [List.length_cons] at hlt
        omega
      simp [Nat.not_lt.mpr h, hrest]

/-! ### Streams -/

namespace FrameReader

variable {c : Bincode T} {r : FrameReader}

def stream (c : Bincode T) (msgs : List T) : Bytes := msgs.flatMap fun msg => frameOf (c.bytes msg)

def Encodable (c : Bincode T) (msgs : List T) : Prop :=
  ∀ msg ∈ msgs, c.serializedSize msg ≤ maxFrameSize

theorem decodeNext_frame {msg : T} {rest : Bytes} (hsize : c.serializedSize msg ≤ maxFrameSize)
    (hbuf : r.intoLeftover = frameOf (c.bytes msg) ++ rest) :
    ∃ r', r.decodeNext c = .ok (some (msg, r')) ∧ r'.intoLeftover = rest := by
  refine ⟨{ r with offset := r.offset + (4 + (c.bytes msg).length) }, ?_, ?_⟩
  · rw [decodeNext, hbuf, decodeFrame_frameOf (c.length_bytes msg ▸ hsize)]
    simp [decode, c.deserialize_bytes msg hsize, bind, Except.bind]
  · unfold intoLeftover at hbuf ⊢
    rw [← List.drop_drop, hbuf, ← length_frameOf, List.drop_left]

theorem decodeNext_part {data : Bytes} (hsize : data.length ≤ maxFrameSize)
    (hbuf : r.intoLeftover <+: frameOf data) (hlt : r.intoLeftover.length < 4 + data.length) :
    r.decodeNext c = .ok none := by
  rw [decodeNext, decodeFrame_part hsize hbuf hlt]
  rfl

theorem decodeAll_none (h : r.decodeNext c = .ok none) : r.decodeAll c = .ok ([], r) := by
  rw [decodeAll]
  split <;> simp_all

theorem decodeAll_some {msg : T} {r' r'' : FrameReader} {msgs : List T}
    (h : r.decodeNext c = .ok (some (msg, r'))) (hrest : r'.decodeAll c = .ok (msgs, r'')) :
    r.decodeAll c = .ok (msg :: msgs, r'') := by
  rw [decodeAll]
  split
  next heq => cases h.symm.trans heq
  next heq => cases h.symm.trans heq
  next heq =>
    cases h.symm.trans heq
    rw [hrest]

theorem decodeAll_stream {msgs : List T} (hmsgs : Encodable c msgs) {rest : Bytes}
    (hbuf : r.intoLeftover ++ rest = stream c msgs) :
    ∃ done later r', msgs = done ++ later ∧ r.decodeAll c = .ok (done, r') ∧
      r'.intoLeftover ++ rest = stream c later ∧
      r'.intoLeftover.length < 4 + maxFrameSize ∧ (rest = [] → later = []) := by
  induction msgs generalizing r with
  | nil =>
      have hnil := List.append_eq_nil_iff.mp hbuf
      have hnone : r.decodeNext c = .ok none := by
        rw [decodeNext, hnil.1]
        rfl
      have hshort : r.intoLeftover.length < 4 + maxFrameSize := by
        rw [hnil.1, List.length_nil]
        omega
      exact ⟨[], [], r, rfl, decodeAll_none hnone, hbuf, hshort, fun _ => rfl⟩
  | cons msg msgs ih =>
      have hsize := hmsgs msg List.mem_cons_self
      rw [stream, List.flatMap_cons] at hbuf
      by_cases hlt : r.intoLeftover.length < (frameOf (c.bytes msg)).length
      · have hpart : r.intoLeftover <+: frameOf (c.bytes msg) := by
          refine List.prefix_of_prefix_length_le (List.prefix_append _ rest) ?_ hlt.le
          rw [hbuf]
          exact List.prefix_append ..
        rw [length_frameOf] at hlt
        have hdata : (c.bytes msg).length ≤ maxFrameSize := c.length_bytes msg ▸ hsize
        refine ⟨[], msg :: msgs, r, rfl, decodeAll_none (decodeNext_part hdata hpart hlt), hbuf,
          by omega, ?_⟩
        rintro rfl
        have := congrArg List.length hbuf
        simp at this
        omega
      · obtain ⟨buf, hbuf'⟩ : ∃ buf, r.intoLeftover = frameOf (c.bytes msg) ++ buf := by
          have hpre : frameOf (c.bytes msg) <+: r.intoLeftover := by
            refine List.prefix_of_prefix_length_le ?_ (List.prefix_append _ rest) (Nat.le_of_not_lt hlt)
            rw [hbuf]
            exact List.prefix_append ..
          obtain ⟨buf, hbuf'⟩ := hpre
          exact ⟨buf, hbuf'.symm⟩
        obtain ⟨r₁, hnext, hr₁⟩ := decodeNext_frame hsize hbuf'
        have hrest : r₁.intoLeftover ++ rest = stream c msgs := by
          rw [hbuf', List.append_assoc] at hbuf
          rw [hr₁]
          exact List.append_cancel_left hbuf
        obtain ⟨done, later, r', rfl, hall, hlater, hshort, hlast⟩ :=
          ih (fun m hm => hmsgs m (List.mem_cons_of_mem _ hm)) hrest
        exact ⟨msg :: done, later, r', rfl, decodeAll_some hnext hall, hlater, hshort, hlast⟩

theorem readChunk_cons {chunk : Bytes} {chunks : List Bytes}
    (h : ∀ chunk' ∈ chunk :: chunks, chunk' ≠ []) :
    (readChunk (chunk :: chunks)).1 ≠ [] ∧ (readChunk (chunk :: chunks)).1.length ≤ readBufSize ∧
      ∀ chunk' ∈ (readChunk (chunk :: chunks)).2, chunk' ≠ [] := by
  have hchunk := h chunk List.mem_cons_self
  have hchunks : ∀ chunk' ∈ chunks, chunk' ≠ [] := fun c hc => h c (List.mem_cons_of_mem _ hc)
  rw [readChunk]
  split_ifs with hlen
  · exact ⟨hchunk, hlen, hchunks⟩
  · refine ⟨?_, List.length_take_le .., ?_⟩
    · rw [Ne, List.take_eq_nil_iff, not_or]
      exact ⟨by decide, hchunk⟩
    · intro chunk' hmem
      obtain rfl | hmem := List.mem_cons.mp hmem
      · rw [Ne, List.drop_eq_nil_iff]
        exact hlen
      · exact hchunks chunk' hmem

theorem fillFrom_cons (hshort : r.intoLeftover.length < 4 + maxFrameSize) {chunk : Bytes}
    {chunks : List Bytes} (h : ∀ chunk' ∈ chunk :: chunks, chunk' ≠ []) :
    ∃ r' chunks', r.fillFrom (chunk :: chunks) = .ok (some (r', chunks')) ∧
      r'.intoLeftover ++ chunks'.flatten = r.intoLeftover ++ (chunk :: chunks).flatten ∧
      ∀ chunk' ∈ chunks', chunk' ≠ [] := by
  obtain ⟨hne, hlen, hrest⟩ := readChunk_cons h
  refine ⟨{ readBuf := r.intoLeftover ++ (readChunk (chunk :: chunks)).1 },
    (readChunk (chunk :: chunks)).2, ?_, ?_, hrest⟩
  · have hroom : ¬maxFrameSize * 2 + 8 <
        (r.intoLeftover ++ (readChunk (chunk :: chunks)).1).length := by
      rw [List.length_append]
      unfold maxFrameSize at hshort ⊢
      unfold readBufSize at hlen
      omega
    rw [fillFrom]
    dsimp only
    rw [if_neg hne, if_neg hroom]
  · rw [← readChunk_flatten (chunk :: chunks), ← List.append_assoc]
    rfl

theorem receive_stream {msgs : List T} (hmsgs : Encodable c msgs) {chunks : List Bytes}
    (hchunks : ∀ chunk ∈ chunks, chunk ≠ [])
    (hbuf : r.intoLeftover ++ chunks.flatten = stream c msgs) :
    ∃ r', r.receive c chunks = .ok (msgs, r') ∧ r'.intoLeftover = [] := by
  induction hn : chunks.flatten.length using Nat.strong_induction_on generalizing r msgs chunks with
  | _ n ih =>
  obtain ⟨done, later, r₁, rfl, hall, hlater, hshort, hlast⟩ := decodeAll_stream hmsgs hbuf
  have hlaterMsgs : Encodable c later := fun m hm => hmsgs m (List.mem_append_right _ hm)
  cases chunks with
  | nil =>
      obtain rfl := hlast rfl
      have hend : r₁.fillFrom [] = .ok none := rfl
      refine ⟨r₁, ?_, by simpa [stream] using hlater⟩
      rw [receive, hall]
      dsimp only
      split <;> simp_all
  | cons chunk chunks =>
      obtain ⟨r₂, chunks', hfill, hsame, hrest⟩ := fillFrom_cons hshort hchunks
      have hless : chunks'.flatten.length < n := hn ▸ fillFrom_flatten hfill
      obtain ⟨r', hreceive, hend⟩ := ih _ hless hlaterMsgs hrest (hsame.trans hlater) rfl
      refine ⟨r', ?_, hend⟩
      rw [receive, hall]
      dsimp only
      split
      next heq => cases hfill.symm.trans heq
      next heq => cases hfill.symm.trans heq
      next heq =>
        cases hfill.symm.trans heq
        rw [hreceive]

end FrameReader

/-- Messages that are byte strings, written with their length in eight bytes. -/
def byteStrings : Bincode Bytes where
  bytes msg := toBeBytes 0 ++ toBeBytes msg.length ++ msg
  serializedSize msg := 8 + msg.length
  deserialize data := if 8 ≤ data.length then some (data.drop 8) else none
  length_bytes msg := by simp [toBeBytes]; omega
  deserialize_bytes msg _ := by simp [toBeBytes]

end QuorumDispatch.Protocol
