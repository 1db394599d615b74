import QuorumDispatch.Attended.Basic
import QuorumDispatch.Lib.Chunks
import QuorumDispatch.Lib.Json

/-!
The files of the spool. A pending record is one JSON object in a file of its own, written beside it
and moved there; the draft is a string of the object, in an encoding of its own.
-/

namespace QuorumDispatch.Attended

open Lib

/-! ### The encoding of the draft -/

namespace B64

def alphabet : List Char :=
  ['A', 'B', 'C', 'D', 'E', 'F', 'G', 'H', 'I', 'J', 'K', 'L', 'M', 'N', 'O', 'P',
    'Q', 'R', 'S', 'T', 'U', 'V', 'W', 'X', 'Y', 'Z', 'a', 'b', 'c', 'd', 'e', 'f',
    'g', 'h', 'i', 'j', 'k', 'l', 'm', 'n', 'o', 'p', 'q', 'r', 's', 't', 'u', 'v',
    'w', 'x', 'y', 'z', '0', '1', '2', '3', '4', '5', '6', '7', '8', '9', '+', '/']

/-- `ALPHABET[n & 63]`. -/
def letter (n : UInt32) : Char := alphabet.getD (n &&& 63).toNat '='

def pack (a b c : UInt8) : UInt32 := a.toUInt32 <<< 16 ||| b.toUInt32 <<< 8 ||| c.toUInt32

def encodeChunk (chunk : Bytes) : List Char :=
  let n := pack (chunk.getD 0 0) (chunk.getD 1 0) (chunk.getD 2 0)
  [letter (n >>> 18), letter (n >>> 12), if 1 < chunk.length then letter (n >>> 6) else '=',
    if 2 < chunk.length then letter n else '=']

def encode (bytes : Bytes) : List Char := (chunks 3 bytes).flatMap encodeChunk

/-- A program that may fail, or index a slice out of its range and stop. -/
abbrev Run (ε : Type) := ExceptT ε Option

def val (c : UInt8) : Run String UInt32 :=
  if 65 ≤ c ∧ c ≤ 90 then pure (c - 65).toUInt32
  else if 97 ≤ c ∧ c ≤ 122 then pure (c - 97 + 26).toUInt32
  else if 48 ≤ c ∧ c ≤ 57 then pure (c - 48 + 52).toUInt32
  else if c = 43 then pure 62
  else if c = 47 then pure 63
  else throw "bad base64 char"

/-- `chunk[i]`. -/
def index (chunk : Bytes) (i : Nat) : Run String UInt8 := ExceptT.mk (chunk[i]?.map .ok)

/-- `if c == b'=' { 0 } else { val(c)? }`. -/
def padded (c : UInt8) : Run String UInt32 := if c = 61 then pure 0 else val c

def decodeChunk (chunk : Bytes) : Run String Bytes := do
  let pad := chunk.count 61
  let v0 ← val (← index chunk 0)
  let v1 ← val (← index chunk 1)
  let v2 ← padded (← index chunk 2)
  let v3 ← padded (← index chunk 3)
  let n := v0 <<< 18 ||| v1 <<< 12 ||| v2 <<< 6 ||| v3
  return [(n >>> 16).toUInt8] ++ (if pad < 2 then [(n >>> 8).toUInt8] else []) ++
    (if pad < 1 then [n.toUInt8] else [])

def decode (text : List Char) : Run String Bytes := do
  let s := encodeUtf8 text
  if s.length % 4 ≠ 0 then throw "bad base64 length"
  else return (← (chunks 4 s).mapM decodeChunk).flatten

/-! #### Where it stops -/

section Stops

variable {ε α β : Type}

/-- The program comes to its end, with a value or with an error. -/
def Ends (m : Run ε α) : Prop := m.run ≠ none

theorem Ends.pure (a : α) : Ends (pure a : Run ε α) := Option.some_ne_none _

theorem Ends.throw (e : ε) : Ends (throw e : Run ε α) := Option.some_ne_none _

theorem Ends.bind {m : Run ε α} {f : α → Run ε β} (hm : Ends m) (hf : ∀ a, Ends (f a)) : Ends (m >>= f) := by
  change (m.run >>= ExceptT.bindCont f) ≠ none
  cases hrun : m.run with
  | none => exact absurd hrun hm
  | some result =>
      cases result with
      | error e => exact Option.some_ne_none _
      | ok a => exact hf a

theorem Ends.mapM {f : α → Run ε β} {xs : List α} (h : ∀ x ∈ xs, Ends (f x)) : Ends (xs.mapM f) := by
  induction xs with
  | nil => exact .pure []
  | cons x xs ih =>
      rw [List.mapM_cons]
      refine (h x List.mem_cons_self).bind fun y => ?_
      exact (ih fun x' hx' => h x' (List.mem_cons_of_mem _ hx')).bind fun ys => .pure _

end Stops

theorem ends_val (c : UInt8) : Ends (val c) := by
  rw [val]
  split_ifs
  · exact .pure _
  · exact .pure _
  · exact .pure _
  · exact .pure _
  · exact .pure _
  · exact .throw _

theorem ends_padded (c : UInt8) : Ends (padded c) := by
  rw [padded]
  split
  · exact .pure _
  · exact ends_val c

theorem index_eq {chunk : Bytes} {i : Nat} (h : i < chunk.length) : index chunk i = pure chunk[i] := by
  rw [index, List.getElem?_eq_getElem h]
  rfl

theorem ends_decodeChunk {chunk : Bytes} (h : chunk.length = 4) : Ends (decodeChunk chunk) := by
  rw [decodeChunk]
  simp only [index_eq (show 0 < chunk.length by omega), index_eq (show 1 < chunk.length by omega),
    index_eq (show 2 < chunk.length by omega), index_eq (show 3 < chunk.length by omega), pure_bind]
  refine (ends_val _).bind fun _ => (ends_val _).bind fun _ => ?_
  exact (ends_padded _).bind fun _ => (ends_padded _).bind fun _ => .pure _

theorem ends_decode (text : List Char) : Ends (decode text) := by
  rw [decode]
  split
  next => exact .throw _
  next hmod =>
    refine (Ends.mapM fun chunk hchunk => ?_).bind fun _ => .pure _
    exact ends_decodeChunk (length_of_mem_chunks_of_mod (not_not.mp hmod) hchunk)

/-! #### The round trip -/

theorem shiftLeft_or_shiftLeft {y m : Nat} (hy : y < 2 ^ m) (x k : Nat) :
    x <<< (m + k) ||| y <<< k = (x * 2 ^ m + y) <<< k := by
  rw [Nat.shiftLeft_add, ← Nat.shiftLeft_or_distrib, ← Nat.shiftLeft_add_eq_or_of_lt hy,
    Nat.shiftLeft_eq x]

theorem toNat_pack (a b c : UInt8) : (pack a b c).toNat = a.toNat * 65536 + b.toNat * 256 + c.toNat := by
  have ha := a.toNat_lt
  have hb := b.toNat_lt
  have hc := c.toNat_lt
  have hab : a.toNat <<< 16 ||| b.toNat <<< 8 = (a.toNat * 2 ^ 8 + b.toNat) <<< 8 :=
    shiftLeft_or_shiftLeft hb a.toNat 8
  have habc := Nat.shiftLeft_add_eq_or_of_lt hc (a.toNat * 2 ^ 8 + b.toNat)
  have hfits : a.toNat <<< 16 % 2 ^ 32 = a.toNat <<< 16 := by
    rw [Nat.shiftLeft_eq]
    omega
  have hfits' : b.toNat <<< 8 % 2 ^ 32 = b.toNat <<< 8 := by
    rw [Nat.shiftLeft_eq]
    omega
  change (a.toNat <<< 16 % 2 ^ 32 ||| b.toNat <<< 8 % 2 ^ 32) ||| c.toNat = _
  rw [hfits, hfits', hab, ← habc, Nat.shiftLeft_eq]
  omega

theorem pack_lt (a b c : UInt8) : (pack a b c).toNat < 2 ^ 24 := by
  have ha := a.toNat_lt
  have hb := b.toNat_lt
  have hc := c.toNat_lt
  rw [toNat_pack]
  omega

theorem bytes_pack (a b c : UInt8) :
    (pack a b c >>> 16).toUInt8 = a ∧ (pack a b c >>> 8).toUInt8 = b ∧ (pack a b c).toUInt8 = c := by
  have hb := b.toNat_lt
  have hc := c.toNat_lt
  have ha := a.toNat_lt
  refine ⟨UInt8.toNat_inj.mp ?_, UInt8.toNat_inj.mp ?_, UInt8.toNat_inj.mp ?_⟩
  · rw [UInt32.toNat_toUInt8, UInt32.toNat_shiftRight, Nat.shiftRight_eq_div_pow, toNat_pack]
    change _ / 65536 % 256 = _
    omega
  · rw [UInt32.toNat_toUInt8, UInt32.toNat_shiftRight, Nat.shiftRight_eq_div_pow, toNat_pack]
    change _ / 256 % 256 = _
    omega
  · rw [UInt32.toNat_toUInt8, toNat_pack]
    omega

theorem toNat_sextet (n k : UInt32) (hk : k.toNat < 32) :
    (n >>> k &&& 63).toNat = n.toNat / 2 ^ k.toNat % 64 := by
  rw [UInt32.toNat_and, UInt32.toNat_shiftRight, Nat.mod_eq_of_lt hk, Nat.shiftRight_eq_div_pow]
  exact Nat.and_two_pow_sub_one_eq_mod _ 6

theorem repack {n : UInt32} (h : n.toNat < 2 ^ 24) :
    (n >>> 18 &&& 63) <<< 18 ||| (n >>> 12 &&& 63) <<< 12 ||| (n >>> 6 &&& 63) <<< 6 ||| (n &&& 63) = n := by
  have h3 : (n >>> 18 &&& 63).toNat = n.toNat / 2 ^ 18 % 64 := toNat_sextet n 18 (by decide)
  have h2 : (n >>> 12 &&& 63).toNat = n.toNat / 2 ^ 12 % 64 := toNat_sextet n 12 (by decide)
  have h1 : (n >>> 6 &&& 63).toNat = n.toNat / 2 ^ 6 % 64 := toNat_sextet n 6 (by decide)
  have h0 : (n &&& 63).toNat = n.toNat % 64 := by
    rw [UInt32.toNat_and]
    exact Nat.and_two_pow_sub_one_eq_mod _ 6
  generalize n >>> 18 &&& 63 = v3 at h3 ⊢
  generalize n >>> 12 &&& 63 = v2 at h2 ⊢
  generalize n >>> 6 &&& 63 = v1 at h1 ⊢
  generalize n &&& 63 = v0 at h0 ⊢
  have l2 : v2.toNat < 2 ^ 6 := by omega
  have l1 : v1.toNat < 2 ^ 6 := by omega
  have l0 : v0.toNat < 2 ^ 6 := by omega
  have hfits3 : v3.toNat <<< 18 % 2 ^ 32 = v3.toNat <<< 18 := by
    rw [Nat.shiftLeft_eq]
    omega
  have hfits2 : v2.toNat <<< 12 % 2 ^ 32 = v2.toNat <<< 12 := by
    rw [Nat.shiftLeft_eq]
    omega
  have hfits1 : v1.toNat <<< 6 % 2 ^ 32 = v1.toNat <<< 6 := by
    rw [Nat.shiftLeft_eq]
    omega
  apply UInt32.toNat_inj.mp
  simp only [UInt32.toNat_or, UInt32.toNat_shiftLeft]
  change ((v3.toNat <<< 18 % 2 ^ 32 ||| v2.toNat <<< 12 % 2 ^ 32) ||| v1.toNat <<< 6 % 2 ^ 32) ||| v0.toNat = _
  rw [hfits3, hfits2, hfits1, shiftLeft_or_shiftLeft l2 v3.toNat 12, shiftLeft_or_shiftLeft l1 _ 6,
    ← Nat.shiftLeft_add_eq_or_of_lt l0, Nat.shiftLeft_eq]
  omega

theorem sextets_pack_zero (a b : UInt8) : pack a 0 0 >>> 6 &&& 63 = 0 ∧ pack a b 0 &&& 63 = 0 := by
  constructor
  · apply UInt32.toNat_inj.mp
    rw [toNat_sextet _ 6 (by decide), toNat_pack]
    change (a.toNat * 65536 + 0 * 256 + 0) / 64 % 64 = 0
    omega
  · apply UInt32.toNat_inj.mp
    rw [UInt32.toNat_and, toNat_pack]
    change (a.toNat * 65536 + b.toNat * 256 + 0) &&& 2 ^ 6 - 1 = 0
    rw [Nat.and_two_pow_sub_one_eq_mod]
    omega

/-- A letter is one byte, and it stands for its six bits. -/
theorem letter_spec (n : UInt32) :
    ∃ c : UInt8, encodeUtf8 [letter n] = [c] ∧ c ≠ 61 ∧ val c = pure (n &&& 63) := by
  have halphabet : ∀ i : Fin 64, encodeUtf8 [alphabet.getD i '='] = [(alphabet.getD i '=').toNat.toUInt8] ∧
      (alphabet.getD i '=').toNat.toUInt8 ≠ 61 ∧
        (val (alphabet.getD i '=').toNat.toUInt8).run = some (.ok (.ofNat i)) := by
    decide
  have hlt : (n &&& 63).toNat < 64 := by
    rw [UInt32.toNat_and]
    exact Nat.lt_of_le_of_lt Nat.and_le_right (by decide)
  obtain ⟨hbyte, hpad, hval⟩ := halphabet ⟨(n &&& 63).toNat, hlt⟩
  refine ⟨_, hbyte, hpad, hval.trans ?_⟩
  rw [UInt32.ofNat_toNat]
  rfl

theorem padded_spec {p : Prop} [Decidable p] {n : UInt32} (hbits : ¬ p → n &&& 63 = 0) :
    ∃ c : UInt8, encodeUtf8 [if p then letter n else '='] = [c] ∧ (c = 61 ↔ ¬ p) ∧ padded c = pure (n &&& 63) := by
  obtain ⟨c, hbyte, hne, hval⟩ := letter_spec n
  by_cases hp : p
  · exact ⟨c, by rw [if_pos hp, hbyte], iff_of_false hne (not_not_intro hp), by rw [padded, if_neg hne, hval]⟩
  · refine ⟨61, ?_, iff_of_true rfl hp, by rw [padded, if_pos rfl, hbits hp]⟩
    rw [if_neg hp]
    decide

theorem decodeChunk_eq {c0 c1 c2 c3 : UInt8} {v0 v1 v2 v3 : UInt32} (h0 : val c0 = pure v0) (h1 : val c1 = pure v1)
    (h2 : padded c2 = pure v2) (h3 : padded c3 = pure v3) :
    decodeChunk [c0, c1, c2, c3] =
      let n := v0 <<< 18 ||| v1 <<< 12 ||| v2 <<< 6 ||| v3
      let pad := [c0, c1, c2, c3].count 61
      pure ([(n >>> 16).toUInt8] ++ (if pad < 2 then [(n >>> 8).toUInt8] else []) ++
        (if pad < 1 then [n.toUInt8] else [])) := by
  have i0 : index [c0, c1, c2, c3] 0 = pure c0 := rfl
  have i1 : index [c0, c1, c2, c3] 1 = pure c1 := rfl
  have i2 : index [c0, c1, c2, c3] 2 = pure c2 := rfl
  have i3 : index [c0, c1, c2, c3] 3 = pure c3 := rfl
  simp only [decodeChunk, i0, i1, i2, i3, pure_bind, h0, h1, h2, h3]

theorem count_pad {c0 c1 c2 c3 : UInt8} {length : Nat} (h0 : c0 ≠ 61) (h1 : c1 ≠ 61) (h2 : c2 = 61 ↔ ¬ 1 < length)
    (h3 : c3 = 61 ↔ ¬ 2 < length) :
    ([c0, c1, c2, c3].count 61 < 2 ↔ 1 < length) ∧ ([c0, c1, c2, c3].count 61 < 1 ↔ 2 < length) := by
  simp only [List.count_cons, List.count_nil, beq_iff_eq, if_neg h0, if_neg h1, h2, h3]
  split_ifs <;> omega

theorem getD_of_length_le {chunk : Bytes} {i : Nat} (h : chunk.length ≤ i) : chunk.getD i 0 = 0 := by
  rw [List.getD, List.getElem?_eq_none h]
  rfl

/-- **One piece of the bytes comes back.** -/
theorem decodeChunk_encodeChunk {chunk : Bytes} (hpos : 0 < chunk.length) (hle : chunk.length ≤ 3) :
    decodeChunk (encodeUtf8 (encodeChunk chunk)) = pure chunk ∧ (encodeUtf8 (encodeChunk chunk)).length = 4 := by
  rw [encodeChunk]
  have hlt := pack_lt (chunk.getD 0 0) (chunk.getD 1 0) (chunk.getD 2 0)
  obtain ⟨hfirst, hsecond, hthird⟩ := bytes_pack (chunk.getD 0 0) (chunk.getD 1 0) (chunk.getD 2 0)
  have hbits2 (hshort : ¬ 1 < chunk.length) :
      pack (chunk.getD 0 0) (chunk.getD 1 0) (chunk.getD 2 0) >>> 6 &&& 63 = 0 := by
    rw [getD_of_length_le (show chunk.length ≤ 1 by omega), getD_of_length_le (show chunk.length ≤ 2 by omega)]
    exact (sextets_pack_zero _ 0).1
  have hbits3 (hshort : ¬ 2 < chunk.length) :
      pack (chunk.getD 0 0) (chunk.getD 1 0) (chunk.getD 2 0) &&& 63 = 0 := by
    rw [getD_of_length_le (show chunk.length ≤ 2 by omega)]
    exact (sextets_pack_zero _ _).2
  generalize pack (chunk.getD 0 0) (chunk.getD 1 0) (chunk.getD 2 0) = n at *
  obtain ⟨c0, hbyte0, hne0, hval0⟩ := letter_spec (n >>> 18)
  obtain ⟨c1, hbyte1, hne1, hval1⟩ := letter_spec (n >>> 12)
  obtain ⟨c2, hbyte2, hpad2, hval2⟩ := padded_spec hbits2
  obtain ⟨c3, hbyte3, hpad3, hval3⟩ := padded_spec hbits3
  have hbytes : encodeUtf8 [letter (n >>> 18), letter (n >>> 12), if 1 < chunk.length then letter (n >>> 6) else '=',
      if 2 < chunk.length then letter n else '='] = [c0, c1, c2, c3] := by
    change encodeUtf8 ([letter (n >>> 18)] ++ ([letter (n >>> 12)] ++
      ([if 1 < chunk.length then letter (n >>> 6) else '='] ++ [if 2 < chunk.length then letter n else '=']))) = _
    rw [encodeUtf8_append, encodeUtf8_append, encodeUtf8_append, hbyte0, hbyte1, hbyte2, hbyte3]
    rfl
  obtain ⟨hcount2, hcount1⟩ := count_pad hne0 hne1 hpad2 hpad3
  refine ⟨?_, by rw [hbytes]; rfl⟩
  rw [hbytes, decodeChunk_eq hval0 hval1 hval2 hval3, repack hlt]
  simp only [hcount2, hcount1, hfirst, hsecond, hthird]
  match chunk, hpos, hle with
  | [a], _, _ => rfl
  | [a, b], _, _ => rfl
  | [a, b, c], _, _ => rfl

theorem mapM_decodeChunk {pieces : List Bytes} (h : ∀ piece ∈ pieces, 0 < piece.length ∧ piece.length ≤ 3) :
    (pieces.map fun piece => encodeUtf8 (encodeChunk piece)).mapM decodeChunk = pure pieces := by
  induction pieces with
  | nil => rfl
  | cons piece pieces ih =>
      obtain ⟨hpos, hle⟩ := h piece List.mem_cons_self
      rw [List.map_cons, List.mapM_cons, (decodeChunk_encodeChunk hpos hle).1,
        ih fun piece' hmem => h piece' (List.mem_cons_of_mem _ hmem)]
      rfl

theorem encodeUtf8_encode (bytes : Bytes) :
    encodeUtf8 (encode bytes) = (chunks 3 bytes).flatMap fun piece => encodeUtf8 (encodeChunk piece) := by
  rw [encode]
  induction chunks 3 bytes with
  | nil => rfl
  | cons piece pieces ih => rw [List.flatMap_cons, List.flatMap_cons, encodeUtf8_append, ih]

/-- **What is encoded is decoded.** -/
theorem decode_encode (bytes : Bytes) : decode (encode bytes) = pure bytes := by
  have hpieces : ∀ piece ∈ chunks 3 bytes, 0 < piece.length ∧ piece.length ≤ 3 :=
    fun piece hmem => length_of_mem_chunks (by decide) hmem
  have hlength : ∀ piece ∈ chunks 3 bytes, (encodeUtf8 (encodeChunk piece)).length = 4 :=
    fun piece hmem => (decodeChunk_encodeChunk (hpieces piece hmem).1 (hpieces piece hmem).2).2
  have hmod : (encodeUtf8 (encode bytes)).length % 4 = 0 := by
    rw [encodeUtf8_encode, List.length_flatMap, List.map_congr_left hlength, List.map_const', List.sum_replicate_nat]
    exact Nat.mul_mod_left _ 4
  rw [decode, if_neg (not_not_intro hmod), encodeUtf8_encode, chunks_flatMap (by decide) hlength,
    mapM_decodeChunk hpieces, pure_bind, flatten_chunks (by decide)]

end B64

/-! ### The record -/

open B64 (Run)

/-- A text that is no JSON, or no record: which of several faults is reported is the library's. -/
inductive LoadError where
  | invalidData
deriving DecidableEq, Repr

def FirePhase.variant : FirePhase → String
  | .accepted => "Accepted"
  | .countdown => "Countdown"
  | .fireStarted => "FireStarted"
  | .fireCompleted => "FireCompleted"

def FirePhase.ofVariant (name : String) : Option FirePhase :=
  [FirePhase.accepted, .countdown, .fireStarted, .fireCompleted].find? (·.variant == name)

/-- A variant is its name, or an object with its name as its one key. -/
def FirePhase.ofJson : Json → Option FirePhase
  | .str name => ofVariant name
  | .obj [(name, .null)] => ofVariant name
  | _ => none

theorem FirePhase.ofJson_variant (phase : FirePhase) : ofJson (.str phase.variant) = some phase := by
  cases phase <;> decide

def optionJson {α : Type} (toJson : α → Json) : Option α → Json
  | none => .null
  | some a => toJson a

def PendingRecord.entries (rec : PendingRecord) : List (String × Json) :=
  [("send_id", .str rec.sendId),
    ("content_sha256", .str rec.contentSha256),
    ("content_len", .num rec.contentLen.toNat),
    ("session", optionJson .str rec.session),
    ("name", optionJson .str rec.name),
    ("verb", .str rec.verb),
    ("transcript", optionJson .str rec.transcript),
    ("transcript_offset", optionJson (fun n : UInt64 => .num n.toNat) rec.transcriptOffset),
    ("priority", .bool rec.priority),
    ("accepted_at_ms", .num rec.acceptedAtMs.toInt),
    ("phase", .str rec.phase.variant),
    ("draft", .str (String.ofList (B64.encode rec.draft))),
    ("fire_started", .bool rec.fireStarted),
    ("fire_completed", .bool rec.fireCompleted)]

def PendingRecord.toJson (rec : PendingRecord) : Json := .obj rec.entries

section Fields

variable {α : Type}

def typed (read : Json → Option α) (j : Json) : Run LoadError α :=
  match read j with
  | some a => pure a
  | none => throw .invalidData

def required (entries : List (String × Json)) (key : String) (read : Json → Run LoadError α) : Run LoadError α :=
  match entries.filter (·.1 == key) with
  | [(_, j)] => read j
  | _ => throw .invalidData

/-- A field that may be missing, or be `null`. -/
def optional (entries : List (String × Json)) (key : String) (read : Json → Run LoadError α) :
    Run LoadError (Option α) :=
  match entries.filter (·.1 == key) with
  | [] => pure none
  | [(_, .null)] => pure none
  | [(_, j)] => some <$> read j
  | _ => throw .invalidData

def readStr : Json → Run LoadError String := typed Json.asStr

def readU64 : Json → Run LoadError UInt64 := typed fun j => j.asU64.map UInt64.ofNat

def readBool : Json → Run LoadError Bool :=
  typed fun
    | .bool b => some b
    | _ => none

def readDraft (j : Json) : Run LoadError Bytes := do
  let s ← readStr j
  (B64.decode s.toList).adapt fun _ => .invalidData

end Fields

def PendingRecord.ofEntries (entries : List (String × Json)) : Run LoadError PendingRecord := do
  let sendId ← required entries "send_id" readStr
  let contentSha256 ← required entries "content_sha256" readStr
  let contentLen ← required entries "content_len" readU64
  let session ← optional entries "session" readStr
  let name ← optional entries "name" readStr
  let verb ← required entries "verb" readStr
  let transcript ← optional entries "transcript" readStr
  let transcriptOffset ← optional entries "transcript_offset" readU64
  let priority ← required entries "priority" readBool
  let acceptedAtMs ← required entries "accepted_at_ms" (typed Json.asI64)
  let phase ← required entries "phase" (typed FirePhase.ofJson)
  let draft ← required entries "draft" readDraft
  let fireStarted ← required entries "fire_started" readBool
  let fireCompleted ← required entries "fire_completed" readBool
  return {
    sendId := sendId, contentSha256 := contentSha256, contentLen := contentLen, session := session, name := name
    verb := verb, transcript := transcript, transcriptOffset := transcriptOffset, priority := priority
    acceptedAtMs := acceptedAtMs, phase := phase, draft := draft, fireStarted := fireStarted
    fireCompleted := fireCompleted }

def PendingRecord.fields : List String :=
  ["send_id", "content_sha256", "content_len", "session", "name", "verb", "transcript", "transcript_offset",
    "priority", "accepted_at_ms", "phase", "draft", "fire_started", "fire_completed"]

/-- An object by its keys, or a list of all the fields in their order. -/
def PendingRecord.ofJson : Json → Run LoadError PendingRecord
  | .obj entries => ofEntries entries
  | .arr items =>
      if items.length = fields.length then ofEntries (fields.zip items) else throw .invalidData
  | _ => throw .invalidData

/-! ### The files -/

/-- The files of the directory, in the order in which they are listed. -/
abbrev Files := List (String × Bytes)

namespace Files

def read (files : Files) (name : String) : Option Bytes := files.lookup name

def write (files : Files) (name : String) (bytes : Bytes) : Files :=
  if (files.read name).isSome then files.map fun file => if file.1 = name then (name, bytes) else file
  else files ++ [(name, bytes)]

/-- `rename`: the file takes the other name, and the place of the file of that name. -/
def rename (files : Files) (old new : String) : Files :=
  match files.read old with
  | none => files
  | some bytes => Files.write (files.filter (·.1 != old)) new bytes

end Files

namespace SpoolFile

def recordPath (sendId : String) : String := sendId ++ ".json"

def tmpPath (sendId : String) : String := "." ++ sendId ++ ".json.tmp"

def write (serde : SerdeJson) (files : Files) (rec : PendingRecord) : Files :=
  (files.write (tmpPath rec.sendId) (serde.toVec rec.toJson)).rename (tmpPath rec.sendId) (recordPath rec.sendId)

/-- `from_slice` of the bytes of a file. -/
def fromSlice (serde : SerdeJson) (bytes : Bytes) : Run LoadError PendingRecord :=
  match serde.fromSlice bytes with
  | some j => PendingRecord.ofJson j
  | none => throw .invalidData

def load (serde : SerdeJson) (files : Files) (sendId : String) : Run LoadError (Option PendingRecord) :=
  match files.read (recordPath sendId) with
  | some bytes => some <$> fromSlice serde bytes
  | none => pure none

/-- `Path::extension`: behind the last dot, unless the name begins with it. -/
def extension (name : String) : Option (List Char) :=
  let front := (name.toList.reverse.dropWhile (· != '.')).reverse
  if front.length ≤ 1 then none else some (name.toList.drop front.length)

def isRecord (name : String) : Bool :=
  extension name == some ['j', 's', 'o', 'n'] && name.toList.head? != some '.'

def loadAll (serde : SerdeJson) (files : Files) : Option (List PendingRecord) := do
  let results ← (files.filter (isRecord ·.1)).mapM fun file => (fromSlice serde file.2).run
  return results.filterMap Except.toOption

end SpoolFile

/-! ### The record is read back -/

theorem filter_key {entries : List (String × Json)} {key : String} {j : Json} (hnodup : (entries.map Prod.fst).Nodup)
    (hmem : (key, j) ∈ entries) : entries.filter (·.1 == key) = [(key, j)] := by
  induction entries with
  | nil => exact absurd hmem List.not_mem_nil
  | cons entry entries ih =>
      rw [List.map_cons, List.nodup_cons] at hnodup
      rcases List.mem_cons.mp hmem with rfl | hmem
      · have hrest : entries.filter (·.1 == key) = [] := by
          refine List.filter_eq_nil_iff.mpr fun entry hentry hkey => hnodup.1 ?_
          exact List.mem_map.mpr ⟨entry, hentry, beq_iff_eq.mp hkey⟩
        rw [List.filter_cons, if_pos (beq_self_eq_true key), hrest]
      · have hne : ¬ (entry.1 == key) = true := fun hkey =>
          hnodup.1 (List.mem_map.mpr ⟨_, hmem, (beq_iff_eq.mp hkey).symm⟩)
        rw [List.filter_cons, if_neg hne, ih hnodup.2 hmem]

namespace PendingRecord

variable (rec : PendingRecord)

theorem map_fst_entries : rec.entries.map Prod.fst = fields := rfl

theorem nodup_fields : fields.Nodup := by decide

theorem filter_entries (i : Nat) {key : String} {j : Json} (h : rec.entries[i]? = some (key, j)) :
    rec.entries.filter (·.1 == key) = [(key, j)] :=
  filter_key (rec.map_fst_entries ▸ nodup_fields) (List.mem_of_getElem? h)

theorem required_entries (i : Nat) {key : String} {j : Json} (h : rec.entries[i]? = some (key, j)) {α : Type}
    (read : Json → Run LoadError α) : required rec.entries key read = read j := by
  rw [required, rec.filter_entries i h]

theorem optional_entries (i : Nat) {key : String} {α : Type} {toJson : α → Json} {a? : Option α}
    (h : rec.entries[i]? = some (key, optionJson toJson a?)) {read : Json → Run LoadError α}
    (hread : ∀ a, toJson a ≠ .null ∧ read (toJson a) = pure a) : optional rec.entries key read = pure a? := by
  rw [optional, rec.filter_entries i h]
  cases a? with
  | none => rfl
  | some a =>
      obtain ⟨hne, heq⟩ := hread a
      rw [optionJson]
      generalize toJson a = j at hne heq
      cases j with
      | null => exact absurd rfl hne
      | _ => exact congrArg (some <$> ·) heq

theorem typed_eq {α : Type} {read : Json → Option α} {j : Json} {a : α} (h : read j = some a) :
    typed read j = pure a := by
  rw [typed, h]

theorem readU64_toNat (n : UInt64) : readU64 (.num n.toNat) = pure n := by
  apply typed_eq
  rw [Json.asU64_natCast n.toNat_lt, Option.map_some, UInt64.ofNat_toNat]

theorem readDraft_str (s : String) :
    readDraft (.str s) = (B64.decode s.toList).adapt fun _ => LoadError.invalidData := rfl

theorem readDraft_encode (draft : Bytes) : readDraft (.str (String.ofList (B64.encode draft))) = pure draft := by
  rw [readDraft_str, String.toList_ofList, B64.decode_encode]
  rfl

/-- **A record is read back.** -/
theorem ofJson_toJson : ofJson rec.toJson = pure rec := by
  have h0 : required rec.entries "send_id" readStr = pure rec.sendId := rec.required_entries 0 rfl readStr
  have h1 : required rec.entries "content_sha256" readStr = pure rec.contentSha256 :=
    rec.required_entries 1 rfl readStr
  have h2 : required rec.entries "content_len" readU64 = pure rec.contentLen :=
    (rec.required_entries 2 rfl readU64).trans (readU64_toNat _)
  have h3 : optional rec.entries "session" readStr = pure rec.session :=
    rec.optional_entries 3 rfl fun _ => ⟨nofun, rfl⟩
  have h4 : optional rec.entries "name" readStr = pure rec.name :=
    rec.optional_entries 4 rfl fun _ => ⟨nofun, rfl⟩
  have h5 : required rec.entries "verb" readStr = pure rec.verb := rec.required_entries 5 rfl readStr
  have h6 : optional rec.entries "transcript" readStr = pure rec.transcript :=
    rec.optional_entries 6 rfl fun _ => ⟨nofun, rfl⟩
  have h7 : optional rec.entries "transcript_offset" readU64 = pure rec.transcriptOffset :=
    rec.optional_entries 7 rfl fun n => ⟨nofun, readU64_toNat n⟩
  have h8 : required rec.entries "priority" readBool = pure rec.priority := rec.required_entries 8 rfl readBool
  have h9 : required rec.entries "accepted_at_ms" (typed Json.asI64) = pure rec.acceptedAtMs :=
    (rec.required_entries 9 rfl _).trans (typed_eq (Json.asI64_num_toInt _))
  have h10 : required rec.entries "phase" (typed FirePhase.ofJson) = pure rec.phase :=
    (rec.required_entries 10 rfl _).trans (typed_eq rec.phase.ofJson_variant)
  have h11 : required rec.entries "draft" readDraft = pure rec.draft :=
    (rec.required_entries 11 rfl readDraft).trans (readDraft_encode _)
  have h12 : required rec.entries "fire_started" readBool = pure rec.fireStarted :=
    rec.required_entries 12 rfl readBool
  have h13 : required rec.entries "fire_completed" readBool = pure rec.fireCompleted :=
    rec.required_entries 13 rfl readBool
  change ofEntries rec.entries = pure rec
  rw [ofEntries, h0, h1, h2, h3, h4, h5, h6, h7, h8, h9, h10, h11, h12, h13]
  simp only [pure_bind]

end PendingRecord

/-! ### Reading stops nowhere -/

namespace PendingRecord

open B64 (Ends)

theorem ends_typed {α : Type} (read : Json → Option α) (j : Json) : Ends (typed read j) := by
  rw [typed]
  split
  · exact .pure _
  · exact .throw _

theorem ends_required {α : Type} {read : Json → Run LoadError α} (hread : ∀ j, Ends (read j))
    (entries : List (String × Json)) (key : String) : Ends (required entries key read) := by
  rw [required]
  split
  · exact hread _
  · exact .throw _

theorem ends_optional {α : Type} {read : Json → Run LoadError α} (hread : ∀ j, Ends (read j))
    (entries : List (String × Json)) (key : String) : Ends (optional entries key read) := by
  rw [optional]
  split
  · exact .pure _
  · exact .pure _
  · rw [map_eq_pure_bind]
    exact (hread _).bind fun _ => .pure _
  · exact .throw _

theorem ends_readDraft (j : Json) : Ends (readDraft j) := by
  rw [readDraft]
  refine (ends_typed _ j).bind fun s => ?_
  have h := B64.ends_decode s.toList
  rw [B64.Ends, Ne, ExceptT.run] at *
  intro hnone
  exact h (Option.map_eq_none_iff.mp hnone)

theorem ends_ofEntries (entries : List (String × Json)) : Ends (ofEntries entries) := by
  have hstr : ∀ j, Ends (readStr j) := ends_typed _
  have hu64 : ∀ j, Ends (readU64 j) := ends_typed _
  have hbool : ∀ j, Ends (readBool j) := ends_typed _
  rw [ofEntries]
  refine (ends_required hstr _ _).bind fun _ => (ends_required hstr _ _).bind fun _ => ?_
  refine (ends_required hu64 _ _).bind fun _ => (ends_optional hstr _ _).bind fun _ => ?_
  refine (ends_optional hstr _ _).bind fun _ => (ends_required hstr _ _).bind fun _ => ?_
  refine (ends_optional hstr _ _).bind fun _ => (ends_optional hu64 _ _).bind fun _ => ?_
  refine (ends_required hbool _ _).bind fun _ => (ends_required (ends_typed _) _ _).bind fun _ => ?_
  refine (ends_required (ends_typed _) _ _).bind fun _ => (ends_required ends_readDraft _ _).bind fun _ => ?_
  exact (ends_required hbool _ _).bind fun _ => (ends_required hbool _ _).bind fun _ => .pure _

theorem ends_ofJson (j : Json) : Ends (ofJson j) := by
  cases j with
  | obj entries => exact ends_ofEntries entries
  | arr items =>
      rw [ofJson]
      split
      · exact ends_ofEntries _
      · exact .throw _
  | _ => exact .throw _

end PendingRecord

/-! ### The file is read back -/

namespace Files

variable {files : Files} {name : String} {bytes : Bytes}

theorem read_write : (files.write name bytes).read name = some bytes := by
  rw [write]
  split
  next hpresent =>
    induction files with
    | nil => cases hpresent
    | cons file files ih =>
        rw [List.map_cons, read, List.lookup_cons]
        by_cases hname : file.1 = name
        · rw [if_pos hname, beq_self_eq_true]
        · have hne : (name == file.1) = false := beq_eq_false_iff_ne.mpr (Ne.symm hname)
          rw [read, List.lookup_cons, hne] at hpresent
          rw [if_neg hname, hne]
          exact ih hpresent
  next habsent =>
    rw [Option.not_isSome_iff_eq_none, read] at habsent
    rw [read, List.lookup_append, habsent, Option.none_or, List.lookup_cons_self]

theorem read_rename {old new : String} (h : files.read old = some bytes) :
    (files.rename old new).read new = some bytes := by
  rw [rename, h]
  exact read_write

theorem mem_of_read (h : files.read name = some bytes) : (name, bytes) ∈ files := by
  obtain ⟨front, rest, heq, -⟩ := List.lookup_eq_some_iff.mp h
  rw [heq]
  exact List.mem_append_right _ List.mem_cons_self

end Files

namespace SpoolFile

variable {serde : SerdeJson} {files : Files} {rec : PendingRecord}

theorem read_write : (write serde files rec).read (recordPath rec.sendId) = some (serde.toVec rec.toJson) :=
  Files.read_rename Files.read_write

theorem fromSlice_toVec (h : serde.fromSlice (serde.toVec rec.toJson) = some rec.toJson) :
    fromSlice serde (serde.toVec rec.toJson) = pure rec := by
  rw [fromSlice, h]
  exact rec.ofJson_toJson

theorem ends_fromSlice (bytes : Bytes) : B64.Ends (fromSlice serde bytes) := by
  rw [fromSlice]
  split
  · exact PendingRecord.ends_ofJson _
  · exact .throw _

theorem mem_mapM {α β : Type} {f : α → Option β} {xs : List α} (h : ∀ x ∈ xs, f x ≠ none) :
    ∃ ys, xs.mapM f = some ys ∧ ∀ x ∈ xs, ∀ y, f x = some y → y ∈ ys := by
  induction xs with
  | nil => exact ⟨[], rfl, fun _ hmem => absurd hmem List.not_mem_nil⟩
  | cons x xs ih =>
      obtain ⟨ys, hys, hmem⟩ := ih fun x' hx' => h x' (List.mem_cons_of_mem _ hx')
      obtain ⟨y, hy⟩ := Option.ne_none_iff_exists'.mp (h x List.mem_cons_self)
      refine ⟨y :: ys, by rw [List.mapM_cons, hy, hys]; rfl, ?_⟩
      rintro x' hx' y' hy'
      rcases List.mem_cons.mp hx' with rfl | hx'
      · rw [hy, Option.some.injEq] at hy'
        rw [hy']
        exact List.mem_cons_self
      · exact List.mem_cons_of_mem _ (hmem x' hx' y' hy')

theorem mem_loadAll {name : String} {bytes : Bytes} (hfile : (name, bytes) ∈ files) (hrecord : isRecord name = true)
    (hread : fromSlice serde bytes = pure rec) : ∃ recs, loadAll serde files = some recs ∧ rec ∈ recs := by
  have hends : ∀ file ∈ files.filter (isRecord ·.1), (fromSlice serde file.2).run ≠ none :=
    fun file _ => ends_fromSlice file.2
  obtain ⟨results, hresults, hmem⟩ := mem_mapM hends
  refine ⟨results.filterMap Except.toOption, by rw [loadAll, hresults]; rfl, ?_⟩
  refine List.mem_filterMap.mpr ⟨.ok rec, ?_, rfl⟩
  exact hmem _ (List.mem_filter.mpr ⟨hfile, hrecord⟩) _ (congrArg ExceptT.run hread)

/-- **The spool gives back what it was given.** What is encoded is decoded, the decoder stays within its
chunks on every text, and a record that is written is read back, by its id and with all the others. -/
theorem spool_roundTrip (bytes : Bytes) (text : List Char)
    (hserde : serde.fromSlice (serde.toVec rec.toJson) = some rec.toJson) :
    B64.decode (B64.encode bytes) = pure bytes ∧ B64.Ends (B64.decode text) ∧
      load serde (write serde files rec) rec.sendId = pure (some rec) ∧
        (isRecord (recordPath rec.sendId) = true →
          ∃ recs : List PendingRecord, loadAll serde (write serde files rec) = some recs ∧ rec ∈ recs) := by
  refine ⟨B64.decode_encode bytes, B64.ends_decode text, ?_, fun hrecord => ?_⟩
  · rw [load, read_write]
    change some <$> fromSlice serde (serde.toVec rec.toJson) = _
    rw [fromSlice_toVec hserde]
    rfl
  · exact mem_loadAll (Files.mem_of_read read_write) hrecord (fromSlice_toVec hserde)

def heldSend : PendingRecord where
  sendId := "7-9-1"
  contentSha256 := "ab"
  contentLen := 2
  session := some "s"
  name := none
  verb := "send:pty"
  priority := false
  acceptedAtMs := 9
  phase := .countdown
  draft := [104, 255]

theorem spool_roundTrip_heldSend :
    B64.decode (B64.encode [104, 255]) = pure [104, 255] ∧ B64.Ends (B64.decode ['=']) ∧
      load (.knowing [heldSend.toJson]) (write (.knowing [heldSend.toJson]) [] heldSend) "7-9-1" =
          pure (some heldSend) ∧
        (isRecord (recordPath "7-9-1") = true → ∃ recs : List PendingRecord,
          loadAll (.knowing [heldSend.toJson]) (write (.knowing [heldSend.toJson]) [] heldSend) = some recs ∧
            heldSend ∈ recs) :=
  spool_roundTrip [104, 255] ['='] (SerdeJson.lawfulAt_knowing_singleton rfl).roundTrip

end SpoolFile

end QuorumDispatch.Attended
