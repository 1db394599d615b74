import Std.Data.String.ToNat
import Mathlib.Data.List.Basic
import Mathlib.Data.List.Infix

/-!
Bytes and text. Files are lists of bytes; the readers that go through a string
first decode them as UTF-8 and see nothing at all when the bytes are not valid.
Encoding and decoding are those of the core library, restated on lists of bytes
so that an append to a file is an append of lists.
-/

namespace QuorumDispatch.Lib

abbrev Bytes := List UInt8

def newline : UInt8 := 10

def encodeUtf8 (cs : List Char) : Bytes := cs.flatMap String.utf8EncodeChar

def decodeUtf8 (bs : Bytes) : Option (List Char) :=
  bs.toByteArray.utf8Decode?.map Array.toList

@[simp] theorem encodeUtf8_nil : encodeUtf8 [] = [] := rfl

@[simp] theorem encodeUtf8_append (cs ds : List Char) :
    encodeUtf8 (cs ++ ds) = encodeUtf8 cs ++ encodeUtf8 ds := by
  simp [encodeUtf8]

theorem encodeUtf8_toByteArray (cs : List Char) :
    (encodeUtf8 cs).toByteArray = cs.utf8Encode := rfl

@[simp] theorem decodeUtf8_encodeUtf8 (cs : List Char) :
    decodeUtf8 (encodeUtf8 cs) = some cs := by
  simp [decodeUtf8, encodeUtf8_toByteArray]

theorem encodeUtf8_of_decodeUtf8 {bs : Bytes} {cs : List Char}
    (h : decodeUtf8 bs = some cs) : encodeUtf8 cs = bs := by
  unfold decodeUtf8 at h
  obtain ⟨arr, harr, rfl⟩ := Option.map_eq_some_iff.mp h
  have hsome : bs.toByteArray.utf8Decode?.isSome := by simp [harr]
  have hget : bs.toByteArray.utf8Decode?.get hsome = arr := by simp [harr]
  have henc := ByteArray.utf8Encode_get_utf8Decode? (h := hsome)
  rw [hget, ← encodeUtf8_toByteArray] at henc
  simpa using congrArg (fun b : ByteArray => b.data.toList) henc

theorem encodeUtf8_injective {cs ds : List Char} (h : encodeUtf8 cs = encodeUtf8 ds) :
    cs = ds := by
  have hdecode := congrArg decodeUtf8 h
  simpa using hdecode

theorem find?_text {α β : Type} [DecidableEq α] [DecidableEq β] {f : α → β} (hinj : ∀ a b, f a = f b ↔ a = b)
    {xs : List α} {x : α} (hx : x ∈ xs) : xs.find? (fun a => f a = f x) = some x := by
  induction xs with
  | nil => cases hx
  | cons a xs ih =>
      by_cases ha : a = x
      · subst ha
        exact List.find?_cons_of_pos (by simp)
      · rw [List.find?_cons_of_neg (by simpa [hinj] using ha)]
        exact ih (List.mem_of_ne_of_mem (Ne.symm ha) hx)

theorem encodeUtf8_mono {cs ds : List Char} (h : cs <+: ds) :
    encodeUtf8 cs <+: encodeUtf8 ds := by
  obtain ⟨rest, rfl⟩ := h
  exact ⟨encodeUtf8 rest, (encodeUtf8_append cs rest).symm⟩

theorem decodeUtf8_append_encodeUtf8 {bs : Bytes} {cs : List Char}
    (h : decodeUtf8 bs = some cs) (ds : List Char) :
    decodeUtf8 (bs ++ encodeUtf8 ds) = some (cs ++ ds) := by
  rw [← encodeUtf8_of_decodeUtf8 h, ← encodeUtf8_append, decodeUtf8_encodeUtf8]

@[simp] theorem encodeUtf8_newline : encodeUtf8 ['\n'] = [newline] := by
  decide

theorem utf8EncodeChar_ascii {c : Char} (h : c.toNat < 128) : String.utf8EncodeChar c = [c.toNat.toUInt8] := by
  have hle : c.val.toNat ≤ 0x7f := Nat.le_of_lt_succ h
  rw [String.utf8EncodeChar]
  simp only [hle, if_true]
  rfl

theorem le_of_mem_utf8EncodeChar {c : Char} (h : 128 ≤ c.toNat) {b : UInt8} (hb : b ∈ String.utf8EncodeChar c) :
    128 ≤ b.toNat := by
  have hlarge : ¬ c.val.toNat ≤ 0x7f := Nat.not_le_of_lt h
  have hbyte : ∃ n, 128 ≤ n ∧ n < 256 ∧ b = UInt8.ofNat n := by
    unfold String.utf8EncodeChar at hb
    simp only [hlarge, if_false] at hb
    split_ifs at hb <;> simp only [List.mem_cons, List.not_mem_nil, or_false] at hb
    · rcases hb with hb | hb <;> exact ⟨_, by omega, by omega, hb⟩
    · rcases hb with hb | hb | hb <;> exact ⟨_, by omega, by omega, hb⟩
    · rcases hb with hb | hb | hb | hb <;> exact ⟨_, by omega, by omega, hb⟩
  obtain ⟨n, hlow, hhigh, rfl⟩ := hbyte
  rw [UInt8.toNat_ofNat_of_lt' hhigh]
  exact hlow

theorem eq_newline_of_mem_utf8EncodeChar {c : Char}
    (h : newline ∈ String.utf8EncodeChar c) : c = '\n' := by
  have hascii : c.toNat < 128 := by
    by_contra hlarge
    exact absurd (le_of_mem_utf8EncodeChar (Nat.le_of_not_lt hlarge) h) (by decide)
  rw [utf8EncodeChar_ascii hascii, List.mem_singleton] at h
  have hnat := congrArg UInt8.toNat h
  rw [Nat.toUInt8, UInt8.toNat_ofNat_of_lt' (Nat.lt_trans hascii (by decide))] at hnat
  exact Char.toNat_inj.mp hnat.symm

theorem newline_notMem_encodeUtf8 {cs : List Char} (h : '\n' ∉ cs) :
    newline ∉ encodeUtf8 cs := by
  intro hmem
  obtain ⟨c, hc, hb⟩ := List.mem_flatMap.mp hmem
  exact h (eq_newline_of_mem_utf8EncodeChar hb ▸ hc)

/-- Whether a file that is cut off before the position ends with a whole character. -/
def charBoundary (bs : Bytes) (n : Nat) : Bool := (bs[n]?).all fun b => decide b.IsUTF8FirstByte

theorem exists_prefix_of_charBoundary {cs : List Char} {n : Nat}
    (h : charBoundary (encodeUtf8 cs) n = true) :
    ∃ p, p <+: cs ∧ (encodeUtf8 cs).take n = encodeUtf8 p := by
  induction cs generalizing n with
  | nil => exact ⟨[], List.prefix_refl [], List.take_nil⟩
  | cons c cs ih =>
      have hcons : encodeUtf8 (c :: cs) = String.utf8EncodeChar c ++ encodeUtf8 cs := rfl
      by_cases hn : n < (String.utf8EncodeChar c).length
      · -- only the first byte of a character starts one
        have hget : (encodeUtf8 (c :: cs))[n]? = some (String.utf8EncodeChar c)[n] := by
          rw [hcons, List.getElem?_append_left hn, List.getElem?_eq_getElem hn]
        rw [charBoundary, hget, Option.all_some, decide_eq_true_iff] at h
        have hzero : n = 0 := UInt8.isUTF8FirstByte_getElem_utf8EncodeChar.mp h
        subst hzero
        exact ⟨[], List.nil_prefix, rfl⟩
      · have hle : (String.utf8EncodeChar c).length ≤ n := Nat.le_of_not_lt hn
        have hrest : charBoundary (encodeUtf8 cs) (n - (String.utf8EncodeChar c).length) = true := by
          rw [charBoundary, hcons, List.getElem?_append_right hle] at h
          exact h
        obtain ⟨p, hp, htake⟩ := ih hrest
        refine ⟨c :: p, (List.prefix_cons_inj c).mpr hp, ?_⟩
        rw [hcons, List.take_append, List.take_of_length_le hle, htake]
        rfl

/-! ### Whitespace -/

/-- The Unicode `White_Space` property, by which `str::trim` trims. -/
def isWhitespace (c : Char) : Bool :=
  let n := c.toNat
  (9 ≤ n && n ≤ 13) || n == 0x20 || n == 0x85 || n == 0xA0 || n == 0x1680 ||
    (0x2000 ≤ n && n ≤ 0x200A) || n == 0x2028 || n == 0x2029 || n == 0x202F ||
    n == 0x205F || n == 0x3000

/-- `u8::is_ascii_whitespace`. -/
def isAsciiWhitespace (b : UInt8) : Bool :=
  b == 0x20 || b == 0x09 || b == 0x0A || b == 0x0C || b == 0x0D

/-- `str::trim`. -/
def trim (cs : List Char) : List Char :=
  ((cs.dropWhile isWhitespace).reverse.dropWhile isWhitespace).reverse

theorem trim_isPrefix {cs : List Char}
    (hhead : ∀ c, cs.head? = some c → isWhitespace c = false) : trim cs <+: cs := by
  have hfront : cs.dropWhile isWhitespace = cs := by
    cases cs with
    | nil => rfl
    | cons c cs => simp [hhead c rfl]
  rw [trim, hfront, ← List.reverse_suffix, List.reverse_reverse]
  exact List.dropWhile_suffix _

theorem trim_eq_self {cs : List Char}
    (hhead : ∀ c, cs.head? = some c → isWhitespace c = false)
    (hlast : ∀ c, cs.getLast? = some c → isWhitespace c = false) : trim cs = cs := by
  have hfront : cs.dropWhile isWhitespace = cs := by
    cases cs with
    | nil => rfl
    | cons c cs => simp [hhead c rfl]
  have hback : cs.reverse.dropWhile isWhitespace = cs.reverse := by
    cases hrev : cs.reverse with
    | nil => rfl
    | cons c rest =>
        have hc : cs.getLast? = some c := by
          rw [← List.head?_reverse, hrev]
          rfl
        simp [hlast c hc]
  rw [trim, hfront, hback, List.reverse_reverse]

/-! ### Decimal texts -/

theorem natRepr_ne_neg (n : Nat) (text : String) : n.repr ≠ "-" ++ text := by
  intro heq
  have hdigits : n.repr.toList = Nat.toDigits 10 n := String.toList_ofList
  rw [heq, String.toList_append] at hdigits
  have hmem : '-' ∈ Nat.toDigits 10 n := by
    rw [← hdigits]
    exact List.mem_append_left _ (by decide)
  exact absurd (Nat.isDigit_of_mem_toDigits (by decide) (by decide) hmem) (by decide)

theorem intToString_injective {a b : Int} (h : toString a = toString b) : a = b := by
  rw [Int.toString_eq_repr, Int.toString_eq_repr, Int.repr_eq_if, Int.repr_eq_if] at h
  by_cases ha : 0 ≤ a <;> by_cases hb : 0 ≤ b
  · rw [if_pos ha, if_pos hb] at h
    have := Nat.repr_injective h
    omega
  · rw [if_pos ha, if_neg hb] at h
    exact absurd h (natRepr_ne_neg _ _)
  · rw [if_neg ha, if_pos hb] at h
    exact absurd h.symm (natRepr_ne_neg _ _)
  · rw [if_neg ha, if_neg hb] at h
    have := Nat.repr_injective ((String.append_right_inj "-").mp h)
    omega
end QuorumDispatch.Lib
