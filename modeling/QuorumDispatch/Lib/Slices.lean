import QuorumDispatch.Lib.Text

/-!
Positions in a text. A string is indexed by its bytes, and a slice of it has to begin and
end between two characters; otherwise the program stops, which is `none` here. A position
that is reached by walking over whole characters is between two of them.
-/

namespace QuorumDispatch.Lib

/-- `str::len`. -/
def byteLen (cs : List Char) : Nat := (encodeUtf8 cs).length

@[simp] theorem byteLen_nil : byteLen [] = 0 := rfl

@[simp] theorem byteLen_append (cs ds : List Char) : byteLen (cs ++ ds) = byteLen cs + byteLen ds := by
  simp [byteLen]

@[simp] theorem byteLen_cons (c : Char) (cs : List Char) :
    byteLen (c :: cs) = c.utf8Size + byteLen cs := by
  change (String.utf8EncodeChar c ++ encodeUtf8 cs).length = _
  rw [List.length_append, String.length_utf8EncodeChar]
  rfl

theorem byteLen_eq_zero {cs : List Char} : byteLen cs = 0 ↔ cs = [] := by
  cases cs with
  | nil => simp
  | cons c cs => simp [Nat.pos_iff_ne_zero.mp c.utf8Size_pos]

theorem charBoundary_zero (cs : List Char) : charBoundary (encodeUtf8 cs) 0 = true := by
  cases cs with
  | nil => rfl
  | cons c cs =>
      have hpos : 0 < (String.utf8EncodeChar c).length := by
        rw [String.length_utf8EncodeChar]
        exact c.utf8Size_pos
      have hget : (encodeUtf8 (c :: cs))[0]? = some (String.utf8EncodeChar c)[0] := by
        change (String.utf8EncodeChar c ++ encodeUtf8 cs)[0]? = _
        rw [List.getElem?_append_left hpos, List.getElem?_eq_getElem hpos]
      rw [charBoundary, hget, Option.all_some, decide_eq_true_iff]
      exact UInt8.isUTF8FirstByte_getElem_utf8EncodeChar.mpr rfl

theorem charBoundary_byteLen (front rest : List Char) :
    charBoundary (encodeUtf8 (front ++ rest)) (byteLen front) = true := by
  have hget : (encodeUtf8 (front ++ rest))[byteLen front]? = (encodeUtf8 rest)[0]? := by
    rw [encodeUtf8_append, byteLen, List.getElem?_append_right (Nat.le_refl _), Nat.sub_self]
  rw [charBoundary, hget]
  exact charBoundary_zero rest

/-! ### Positions -/

/-- What is left of a text at a position between two of its characters. -/
def Rest (text : List Char) (i : Nat) (rest : List Char) : Prop := ∃ front, text = front ++ rest ∧ i = byteLen front

namespace Rest

variable {text rest : List Char} {i : Nat} {c : Char}

theorem start (text : List Char) : Rest text 0 text := ⟨[], rfl, rfl⟩

theorem byteLen_eq (h : Rest text i rest) : byteLen text = i + byteLen rest := by
  obtain ⟨front, rfl, rfl⟩ := h
  exact byteLen_append front rest

theorem next (h : Rest text i (c :: rest)) : Rest text (i + c.utf8Size) rest := by
  obtain ⟨front, rfl, rfl⟩ := h
  refine ⟨front ++ [c], by rw [List.append_assoc, List.singleton_append], ?_⟩
  rw [byteLen_append, byteLen_cons, byteLen_nil, Nat.add_zero]

theorem getElem?_add (h : Rest text i rest) (k : Nat) : (encodeUtf8 text)[i + k]? = (encodeUtf8 rest)[k]? := by
  obtain ⟨front, rfl, rfl⟩ := h
  rw [encodeUtf8_append, byteLen, List.getElem?_append_right (Nat.le_add_right _ _), Nat.add_sub_cancel_left]

theorem getElem?_nil (h : Rest text i []) : (encodeUtf8 text)[i]? = none := h.getElem?_add 0

theorem getElem?_char (h : Rest text i (c :: rest)) {k : Nat} (hk : k < c.utf8Size) :
    ∃ b, (encodeUtf8 text)[i + k]? = some b ∧ b ∈ String.utf8EncodeChar c ∧ (b.IsUTF8FirstByte ↔ k = 0) := by
  have hlen : k < (String.utf8EncodeChar c).length := by rwa [String.length_utf8EncodeChar]
  refine ⟨(String.utf8EncodeChar c)[k], ?_, List.getElem_mem hlen, UInt8.isUTF8FirstByte_getElem_utf8EncodeChar⟩
  rw [h.getElem?_add]
  change (String.utf8EncodeChar c ++ encodeUtf8 rest)[k]? = _
  rw [List.getElem?_append_left hlen, List.getElem?_eq_getElem hlen]

theorem getElem?_ascii (h : Rest text i (c :: rest)) (hc : c.toNat < 128) :
    (encodeUtf8 text)[i]? = some c.toNat.toUInt8 := by
  obtain ⟨b, hget, hmem, -⟩ := h.getElem?_char c.utf8Size_pos
  rw [utf8EncodeChar_ascii hc, List.mem_singleton] at hmem
  rw [hmem] at hget
  exact hget

theorem next_ascii (h : Rest text i (c :: rest)) (hc : c.toNat < 128) : Rest text (i + 1) rest := by
  have hsize : c.utf8Size = 1 := by rw [← String.length_utf8EncodeChar, utf8EncodeChar_ascii hc, List.length_singleton]
  exact hsize ▸ h.next

theorem charBoundary (h : Rest text i rest) : charBoundary (encodeUtf8 text) i = true := by
  obtain ⟨front, rfl, rfl⟩ := h
  exact charBoundary_byteLen front rest

theorem charBoundary_within (h : Rest text i (c :: rest)) {k : Nat} (hpos : k ≠ 0) (hk : k < c.utf8Size) :
    Lib.charBoundary (encodeUtf8 text) (i + k) = false := by
  obtain ⟨b, hget, -, hfirst⟩ := h.getElem?_char hk
  rw [Lib.charBoundary, hget, Option.all_some, decide_eq_false_iff_not, hfirst]
  exact hpos

end Rest

/-! ### Slices -/

/-- `&text[start..end]`. -/
def slice? (text : List Char) (start stop : Nat) : Option (List Char) :=
  let bytes := encodeUtf8 text
  if start ≤ stop ∧ stop ≤ bytes.length ∧ charBoundary bytes start = true ∧ charBoundary bytes stop = true then
    decodeUtf8 ((bytes.drop start).take (stop - start))
  else none

/-- `&text[start..]`. -/
def sliceFrom? (text : List Char) (start : Nat) : Option (List Char) := slice? text start (byteLen text)

theorem slice?_append (front mid rest : List Char) :
    slice? (front ++ mid ++ rest) (byteLen front) (byteLen front + byteLen mid) = some mid := by
  have hstart : charBoundary (encodeUtf8 (front ++ mid ++ rest)) (byteLen front) = true := by
    rw [List.append_assoc]
    exact charBoundary_byteLen front (mid ++ rest)
  have hstop : charBoundary (encodeUtf8 (front ++ mid ++ rest)) (byteLen front + byteLen mid) = true := by
    rw [← byteLen_append]
    exact charBoundary_byteLen (front ++ mid) rest
  have hle : byteLen front + byteLen mid ≤ (encodeUtf8 (front ++ mid ++ rest)).length := by
    change _ ≤ byteLen (front ++ mid ++ rest)
    rw [byteLen_append, byteLen_append]
    exact Nat.le_add_right _ _
  rw [slice?]
  rw [if_pos ⟨Nat.le_add_right _ _, hle, hstart, hstop⟩, Nat.add_sub_cancel_left, List.append_assoc,
    encodeUtf8_append, encodeUtf8_append mid, byteLen, byteLen, List.drop_left, List.take_left,
    decodeUtf8_encodeUtf8]

theorem sliceFrom?_append (front rest : List Char) :
    sliceFrom? (front ++ rest) (byteLen front) = some rest := by
  have h := slice?_append front rest []
  rw [List.append_nil] at h
  rw [sliceFrom?, byteLen_append]
  exact h

theorem Rest.sliceFrom? {text rest : List Char} {i : Nat} (h : Rest text i rest) : sliceFrom? text i = some rest := by
  obtain ⟨front, rfl, rfl⟩ := h
  exact sliceFrom?_append front rest

/-- `char_indices`: the characters with their positions, the first at `start`. -/
def charIndicesFrom : Nat → List Char → List (Nat × Char)
  | _, [] => []
  | start, c :: cs => (start, c) :: charIndicesFrom (start + c.utf8Size) cs

def charIndices (cs : List Char) : List (Nat × Char) := charIndicesFrom 0 cs

end QuorumDispatch.Lib
