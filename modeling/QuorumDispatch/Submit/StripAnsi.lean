import QuorumDispatch.Lib.Slices
import QuorumDispatch.Submit.Discipline

/-!
The stripper walks over the bytes of a screen. Where it looks for the end of a sequence it goes byte
by byte, and then on to the next character; so it comes to the same places as a walk over the
characters, and what it leaves is the text between the escape sequences without its control bytes.
-/

namespace QuorumDispatch.Submit

open Lib

/-! ### The walk over the bytes -/

/-- Behind the final byte of a control sequence; at most `left` bytes are looked at. -/
def csiEnd (bytes : Bytes) : Nat → Nat → Nat
  | 0, j => j
  | left + 1, j =>
      match bytes[j]? with
      | none => j
      | some b => if 0x40 ≤ b ∧ b ≤ 0x7e then j + 1 else csiEnd bytes left (j + 1)

/-- Behind the BEL or the ESC `\` that ends a system command. -/
def oscEnd (bytes : Bytes) : Nat → Nat → Nat
  | 0, j => j
  | left + 1, j =>
      match bytes[j]? with
      | none => j
      | some b =>
          if b = 0x07 then j + 1
          else if b = 0x1b ∧ bytes[j + 1]? = some 0x5c then j + 2
          else oscEnd bytes left (j + 1)

/-- Behind the sequence that the ESC at `i` begins. -/
def skipTo (bytes : Bytes) (i : Nat) (next : UInt8) : Nat :=
  if next = 0x5b then csiEnd bytes bytes.length (i + 2)
  else if next = 0x5d then oscEnd bytes bytes.length (i + 2)
  else if next = 0x28 ∨ next = 0x29 ∨ next = 0x2a ∨ next = 0x2b then i + 3
  else i + 2

/-- `while idx < s.len() && !s.is_char_boundary(idx) { idx += 1 }`, at most `left` times. -/
def floorToCharBoundary (bytes : Bytes) : Nat → Nat → Nat
  | 0, idx => idx
  | left + 1, idx =>
      if bytes.length ≤ idx then bytes.length
      else if charBoundary bytes idx then idx
      else floorToCharBoundary bytes left (idx + 1)

/-- What one round of the loop pushes and where it goes on; `none` leaves the loop. -/
abbrev Round := Option (List Char × Nat)

/-- One round; without a result it would index a character in its middle. -/
def stripRound (input : List Char) (i : Nat) : Option Round :=
  let bytes := encodeUtf8 input
  match bytes[i]? with
  | none => some none
  | some b =>
      if b = 0x1b then
        match bytes[i + 1]? with
        | none => some none
        | some next =>
            some (some ([], floorToCharBoundary bytes (bytes.length + 1) (min (skipTo bytes i next) bytes.length)))
      else if b = 0x0a ∨ b = 0x09 then some (some ([Char.ofNat b.toNat], i + 1))
      else if b < 0x20 ∨ b = 0x7f then some (some ([], i + 1))
      else do
        let rest ← sliceFrom? input i
        match rest with
        | c :: _ => some (some ([c], i + c.utf8Size))
        | [] => some (some ([], i + 1))

/-- The loop, for at most `left` rounds. -/
def stripLoop (input : List Char) : Nat → Nat → List Char → Option (List Char)
  | 0, _, _ => none
  | left + 1, i, out => do
      match ← stripRound input i with
      | none => some out
      | some (pushed, next) => stripLoop input left next (out ++ pushed)

/-- `strip_ansi`. -/
def stripAnsiBytes (input : List Char) : Option (List Char) :=
  stripLoop input (byteLen input + 1) 0 []

/-! ### The walk over the characters -/

def dropCsi : List Char → List Char
  | [] => []
  | c :: rest => if 0x40 ≤ c.toNat ∧ c.toNat ≤ 0x7e then rest else dropCsi rest

def dropOsc : List Char → List Char
  | [] => []
  | c :: rest =>
      if c = '\x07' then rest
      else if c = '\x1b' ∧ rest.head? = some '\\' then rest.tail
      else dropOsc rest

/-- Behind the sequence of an ESC that stands in front of the text. -/
def dropSequence : List Char → List Char
  | [] => []
  | c :: rest =>
      if c = '[' then dropCsi rest
      else if c = ']' then dropOsc rest
      else if c = '(' ∨ c = ')' ∨ c = '*' ∨ c = '+' then rest.tail
      else rest

attribute [local grind =] csiEnd oscEnd stripFrom dropCsi dropOsc dropSequence

theorem stripFrom_csi (cs : List Char) : stripFrom .csi cs = stripFrom .text (dropCsi cs) := by
  induction cs with
  | nil => rfl
  | cons c cs ih =>
      rw [stripFrom, dropCsi]
      split
      · rfl
      · exact ih

theorem stripFrom_oscEscape (cs : List Char) :
    stripFrom .oscEscape cs =
      if cs.head? = some '\\' then stripFrom .text cs.tail else stripFrom .osc cs := by
  cases cs with
  | nil => rfl
  | cons c cs =>
      rw [stripFrom, stripFrom, List.head?_cons, List.tail_cons]
      by_cases hback : c = '\\'
      · rw [if_pos (.inl hback), if_pos (congrArg some hback)]
      · rw [if_neg (fun h => hback (Option.some.inj h))]
        by_cases hbel : c = '\x07'
        · rw [if_pos (.inr hbel), if_pos hbel]
        · rw [if_neg (not_or.mpr ⟨hback, hbel⟩), if_neg hbel]

theorem stripFrom_osc (cs : List Char) : stripFrom .osc cs = stripFrom .text (dropOsc cs) := by
  induction cs with
  | nil => rfl
  | cons c cs ih =>
      rw [stripFrom, dropOsc, stripFrom_oscEscape, ih]
      split
      · rfl
      · by_cases hesc : c = '\x1b'
        · by_cases hback : cs.head? = some '\\'
          · rw [if_pos hesc, if_pos hback, if_pos ⟨hesc, hback⟩]
          · rw [if_pos hesc, if_neg hback, if_neg fun h => hback h.2]
        · rw [if_neg hesc, if_neg fun h => hesc h.1]

theorem stripFrom_escape (cs : List Char) : stripFrom .escape cs = stripFrom .text (dropSequence cs) := by
  cases cs with
  | nil => rfl
  | cons c cs =>
      rw [stripFrom, dropSequence, stripFrom_csi, stripFrom_osc]
      split_ifs
      · rfl
      · rfl
      · cases cs <;> rfl
      · rfl

/-! ### Both come to the same places -/

section Walk

variable {text rest : List Char} {c : Char} {i left : Nat}

theorem getElem?_wide (h : Rest text i (c :: rest)) (hc : 128 ≤ c.toNat) {k : Nat} (hk : k < c.utf8Size) :
    ∃ b : UInt8, (encodeUtf8 text)[i + k]? = some b ∧ 128 ≤ b.toNat := by
  obtain ⟨b, hget, hmem, -⟩ := h.getElem?_char hk
  exact ⟨b, hget, le_of_mem_utf8EncodeChar hc hmem⟩

theorem toNat_byte (hc : c.toNat < 128) : c.toNat.toUInt8.toNat = c.toNat :=
  UInt8.toNat_ofNat_of_lt' (Nat.lt_trans hc (by decide))

theorem byte_eq_iff (hc : c.toNat < 128) {b : UInt8} : c.toNat.toUInt8 = b ↔ c.toNat = b.toNat := by
  rw [← UInt8.toNat_inj, toNat_byte hc]

theorem csiEnd_skip {bytes : Bytes} {j : Nat} (k : Nat)
    (h : ∀ m, m < k → ∃ b : UInt8, bytes[j + m]? = some b ∧ 128 ≤ b.toNat) :
    csiEnd bytes (left + k) j = csiEnd bytes left (j + k) := by
  induction k generalizing j with
  | zero => rfl
  | succ k ih =>
      obtain ⟨b, hget, hb⟩ := h 0 (Nat.succ_pos k)
      have hother : ¬ (0x40 ≤ b ∧ b ≤ 0x7e) := fun ⟨_, hle⟩ => by
        have hnat := UInt8.le_iff_toNat_le.mp hle
        exact absurd (hb.trans hnat) (by decide)
      rw [← Nat.add_assoc, csiEnd, show bytes[j]? = some b from hget]
      simp only [if_neg hother]
      rw [ih, Nat.add_assoc, Nat.add_comm 1 k]
      intro m hm
      rw [Nat.add_assoc, Nat.add_comm 1 m]
      exact h (m + 1) (Nat.succ_lt_succ hm)

theorem rest_csiEnd (h : Rest text i rest) (hleft : byteLen rest ≤ left) :
    Rest text (csiEnd (encodeUtf8 text) left i) (dropCsi rest) := by
  induction rest generalizing i left with
  | nil =>
      have hend : csiEnd (encodeUtf8 text) left i = i := by
        cases left with
        | zero => rfl
        | succ left => rw [csiEnd, h.getElem?_nil]
      rw [hend]
      exact h
  | cons c rest ih =>
      rw [byteLen_cons] at hleft
      rw [dropCsi]
      by_cases hc : c.toNat < 128
      · obtain ⟨left, rfl⟩ : ∃ k, left = k + 1 := ⟨left - 1, by have := c.utf8Size_pos; omega⟩
        have hfinal : (0x40 ≤ c.toNat.toUInt8 ∧ c.toNat.toUInt8 ≤ 0x7e) ↔ 0x40 ≤ c.toNat ∧ c.toNat ≤ 0x7e := by
          rw [UInt8.le_iff_toNat_le, UInt8.le_iff_toNat_le, toNat_byte hc]
          rfl
        rw [csiEnd, h.getElem?_ascii hc]
        simp only [hfinal]
        split
        · exact h.next_ascii hc
        · exact ih (h.next_ascii hc) (by have := c.utf8Size_pos; omega)
      · have hwide := Nat.le_of_not_lt hc
        obtain ⟨left, rfl⟩ : ∃ k, left = k + c.utf8Size := ⟨left - c.utf8Size, by omega⟩
        rw [csiEnd_skip _ fun k hk => getElem?_wide h hwide hk, if_neg (by omega)]
        exact ih h.next (by omega)

theorem oscEnd_skip {bytes : Bytes} {j : Nat} (k : Nat)
    (h : ∀ m, m < k → ∃ b : UInt8, bytes[j + m]? = some b ∧ 128 ≤ b.toNat) :
    oscEnd bytes (left + k) j = oscEnd bytes left (j + k) := by
  induction k generalizing j with
  | zero => rfl
  | succ k ih =>
      obtain ⟨b, hget, hb⟩ := h 0 (Nat.succ_pos k)
      have hbel : b ≠ 0x07 := by
        rintro rfl
        exact absurd hb (by decide)
      have hesc : b ≠ 0x1b := by
        rintro rfl
        exact absurd hb (by decide)
      rw [← Nat.add_assoc, oscEnd, show bytes[j]? = some b from hget]
      simp only [if_neg hbel, hesc, false_and, if_false]
      rw [ih, Nat.add_assoc, Nat.add_comm 1 k]
      intro m hm
      rw [Nat.add_assoc, Nat.add_comm 1 m]
      exact h (m + 1) (Nat.succ_lt_succ hm)

theorem backslash_iff (h : Rest text i rest) : (encodeUtf8 text)[i]? = some 0x5c ↔ rest.head? = some '\\' := by
  cases rest with
  | nil => rw [h.getElem?_nil, List.head?_nil]; exact iff_of_false nofun nofun
  | cons c rest =>
      rw [List.head?_cons, Option.some.injEq]
      by_cases hc : c.toNat < 128
      · rw [h.getElem?_ascii hc, Option.some.injEq, byte_eq_iff hc]
        exact Char.toNat_inj (d := '\\')
      · obtain ⟨b, hget, hb⟩ := getElem?_wide h (Nat.le_of_not_lt hc) c.utf8Size_pos
        rw [show (encodeUtf8 text)[i]? = some b from hget, Option.some.injEq]
        constructor
        · rintro rfl
          exact absurd hb (by decide)
        · rintro rfl
          exact absurd (by decide) hc

theorem rest_oscEnd (h : Rest text i rest) (hleft : byteLen rest ≤ left) :
    Rest text (oscEnd (encodeUtf8 text) left i) (dropOsc rest) := by
  induction rest generalizing i left with
  | nil =>
      have hend : oscEnd (encodeUtf8 text) left i = i := by
        cases left with
        | zero => rfl
        | succ left => rw [oscEnd, h.getElem?_nil]
      rw [hend]
      exact h
  | cons c rest ih =>
      rw [byteLen_cons] at hleft
      rw [dropOsc]
      by_cases hc : c.toNat < 128
      · obtain ⟨left, rfl⟩ : ∃ k, left = k + 1 := ⟨left - 1, by have := c.utf8Size_pos; omega⟩
        have hbel : c.toNat.toUInt8 = 0x07 ↔ c = '\x07' := (byte_eq_iff hc).trans (Char.toNat_inj (d := '\x07'))
        have hesc : c.toNat.toUInt8 = 0x1b ↔ c = '\x1b' := (byte_eq_iff hc).trans (Char.toNat_inj (d := '\x1b'))
        have hnext := h.next_ascii hc
        rw [oscEnd, h.getElem?_ascii hc]
        simp only [hbel, hesc, backslash_iff hnext]
        split
        · exact hnext
        · split
          next hst =>
            obtain ⟨ds, rfl⟩ : ∃ ds, rest = '\\' :: ds := by
              cases rest with
              | nil => exact absurd hst.2 nofun
              | cons d ds =>
                  obtain rfl := Option.some.inj hst.2
                  exact ⟨ds, rfl⟩
            exact hnext.next_ascii (by decide)
          next => exact ih hnext (by have := c.utf8Size_pos; omega)
      · have hwide := Nat.le_of_not_lt hc
        have hbel : c ≠ '\x07' := by
          rintro rfl
          exact absurd (by decide) hc
        have hesc : c ≠ '\x1b' := by
          rintro rfl
          exact absurd (by decide) hc
        obtain ⟨left, rfl⟩ : ∃ k, left = k + c.utf8Size := ⟨left - c.utf8Size, by omega⟩
        rw [oscEnd_skip _ fun k hk => getElem?_wide h hwide hk, if_neg hbel, if_neg fun hst => hesc hst.1]
        exact ih h.next (by omega)

theorem floor_rest (h : Rest text i rest) (hleft : left ≠ 0) : floorToCharBoundary (encodeUtf8 text) left i = i := by
  obtain ⟨left, rfl⟩ := Nat.exists_eq_succ_of_ne_zero hleft
  rw [floorToCharBoundary]
  split
  next hend =>
    have hlen := h.byteLen_eq
    rw [byteLen] at hlen
    omega
  next => rw [if_pos h.charBoundary]

theorem floor_within (h : Rest text i (c :: rest)) {k : Nat} (hpos : k ≠ 0) (hk : k ≤ c.utf8Size)
    (hleft : c.utf8Size - k < left) :
    floorToCharBoundary (encodeUtf8 text) left (i + k) = i + c.utf8Size := by
  induction left generalizing k with
  | zero => exact absurd hleft (Nat.not_lt_zero _)
  | succ left ih =>
      by_cases hat : k = c.utf8Size
      · rw [hat]
        exact floor_rest h.next (Nat.succ_ne_zero left)
      · have hlt : k < c.utf8Size := Nat.lt_of_le_of_ne hk hat
        have hlen := h.byteLen_eq
        rw [byteLen, byteLen_cons] at hlen
        rw [floorToCharBoundary, if_neg (by omega), h.charBoundary_within hpos hlt, if_neg Bool.false_ne_true,
          Nat.add_assoc, ih (Nat.succ_ne_zero k) hlt (by omega)]

theorem next_byte (h : Rest text i (c :: rest)) :
    ∃ b : UInt8, (encodeUtf8 text)[i]? = some b ∧ (∀ d : Char, d.toNat < 128 → (b = d.toNat.toUInt8 ↔ c = d)) := by
  by_cases hc : c.toNat < 128
  · refine ⟨_, h.getElem?_ascii hc, fun d hd => ?_⟩
    rw [byte_eq_iff hc, toNat_byte hd, Char.toNat_inj]
  · obtain ⟨b, hget, hb⟩ := getElem?_wide h (Nat.le_of_not_lt hc) c.utf8Size_pos
    refine ⟨b, hget, fun d hd => iff_of_false ?_ ?_⟩
    · rintro rfl
      rw [toNat_byte hd] at hb
      exact absurd hb (Nat.not_le_of_lt hd)
    · rintro rfl
      exact hc hd

abbrev settled (text : List Char) (j : Nat) : Nat :=
  floorToCharBoundary (encodeUtf8 text) ((encodeUtf8 text).length + 1) (min j (encodeUtf8 text).length)

theorem rest_settled (h : Rest text i rest) : Rest text (settled text i) rest := by
  have hlen := h.byteLen_eq
  rw [byteLen] at hlen
  rw [settled, Nat.min_eq_left (by omega), floor_rest h (Nat.succ_ne_zero _)]
  exact h

theorem rest_settled_succ (h : Rest text i (c :: rest)) : Rest text (settled text (i + 1)) rest := by
  have hlen := h.byteLen_eq
  have hpos := c.utf8Size_pos
  rw [byteLen, byteLen_cons] at hlen
  rw [settled, Nat.min_eq_left (by omega), floor_within h Nat.one_ne_zero hpos (by omega)]
  exact h.next

theorem rest_skipTo (h : Rest text i ('\x1b' :: c :: rest)) {b : UInt8} (hb : (encodeUtf8 text)[i + 1]? = some b) :
    Rest text (settled text (skipTo (encodeUtf8 text) i b)) (dropSequence (c :: rest)) := by
  have hnext : Rest text (i + 1) (c :: rest) := h.next_ascii (by decide)
  obtain ⟨b', hget, hchar⟩ := next_byte hnext
  obtain rfl : b' = b := Option.some.inj (hget.symm.trans hb)
  have hcsi : b' = 0x5b ↔ c = '[' := hchar '[' (by decide)
  have hosc : b' = 0x5d ↔ c = ']' := hchar ']' (by decide)
  have hg0 : b' = 0x28 ↔ c = '(' := hchar '(' (by decide)
  have hg1 : b' = 0x29 ↔ c = ')' := hchar ')' (by decide)
  have hg2 : b' = 0x2a ↔ c = '*' := hchar '*' (by decide)
  have hg3 : b' = 0x2b ↔ c = '+' := hchar '+' (by decide)
  have hbehind : c.toNat < 128 → Rest text (i + 2) rest := hnext.next_ascii
  have hleft : c.toNat < 128 → byteLen rest ≤ (encodeUtf8 text).length := fun hc => by
    have hlen := (hbehind hc).byteLen_eq
    rw [byteLen] at hlen
    omega
  rw [dropSequence, skipTo]
  simp only [hcsi, hosc, hg0, hg1, hg2, hg3]
  split_ifs with h1 h2 h3
  · have hc : c.toNat < 128 := h1 ▸ by decide
    exact rest_settled (rest_csiEnd (hbehind hc) (hleft hc))
  · have hc : c.toNat < 128 := h2 ▸ by decide
    exact rest_settled (rest_oscEnd (hbehind hc) (hleft hc))
  · have hc : c.toNat < 128 := by rcases h3 with rfl | rfl | rfl | rfl <;> decide
    have hend := hbehind hc
    cases rest with
    | nil =>
        -- the text ends in front of the final byte
        have hlen := hend.byteLen_eq
        rw [byteLen, byteLen_nil, Nat.add_zero] at hlen
        have hsame : settled text (i + 3) = settled text (i + 2) := by
          rw [settled, settled, hlen, Nat.min_eq_right (Nat.le_succ _), Nat.min_self]
        rw [hsame]
        exact rest_settled hend
    | cons d ds => exact rest_settled_succ hend
  · exact rest_settled_succ hnext

/-! ### The loop -/

inductive RoundIs (text : List Char) (i : Nat) (rest : List Char) : Prop where
  | leaves (hround : stripRound text i = some none) (hout : stripFrom .text rest = [])
  | goes (pushed ds : List Char) (next : Nat) (hround : stripRound text i = some (some (pushed, next)))
      (hnext : Rest text next ds) (hless : byteLen ds < byteLen rest)
      (hout : stripFrom .text rest = pushed ++ stripFrom .text ds)

theorem length_dropCsi (cs : List Char) : byteLen (dropCsi cs) ≤ byteLen cs := by
  induction cs with
  | nil => exact Nat.le_refl _
  | cons c cs ih =>
      rw [dropCsi, byteLen_cons]
      split <;> omega

theorem length_dropOsc (cs : List Char) : byteLen (dropOsc cs) ≤ byteLen cs := by
  induction cs with
  | nil => exact Nat.le_refl _
  | cons c cs ih =>
      have htail : byteLen cs.tail ≤ byteLen cs := by
        cases cs with
        | nil => exact Nat.le_refl _
        | cons d ds => rw [List.tail_cons, byteLen_cons]; omega
      rw [dropOsc, byteLen_cons]
      split_ifs <;> omega

theorem length_dropSequence (cs : List Char) : byteLen (dropSequence cs) ≤ byteLen cs := by
  cases cs with
  | nil => exact Nat.le_refl _
  | cons c cs =>
      have hcsi := length_dropCsi cs
      have hosc := length_dropOsc cs
      have htail : byteLen cs.tail ≤ byteLen cs := by
        cases cs with
        | nil => exact Nat.le_refl _
        | cons d ds => rw [List.tail_cons, byteLen_cons]; omega
      rw [dropSequence, byteLen_cons]
      split_ifs <;> omega

theorem roundIs (h : Rest text i rest) : RoundIs text i rest := by
  cases rest with
  | nil => exact .leaves (by rw [stripRound, h.getElem?_nil]) rfl
  | cons c rest =>
      have hpos := c.utf8Size_pos
      by_cases hc : c.toNat < 128
      · have hbyte := h.getElem?_ascii hc
        have hnext := h.next_ascii hc
        have hesc : c.toNat.toUInt8 = 0x1b ↔ c = '\x1b' := (byte_eq_iff hc).trans (Char.toNat_inj (d := '\x1b'))
        have hnewline : c.toNat.toUInt8 = 0x0a ↔ c = '\n' := (byte_eq_iff hc).trans (Char.toNat_inj (d := '\n'))
        have htab : c.toNat.toUInt8 = 0x09 ↔ c = '\t' := (byte_eq_iff hc).trans (Char.toNat_inj (d := '\t'))
        have hcontrol : (c.toNat.toUInt8 < 0x20 ∨ c.toNat.toUInt8 = 0x7f) ↔ c.toNat < 0x20 ∨ c.toNat = 0x7f := by
          rw [UInt8.lt_iff_toNat_lt, toNat_byte hc, byte_eq_iff hc]
          rfl
        by_cases h1 : c = '\x1b'
        · subst h1
          cases rest with
          | nil =>
              refine .leaves ?_ rfl
              rw [stripRound, hbyte]
              simp only [if_pos (hesc.mpr rfl), hnext.getElem?_nil]
          | cons d ds =>
              obtain ⟨b, hget, -⟩ := next_byte hnext
              refine .goes [] (dropSequence (d :: ds)) (settled text (skipTo (encodeUtf8 text) i b)) ?_
                (rest_skipTo h hget) ?_ ?_
              · rw [stripRound, hbyte]
                simp only [if_pos (hesc.mpr rfl), hget]
              · have hle := length_dropSequence (d :: ds)
                rw [byteLen_cons]
                omega
              · rw [stripFrom, if_pos rfl, stripFrom_escape, List.nil_append]
        · have hless : byteLen rest < byteLen (c :: rest) := by rw [byteLen_cons]; omega
          rw [← hesc] at h1
          by_cases h2 : c = '\n' ∨ c = '\t'
          · refine .goes [c] rest (i + 1) ?_ hnext hless ?_
            · rw [stripRound, hbyte]
              simp only [if_neg h1, hnewline, htab, if_pos h2, toNat_byte hc, Char.ofNat_toNat]
            · rw [stripFrom, if_neg (hesc.not.mp h1), if_pos h2, List.singleton_append]
          · by_cases h3 : c.toNat < 0x20 ∨ c.toNat = 0x7f
            · refine .goes [] rest (i + 1) ?_ hnext hless ?_
              · rw [stripRound, hbyte]
                simp only [if_neg h1, hnewline, htab, if_neg h2, hcontrol, if_pos h3]
              · rw [stripFrom, if_neg (hesc.not.mp h1), if_neg h2, if_pos h3, List.nil_append]
            · refine .goes [c] rest (i + c.utf8Size) ?_ h.next hless ?_
              · rw [stripRound, hbyte]
                simp only [if_neg h1, hnewline, htab, if_neg h2, hcontrol, if_neg h3, h.sliceFrom?]
                rfl
              · rw [stripFrom, if_neg (hesc.not.mp h1), if_neg h2, if_neg h3, List.singleton_append]
      · obtain ⟨b, hget, hb⟩ := getElem?_wide h (Nat.le_of_not_lt hc) hpos
        have hother : ∀ d : UInt8, d.toNat < 128 → b ≠ d := by
          rintro d hd rfl
          exact absurd hb (Nat.not_le_of_lt hd)
        have hwide : ∀ d : Char, d.toNat < 128 → c ≠ d := by
          rintro d hd rfl
          exact hc hd
        have hlow : ¬ (b < 0x20 ∨ b = 0x7f) := by
          rintro (hlt | heq)
          · have hnat := UInt8.lt_iff_toNat_lt.mp hlt
            exact absurd (hb.trans_lt hnat) (by decide)
          · exact hother 0x7f (by decide) heq
        refine .goes [c] rest (i + c.utf8Size) ?_ h.next (by rw [byteLen_cons]; omega) ?_
        · rw [stripRound, show (encodeUtf8 text)[i]? = some b from hget]
          simp only [if_neg (hother 0x1b (by decide)), hother 0x0a (by decide), hother 0x09 (by decide), or_self,
            if_false, if_neg hlow, h.sliceFrom?]
          rfl
        · rw [stripFrom, if_neg (hwide '\x1b' (by decide)),
            if_neg (not_or.mpr ⟨hwide '\n' (by decide), hwide '\t' (by decide)⟩), if_neg (by omega),
            List.singleton_append]

theorem stripLoop_eq (h : Rest text i rest) (out : List Char) (hleft : byteLen rest < left) :
    stripLoop text left i out = some (out ++ stripFrom .text rest) := by
  induction left generalizing i rest out with
  | zero => exact absurd hleft (Nat.not_lt_zero _)
  | succ left ih =>
      rw [stripLoop]
      cases roundIs h with
      | leaves hround hout =>
          rw [hround, hout, List.append_nil]
          rfl
      | goes pushed ds next hround hnext hless hout =>
          rw [hround, hout, ← List.append_assoc]
          exact ih hnext (out ++ pushed) (by omega)

/-- **The walk over the bytes never leaves the characters**, and it leaves what the walk over these does. -/
theorem stripAnsiBytes_eq (input : List Char) : stripAnsiBytes input = some (stripAnsi input) :=
  stripLoop_eq (.start input) [] (Nat.lt_succ_self _)

end Walk

/-! ### What is left of a screen -/

def IsControl (c : Char) : Prop := c.toNat < 0x20 ∨ c.toNat = 0x7f

instance (c : Char) : Decidable (IsControl c) := inferInstanceAs (Decidable (_ ∨ _))

def IsFinal (c : Char) : Prop := 0x40 ≤ c.toNat ∧ c.toNat ≤ 0x7e

instance (c : Char) : Decidable (IsFinal c) := inferInstanceAs (Decidable (_ ∧ _))

def Unterminated (body : List Char) : Prop := '\x07' ∉ body ∧ ¬ ['\x1b', '\\'] <:+: body

def IsDesignation (c : Char) : Prop := c ∈ ['(', ')', '*', '+']

instance (c : Char) : Decidable (IsDesignation c) := inferInstanceAs (Decidable (c ∈ _))

inductive EscapeSequence : List Char → Prop where
  /-- A control sequence, up to its final character. -/
  | csi (params : List Char) (final : Char) (hparams : ∀ c ∈ params, ¬ IsFinal c) (hfinal : IsFinal final) :
      EscapeSequence ('[' :: (params ++ [final]))
  /-- A system command, up to a BEL. -/
  | oscBel (body : List Char) (hbody : Unterminated body) : EscapeSequence (']' :: (body ++ ['\x07']))
  /-- A system command, up to an ESC and a backslash. -/
  | oscSt (body : List Char) (hbody : Unterminated body) : EscapeSequence (']' :: (body ++ ['\x1b', '\\']))
  /-- The designation of a character set. -/
  | designation (c set : Char) (hc : IsDesignation c) : EscapeSequence [c, set]
  | two (c : Char) (hcsi : c ≠ '[') (hosc : c ≠ ']') (hc : ¬ IsDesignation c) : EscapeSequence [c]

/-- A sequence that the end of the text cuts off, behind its ESC. -/
inductive CutSequence : List Char → Prop where
  | esc : CutSequence []
  | csi (params : List Char) (hparams : ∀ c ∈ params, ¬ IsFinal c) : CutSequence ('[' :: params)
  | osc (body : List Char) (hbody : Unterminated body) : CutSequence (']' :: body)
  | designation (c : Char) (hc : IsDesignation c) : CutSequence [c]

/-- A text, and the characters of it that are outside its escape sequences and are no control characters but
newline and tab. -/
inductive Outside : List Char → List Char → Prop where
  | nil : Outside [] []
  | kept (c : Char) {rest out : List Char} (hc : ¬ IsControl c ∨ c = '\n' ∨ c = '\t') (hrest : Outside rest out) :
      Outside (c :: rest) (c :: out)
  | control (c : Char) {rest out : List Char} (hc : IsControl c) (hesc : c ≠ '\x1b') (hline : c ≠ '\n')
      (htab : c ≠ '\t') (hrest : Outside rest out) : Outside (c :: rest) out
  | sequence {seq rest out : List Char} (hseq : EscapeSequence seq) (hrest : Outside rest out) :
      Outside ('\x1b' :: (seq ++ rest)) out
  | cut {seq : List Char} (hseq : CutSequence seq) : Outside ('\x1b' :: seq) []

section Outside

variable {input out : List Char}

theorem unterminated_nil : Unterminated [] := by
  refine ⟨List.not_mem_nil, fun h => ?_⟩
  cases List.infix_nil.mp h

theorem unterminated_cons {c : Char} {body : List Char} :
    Unterminated (c :: body) ↔
      c ≠ '\x07' ∧ ¬ (c = '\x1b' ∧ body.head? = some '\\') ∧ Unterminated body := by
  have hprefix : ['\x1b', '\\'] <+: c :: body ↔ c = '\x1b' ∧ body.head? = some '\\' := by
    rw [List.cons_prefix_cons, eq_comm]
    refine and_congr_right fun _ => ?_
    cases body with
    | nil => exact iff_of_false (fun h => nomatch List.prefix_nil.mp h) nofun
    | cons d ds => simp [eq_comm]
  rw [Unterminated, Unterminated, List.infix_cons_iff, hprefix, List.mem_cons, not_or, not_or, ne_comm]
  constructor
  · rintro ⟨⟨hbel, hmem⟩, hst, hinfix⟩
    exact ⟨hbel, hst, hmem, hinfix⟩
  · rintro ⟨hbel, hst, hmem, hinfix⟩
    exact ⟨⟨hbel, hmem⟩, hst, hinfix⟩

theorem dropCsi_final {c : Char} (hc : IsFinal c) (cs : List Char) : dropCsi (c :: cs) = cs := if_pos hc

theorem dropCsi_param {c : Char} (hc : ¬ IsFinal c) (cs : List Char) : dropCsi (c :: cs) = dropCsi cs := if_neg hc

theorem dropCsi_append {params rest : List Char} (hparams : ∀ c ∈ params, ¬ IsFinal c) :
    dropCsi (params ++ rest) = dropCsi rest := by
  induction params with
  | nil => rfl
  | cons c params ih =>
      rw [List.cons_append, dropCsi_param (hparams c List.mem_cons_self)]
      exact ih fun d hd => hparams d (List.mem_cons_of_mem _ hd)

theorem dropOsc_append {body rest : List Char} (hbody : Unterminated body) (hrest : rest.head? ≠ some '\\') :
    dropOsc (body ++ rest) = dropOsc rest := by
  induction body with
  | nil => rfl
  | cons c body ih =>
      obtain ⟨hbel, hst, hbody⟩ := unterminated_cons.mp hbody
      have hst' : ¬ (c = '\x1b' ∧ (body ++ rest).head? = some '\\') := by
        cases body with
        | nil => exact fun h => hrest h.2
        | cons d ds => exact hst
      rw [List.cons_append, dropOsc, if_neg hbel, if_neg hst']
      exact ih hbody

theorem isDesignation_iff {c : Char} : IsDesignation c ↔ c = '(' ∨ c = ')' ∨ c = '*' ∨ c = '+' := by
  simp [IsDesignation]

theorem dropSequence_append {seq rest : List Char} (hseq : EscapeSequence seq) : dropSequence (seq ++ rest) = rest := by
  cases hseq with
  | csi params final hparams hfinal =>
      change dropCsi (params ++ [final] ++ rest) = rest
      rw [List.append_assoc, dropCsi_append hparams, List.singleton_append, dropCsi_final hfinal]
  | oscBel body hbody =>
      change dropOsc (body ++ ['\x07'] ++ rest) = rest
      rw [List.append_assoc, dropOsc_append hbody (show (['\x07'] ++ rest).head? ≠ some '\\' from nofun)]
      rfl
  | oscSt body hbody =>
      change dropOsc (body ++ ['\x1b', '\\'] ++ rest) = rest
      rw [List.append_assoc, dropOsc_append hbody (show (['\x1b', '\\'] ++ rest).head? ≠ some '\\' from nofun)]
      rfl
  | designation c set hc =>
      have hcsi : c ≠ '[' := by rintro rfl; exact absurd hc (by decide)
      have hosc : c ≠ ']' := by rintro rfl; exact absurd hc (by decide)
      change dropSequence (c :: set :: rest) = rest
      rw [dropSequence, if_neg hcsi, if_neg hosc, if_pos (isDesignation_iff.mp hc)]
      rfl
  | two c hcsi hosc hc =>
      change dropSequence (c :: rest) = rest
      rw [dropSequence, if_neg hcsi, if_neg hosc, if_neg (isDesignation_iff.not.mp hc)]

theorem dropSequence_cut {seq : List Char} (hseq : CutSequence seq) : dropSequence seq = [] := by
  cases hseq with
  | esc => rfl
  | csi params hparams =>
      change dropCsi params = []
      have h : dropCsi (params ++ []) = dropCsi [] := dropCsi_append hparams
      rw [List.append_nil] at h
      exact h
  | osc body hbody =>
      change dropOsc body = []
      have h : dropOsc (body ++ []) = dropOsc [] := dropOsc_append hbody nofun
      rw [List.append_nil] at h
      exact h
  | designation c hc =>
      have hcsi : c ≠ '[' := by rintro rfl; exact absurd hc (by decide)
      have hosc : c ≠ ']' := by rintro rfl; exact absurd hc (by decide)
      rw [dropSequence, if_neg hcsi, if_neg hosc, if_pos (isDesignation_iff.mp hc)]
      rfl

theorem dropCsi_cases (cs : List Char) :
    (∃ params final, (∀ c ∈ params, ¬ IsFinal c) ∧ IsFinal final ∧ cs = params ++ final :: dropCsi cs) ∨
      (∀ c ∈ cs, ¬ IsFinal c) ∧ dropCsi cs = [] := by
  induction cs with
  | nil => exact .inr ⟨fun _ h => absurd h List.not_mem_nil, rfl⟩
  | cons c cs ih =>
      by_cases hfinal : IsFinal c
      · refine .inl ⟨[], c, fun _ h => absurd h List.not_mem_nil, hfinal, ?_⟩
        rw [dropCsi_final hfinal]
        rfl
      · rw [dropCsi_param hfinal]
        rcases ih with ⟨params, final, hparams, hfinal', heq⟩ | ⟨hnone, hdrop⟩
        · exact .inl ⟨c :: params, final, List.forall_mem_cons.mpr ⟨hfinal, hparams⟩, hfinal', congrArg (c :: ·) heq⟩
        · exact .inr ⟨List.forall_mem_cons.mpr ⟨hfinal, hnone⟩, hdrop⟩

theorem dropOsc_cases (cs : List Char) :
    (∃ body stop, Unterminated body ∧ (stop = ['\x07'] ∨ stop = ['\x1b', '\\']) ∧
        cs = body ++ (stop ++ dropOsc cs)) ∨
      Unterminated cs ∧ dropOsc cs = [] := by
  induction cs with
  | nil => exact .inr ⟨unterminated_nil, rfl⟩
  | cons c cs ih =>
      by_cases hbel : c = '\x07'
      · refine .inl ⟨[], ['\x07'], unterminated_nil, .inl rfl, ?_⟩
        rw [dropOsc, if_pos hbel, hbel]
        rfl
      · by_cases hst : c = '\x1b' ∧ cs.head? = some '\\'
        · obtain ⟨ds, rfl⟩ : ∃ ds, cs = '\\' :: ds := by
            cases cs with
            | nil => exact absurd hst.2 nofun
            | cons d ds =>
                obtain rfl := Option.some.inj hst.2
                exact ⟨ds, rfl⟩
          refine .inl ⟨[], ['\x1b', '\\'], unterminated_nil, .inr rfl, ?_⟩
          rw [dropOsc, if_neg hbel, if_pos hst, hst.1]
          rfl
        · rw [dropOsc, if_neg hbel, if_neg hst]
          rcases ih with ⟨body, stop, hbody, hstop, heq⟩ | ⟨hnone, hdrop⟩
          · refine .inl ⟨c :: body, stop, unterminated_cons.mpr ⟨hbel, ?_, hbody⟩, hstop, congrArg (c :: ·) heq⟩
            -- what stands behind the character in its body stands behind it in the text
            rintro ⟨hesc, hback⟩
            refine hst ⟨hesc, ?_⟩
            rw [heq]
            cases body with
            | nil => exact absurd hback nofun
            | cons d ds => exact hback
          · exact .inr ⟨unterminated_cons.mpr ⟨hbel, hst, hnone⟩, hdrop⟩

theorem dropSequence_cases (cs : List Char) :
    (∃ seq, EscapeSequence seq ∧ cs = seq ++ dropSequence cs) ∨ CutSequence cs ∧ dropSequence cs = [] := by
  cases cs with
  | nil => exact .inr ⟨.esc, rfl⟩
  | cons c cs =>
      rw [dropSequence]
      split_ifs with hcsi hosc hc
      · rcases dropCsi_cases cs with ⟨params, final, hparams, hfinal, heq⟩ | ⟨hnone, hdrop⟩
        · refine .inl ⟨_, .csi params final hparams hfinal, ?_⟩
          rw [hcsi, List.cons_append, List.append_assoc, List.singleton_append, ← heq]
        · exact .inr ⟨hcsi ▸ .csi cs hnone, hdrop⟩
      · rcases dropOsc_cases cs with ⟨body, stop, hbody, hstop, heq⟩ | ⟨hnone, hdrop⟩
        · refine .inl ⟨']' :: (body ++ stop), ?_, ?_⟩
          · rcases hstop with rfl | rfl
            · exact .oscBel body hbody
            · exact .oscSt body hbody
          · rw [hosc, List.cons_append, List.append_assoc, ← heq]
        · exact .inr ⟨hosc ▸ .osc cs hnone, hdrop⟩
      · cases cs with
        | nil => exact .inr ⟨.designation c (isDesignation_iff.mpr hc), rfl⟩
        | cons set cs => exact .inl ⟨[c, set], .designation c set (isDesignation_iff.mpr hc), rfl⟩
      · exact .inl ⟨[c], .two c hcsi hosc (isDesignation_iff.not.mpr hc), rfl⟩

theorem Outside.eq_stripAnsi (h : Outside input out) : out = stripAnsi input := by
  induction h with
  | nil => rfl
  | kept c hc _ ih =>
      have hesc : c ≠ '\x1b' := by
        rintro rfl
        exact absurd hc (by decide)
      rw [stripAnsi, stripFrom, if_neg hesc, ih]
      by_cases hline : c = '\n' ∨ c = '\t'
      · rw [if_pos hline]
        rfl
      · have hkept : ¬ (c.toNat < 0x20 ∨ c.toNat = 0x7f) := hc.resolve_right hline
        rw [if_neg hline, if_neg hkept]
        rfl
  | control c hc hesc hline htab _ ih =>
      have hdropped : c.toNat < 0x20 ∨ c.toNat = 0x7f := hc
      rw [stripAnsi, stripFrom, if_neg hesc, if_neg (not_or.mpr ⟨hline, htab⟩), if_pos hdropped, ih]
      rfl
  | sequence hseq _ ih =>
      rw [stripAnsi, stripFrom, if_pos rfl, stripFrom_escape, dropSequence_append hseq, ih]
      rfl
  | cut hseq =>
      rw [stripAnsi, stripFrom, if_pos rfl, stripFrom_escape, dropSequence_cut hseq]
      rfl

theorem outside_stripAnsi (input : List Char) : Outside input (stripAnsi input) := by
  induction hlength : input.length using Nat.strongRecOn generalizing input with
  | _ length ih =>
      cases input with
      | nil => exact .nil
      | cons c rest =>
          have hrest := ih rest.length (hlength ▸ Nat.lt_succ_self _) rest rfl
          rw [stripAnsi, stripFrom]
          split_ifs with hesc hline hcontrol
          · rw [hesc, stripFrom_escape]
            rcases dropSequence_cases rest with ⟨seq, hseq, heq⟩ | ⟨hcut, hdrop⟩
            · have hle := congrArg List.length heq
              rw [List.length_append] at hle
              have hbehind := ih (dropSequence rest).length (by rw [← hlength, List.length_cons]; omega) _ rfl
              have hwhole := Outside.sequence hseq hbehind
              rw [← heq] at hwhole
              exact hwhole
            · rw [hdrop]
              exact .cut hcut
          · exact .kept c (.inr hline) hrest
          · obtain ⟨hnl, htab⟩ := not_or.mp hline
            exact .control c hcontrol hesc hnl htab hrest
          · exact .kept c (.inl hcontrol) hrest

theorem Outside.clean (h : Outside input out) : ∀ c ∈ out, ¬ IsControl c ∨ c = '\n' ∨ c = '\t' := by
  induction h with
  | nil => exact fun _ hmem => absurd hmem List.not_mem_nil
  | kept c hc _ ih => exact List.forall_mem_cons.mpr ⟨hc, ih⟩
  | control c _ _ _ _ _ ih => exact ih
  | sequence _ _ ih => exact ih
  | cut _ => exact fun _ hmem => absurd hmem List.not_mem_nil

theorem outside_self (h : ∀ c ∈ input, ¬ IsControl c ∨ c = '\n' ∨ c = '\t') : Outside input input := by
  induction input with
  | nil => exact .nil
  | cons c cs ih =>
      obtain ⟨hc, hcs⟩ := List.forall_mem_cons.mp h
      exact .kept c hc (ih hcs)

/-- **A screen is stripped.** The walk stays between the characters; it leaves those that are outside the escape
sequences, in their order, none of them an ASCII control character but newline and tab; and what it leaves it
leaves again. -/
theorem stripAnsi_clean (input : List Char) :
    stripAnsiBytes input = some (stripAnsi input) ∧ (∀ out : List Char, Outside input out ↔ out = stripAnsi input) ∧
      (∀ c ∈ stripAnsi input, ¬ IsControl c ∨ c = '\n' ∨ c = '\t') ∧
        stripAnsiBytes (stripAnsi input) = some (stripAnsi input) := by
  have hclean := (outside_stripAnsi input).clean
  refine ⟨stripAnsiBytes_eq input, fun out => ⟨Outside.eq_stripAnsi, ?_⟩, hclean, ?_⟩
  · rintro rfl
    exact outside_stripAnsi input
  · rw [stripAnsiBytes_eq, ← (outside_self hclean).eq_stripAnsi]

/-- `char::is_control`. -/
def IsUnicodeControl (c : Char) : Prop := c.toNat < 0x20 ∨ 0x7f ≤ c.toNat ∧ c.toNat ≤ 0x9f

/-- The control character U+0085 stays. -/
theorem stripAnsi_keeps_nextLine :
    ¬ ∀ input out : List Char, stripAnsiBytes input = some out →
      ∀ c ∈ out, ¬ IsUnicodeControl c ∨ c = '\n' ∨ c = '\t' := by
  intro h
  have hstays := h ['\u0085'] ['\u0085'] (stripAnsiBytes_eq _) '\u0085' List.mem_cons_self
  exact absurd hstays (by unfold IsUnicodeControl; decide)

end Outside

end QuorumDispatch.Submit
