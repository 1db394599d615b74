import QuorumDispatch.Kill.Process
import QuorumDispatch.Lib.Backtrack
import QuorumDispatch.Lib.Slices

/-!
The name in the command line of a wrapper, by hand and by the expression that the scan stands for. Both
find the same command; of the words behind it the scan takes the first that is no flag, and the expression
goes back to the last of the flags when there is no other word.
-/

namespace QuorumDispatch.Kill

open Lib

def zmx : List Char := ['z', 'm', 'x']

def subcommands : List (List Char) :=
  [['r', 'u', 'n'], ['r'], ['a', 't', 't', 'a', 'c', 'h'], ['a']]

/-! ### The scan over the positions -/

/-- `str::find` of a text that is not empty. -/
def findText (needle : List Char) : List Char → Option Nat
  | [] => none
  | c :: cs => if needle <+: c :: cs then some 0 else (findText needle cs).map (· + c.utf8Size)

def isWordByte (b : UInt8) : Bool :=
  (48 ≤ b && b ≤ 57) || (65 ≤ b && b ≤ 90) || (97 ≤ b && b ≤ 122) || b == 95

/-- The loop over the flags, for at most `left` rounds. -/
def skipFlags : Nat → List Char → Option (Option (List Char))
  | 0, _ => none
  | left + 1, tail =>
      match (splitWhitespace tail).head? with
      | none => some none
      | some tok =>
          if tok.head? = some '-' then do
            let behind ← sliceFrom? tail (byteLen tok)
            skipFlags left (behind.dropWhile isWhitespace)
          else some (some tok)

def parseSubcmdAndNameAt (rest : List Char) : Option (Option (List Char)) :=
  match rest with
  | [] => some none
  | c :: rest =>
      if isWhitespace c then
        let rest := rest.dropWhile isWhitespace
        let sub := rest.takeWhile (!isWhitespace ·)
        if sub ∈ subcommands then
          match rest.dropWhile (!isWhitespace ·) with
          | [] => some none
          | _ :: tail =>
              let tail := tail.dropWhile isWhitespace
              skipFlags (tail.length + 1) tail
        else some none
      else some none

/-- Whether the byte in front of the position leaves a word to begin there. -/
def boundaryOk (bytes : Bytes) (pos : Nat) : Option Bool :=
  if pos = 0 then some true else (bytes[pos - 1]?).map (!isWordByte ·)

/-- The loop over the places of `zmx`, for at most `left` rounds. -/
def searchFrom (cmd : List Char) : Nat → Nat → Option (Option (List Char))
  | 0, _ => none
  | left + 1, from_ => do
      let rest ← sliceFrom? cmd from_
      match findText zmx rest with
      | none => some none
      | some idx =>
          let pos := from_ + idx
          let after := pos + 3
          if ← boundaryOk (encodeUtf8 cmd) pos then
            match ← parseSubcmdAndNameAt (← sliceFrom? cmd after) with
            | some name => some (some name)
            | none => searchFrom cmd left after
          else searchFrom cmd left after

/-- `match_zmx_wrapper_name`; without a result it would index the text out of its range or within a
character. -/
def matchZmxWrapperNameAt (cmd : List Char) : Option (Option (List Char)) := searchFrom cmd (cmd.length + 1) 0

/-! ### The words of a command -/

def commandWords : List Char → Option (List (List Char))
  | [] => none
  | c :: rest =>
      if isWhitespace c then
        let rest := rest.dropWhile isWhitespace
        if rest.takeWhile (!isWhitespace ·) ∈ subcommands then
          some (splitWhitespace (rest.dropWhile (!isWhitespace ·)))
        else none
      else none

/-- What the words of the first command give for which they give anything. -/
def scan {α : Type} (f : List (List Char) → Option α) (before : Option Char) : List Char → Option α
  | [] => none
  | c :: cs =>
      (if zmx <+: c :: cs ∧ (!before.any isWordChar) = true then (commandWords (cs.drop 2)).bind f else none).or
        (scan f (some c) cs)

def nameOf (words : List (List Char)) : Option (List Char) := words.find? fun tok => tok.head? ≠ some '-'

def isFlag (word : List Char) : Bool := word.head? = some '-' && 2 ≤ word.length

/-- The word that the group of the expression captures: the first that is no flag, or else the last. -/
def captured : List (List Char) → Option (List Char)
  | [] => none
  | word :: words => if isFlag word then (captured words).or (some word) else some word

theorem mem_subcommands {sub : List Char} :
    sub ∈ subcommands ↔ String.ofList sub = "run" ∨ String.ofList sub = "r" ∨ String.ofList sub = "attach" ∨
      String.ofList sub = "a" := by
  have h : ∀ s : String, String.ofList sub = s ↔ sub = s.toList := by
    intro s
    rw [← String.toList_inj, String.toList_ofList]
  simp only [h]
  simp [subcommands]

theorem parseSubcmdAndName_eq (rest : List Char) :
    parseSubcmdAndName rest = ((commandWords rest).bind nameOf).map String.ofList := by
  cases rest with
  | nil => rfl
  | cons c rest =>
      rw [parseSubcmdAndName, commandWords]
      by_cases hc : isWhitespace c
      · simp only [if_pos hc, ← mem_subcommands]
        split
        · rfl
        · rfl
      · simp only [if_neg hc]
        rfl

theorem matchZmxWrapperFrom_eq (before : Option Char) (cs : List Char) :
    matchZmxWrapperFrom before cs = (scan nameOf before cs).map String.ofList := by
  induction cs generalizing before with
  | nil => rfl
  | cons c cs ih =>
      rw [matchZmxWrapperFrom, scan, parseSubcmdAndName_eq, ih]
      by_cases h : zmx <+: c :: cs ∧ (!before.any isWordChar) = true
      · have h' : ['z', 'm', 'x'] <+: c :: cs ∧ (!before.any isWordChar) = true := h
        rw [if_pos h', if_pos h]
        cases (commandWords (cs.drop 2)).bind nameOf <;> rfl
      · have h' : ¬ (['z', 'm', 'x'] <+: c :: cs ∧ (!before.any isWordChar) = true) := h
        rw [if_neg h', if_neg h]
        rfl

/-! ### Words -/

section Words

variable {cs : List Char}

theorem splitWhitespace_cons_space {c : Char} (hc : isWhitespace c = true) (cs : List Char) :
    splitWhitespace (c :: cs) = splitWhitespace cs := by
  rw [splitWhitespace, List.splitOnP_cons_eq_if_modifyHead, if_pos hc]
  rfl

theorem splitWhitespace_dropWhile (cs : List Char) : splitWhitespace (cs.dropWhile isWhitespace) = splitWhitespace cs := by
  induction cs with
  | nil => rfl
  | cons c cs ih =>
      by_cases hc : isWhitespace c
      · rw [List.dropWhile_cons_of_pos hc, ih, splitWhitespace_cons_space hc]
      · rw [List.dropWhile_cons_of_neg hc]

theorem takeWhile_word_ne_nil (hne : cs ≠ []) (hhead : cs.head?.any isWhitespace = false) :
    cs.takeWhile (!isWhitespace ·) ≠ [] := by
  cases cs with
  | nil => exact absurd rfl hne
  | cons c cs =>
      rw [List.takeWhile_cons_of_pos (by simpa using hhead)]
      exact List.cons_ne_nil _ _

theorem splitWhitespace_word (hne : cs ≠ []) (hhead : cs.head?.any isWhitespace = false) :
    splitWhitespace cs = cs.takeWhile (!isWhitespace ·) :: splitWhitespace (cs.dropWhile (!isWhitespace ·)) := by
  have hword : ∀ c ∈ cs.takeWhile (!isWhitespace ·), isWhitespace c = false := by
    intro c hc
    simpa using List.all_eq_true.mp List.all_takeWhile c hc
  have htake := takeWhile_word_ne_nil hne hhead
  have hwhole : cs.takeWhile (!isWhitespace ·) ++ cs.dropWhile (!isWhitespace ·) = cs :=
    List.takeWhile_append_dropWhile
  have hbehind : (cs.dropWhile (!isWhitespace ·)).head?.all isWhitespace = true := by
    cases hdrop : cs.dropWhile (!isWhitespace ·) with
    | nil => rfl
    | cons d ds =>
        have hd := List.head?_dropWhile_not (!isWhitespace ·) cs
        rw [hdrop, List.head?_cons] at hd
        simpa using hd
  generalize cs.takeWhile (!isWhitespace ·) = word at *
  generalize cs.dropWhile (!isWhitespace ·) = rest at *
  subst hwhole
  cases rest with
  | nil =>
      rw [List.append_nil, splitWhitespace, List.splitOnP_eq_singleton hword, List.filter_cons,
        if_pos (decide_eq_true htake)]
      rfl
  | cons d rest =>
      have hd : isWhitespace d = true := by simpa using hbehind
      rw [splitWhitespace, List.splitOnP_append_cons_of_forall_mem hword _ hd, List.filter_cons,
        if_pos (decide_eq_true htake), splitWhitespace_cons_space hd]
      rfl

theorem head?_dropWhile_isWhitespace (cs : List Char) : (cs.dropWhile isWhitespace).head?.any isWhitespace = false := by
  have h := List.head?_dropWhile_not isWhitespace cs
  cases hdrop : (cs.dropWhile isWhitespace).head? with
  | none => rfl
  | some c =>
      rw [hdrop] at h
      simpa using h

theorem skipFlags_eq {left : Nat} (hhead : cs.head?.any isWhitespace = false) (hleft : cs.length < left) :
    skipFlags left cs = some (nameOf (splitWhitespace cs)) := by
  induction left generalizing cs with
  | zero => exact absurd hleft (Nat.not_lt_zero _)
  | succ left ih =>
      rw [skipFlags]
      by_cases hne : cs = []
      · subst hne
        rfl
      · have hword := splitWhitespace_word hne hhead
        have hwhole : cs.takeWhile (!isWhitespace ·) ++ cs.dropWhile (!isWhitespace ·) = cs :=
          List.takeWhile_append_dropWhile
        rw [hword, nameOf, List.find?_cons]
        simp only [List.head?_cons]
        by_cases hflag : (cs.takeWhile (!isWhitespace ·)).head? = some '-'
        · have hslice : sliceFrom? cs (byteLen (cs.takeWhile (!isWhitespace ·))) =
              some (cs.dropWhile (!isWhitespace ·)) := by
            have h := sliceFrom?_append (cs.takeWhile (!isWhitespace ·)) (cs.dropWhile (!isWhitespace ·))
            rwa [hwhole] at h
          have hless : ((cs.dropWhile (!isWhitespace ·)).dropWhile isWhitespace).length < left := by
            have hpos := List.length_pos_iff.mpr (takeWhile_word_ne_nil hne hhead)
            have hsum := congrArg List.length hwhole
            have hsuffix := (List.dropWhile_suffix isWhitespace (l := cs.dropWhile (!isWhitespace ·))).length_le
            rw [List.length_append] at hsum
            omega
          rw [if_pos hflag, hslice]
          have hrest := ih (head?_dropWhile_isWhitespace (cs.dropWhile (!isWhitespace ·))) hless
          rw [splitWhitespace_dropWhile] at hrest
          simp only [hflag, ne_eq, not_true_eq_false, decide_false]
          exact hrest
        · rw [if_neg hflag]
          simp only [ne_eq, hflag, not_false_eq_true, decide_true]

end Words

theorem parseSubcmdAndNameAt_eq (rest : List Char) :
    parseSubcmdAndNameAt rest = some ((commandWords rest).bind nameOf) := by
  cases rest with
  | nil => rfl
  | cons c rest =>
      rw [parseSubcmdAndNameAt, commandWords]
      by_cases hc : isWhitespace c
      · simp only [if_pos hc]
        split
        next =>
          have hword := List.head?_dropWhile_not (!isWhitespace ·) (rest.dropWhile isWhitespace)
          cases hdrop : (rest.dropWhile isWhitespace).dropWhile (!isWhitespace ·) with
          | nil => rfl
          | cons d tail =>
              have hd : isWhitespace d = true := by
                rw [hdrop, List.head?_cons] at hword
                simpa using hword
              change skipFlags _ (tail.dropWhile isWhitespace) = _
              rw [skipFlags_eq (head?_dropWhile_isWhitespace tail) (Nat.lt_succ_self _), splitWhitespace_dropWhile,
                splitWhitespace_cons_space hd]
              rfl
        next => rfl
      · simp only [if_neg hc]
        rfl

/-! ### The places of `zmx` -/

section Places

variable {cmd front rest : List Char}

theorem isWordByte_ascii {c : Char} (hc : c.toNat < 128) : isWordByte c.toNat.toUInt8 = isWordChar c := by
  have h : ∀ n : Fin 128, isWordByte n.val.toUInt8 = isWordChar (Char.ofNat n.val) := by decide
  have hn := h ⟨c.toNat, hc⟩
  rwa [Char.ofNat_toNat] at hn

theorem isWordByte_wide {b : UInt8} (hb : 128 ≤ b.toNat) : isWordByte b = false := by
  have h : ∀ n : Fin 256, 128 ≤ n.val → isWordByte (.ofNat n.val) = false := by decide +kernel
  simpa using h ⟨b.toNat, b.toNat_lt⟩ hb

theorem toNat_lt_of_isWordChar {c : Char} (hc : isWordChar c = true) : c.toNat < 128 := by
  have hrange : c.val.toNat ≤ 122 := by
    delta isWordChar Char.isAlphanum Char.isAlpha Char.isUpper Char.isLower Char.isDigit at hc
    simp only [Bool.or_eq_true, Bool.and_eq_true, decide_eq_true_eq, beq_iff_eq, ge_iff_le, UInt32.le_iff_toNat_le] at hc
    rcases hc with ((⟨-, h⟩ | ⟨-, h⟩) | ⟨-, h⟩) | rfl
    · exact h.trans (by decide)
    · exact h
    · exact h.trans (by decide)
    · decide
  exact Nat.lt_of_le_of_lt hrange (by decide)

theorem boundaryOk_eq (h : cmd = front ++ rest) :
    boundaryOk (encodeUtf8 cmd) (byteLen front) = some (!front.getLast?.any isWordChar) := by
  rw [boundaryOk]
  rcases List.eq_nil_or_concat front with rfl | ⟨front, c, rfl⟩
  · rfl
  · rw [List.concat_eq_append] at h ⊢
    have hpos := c.utf8Size_pos
    have hlen : byteLen (front ++ [c]) = byteLen front + c.utf8Size := by
      rw [byteLen_append, byteLen_cons, byteLen_nil, Nat.add_zero]
    have hrest : Rest cmd (byteLen front) (c :: rest) := ⟨front, by rw [h, List.append_assoc]; rfl, rfl⟩
    obtain ⟨b, hget, hmem, -⟩ := hrest.getElem?_char (Nat.sub_lt hpos Nat.one_pos)
    rw [if_neg (by omega), show byteLen (front ++ [c]) - 1 = byteLen front + (c.utf8Size - 1) by omega, hget,
      List.getLast?_concat, Option.map_some, Option.any_some]
    congr 2
    by_cases hc : c.toNat < 128
    · rw [utf8EncodeChar_ascii hc, List.mem_singleton] at hmem
      rw [hmem, isWordByte_ascii hc]
    · rw [isWordByte_wide (le_of_mem_utf8EncodeChar (Nat.le_of_not_lt hc) hmem)]
      exact (Bool.eq_false_iff.mpr fun hword => hc (toNat_lt_of_isWordChar hword)).symm

theorem scan_skip {α : Type} {f : List (List Char) → Option α} {c : Char} {cs : List Char} (h : ¬ zmx <+: c :: cs)
    (before : Option Char) : scan f before (c :: cs) = scan f (some c) cs := by
  rw [scan, if_neg fun hplace => h hplace.1, Option.none_or]

theorem findText_cases (rest : List Char) :
    (findText zmx rest = none ∧ ∀ before, scan nameOf before rest = none) ∨
      ∃ skipped after, rest = skipped ++ (zmx ++ after) ∧ findText zmx rest = some (byteLen skipped) ∧
        ∀ before, scan nameOf before rest = scan nameOf (skipped.getLast?.or before) (zmx ++ after) := by
  induction rest with
  | nil => exact .inl ⟨rfl, fun _ => rfl⟩
  | cons c cs ih =>
      rw [findText]
      by_cases hzmx : zmx <+: c :: cs
      · obtain ⟨after, hafter⟩ := hzmx
        refine .inr ⟨[], after, hafter.symm, ?_, fun before => by rw [hafter]; rfl⟩
        rw [if_pos ⟨after, hafter⟩]
        rfl
      · rw [if_neg hzmx]
        rcases ih with ⟨hnone, hall⟩ | ⟨skipped, after, hrest, hfind, hall⟩
        · exact .inl ⟨by rw [hnone]; rfl, fun before => (scan_skip hzmx before).trans (hall _)⟩
        · refine .inr ⟨c :: skipped, after, by rw [hrest]; rfl, ?_, fun before => ?_⟩
          · rw [hfind, byteLen_cons, Option.map_some, Nat.add_comm]
          · rw [scan_skip hzmx, hall, List.getLast?_cons]
            cases skipped.getLast? <;> rfl

theorem scan_zmx (before : Option Char) (after : List Char) :
    scan nameOf before (zmx ++ after) =
      (if (!before.any isWordChar) = true then (commandWords after).bind nameOf else none).or
        (scan nameOf (some 'x') after) := by
  have hm : ¬ zmx <+: 'm' :: 'x' :: after := fun h => absurd (List.cons_prefix_cons.mp h).1 (by decide)
  have hx : ¬ zmx <+: 'x' :: after := fun h => absurd (List.cons_prefix_cons.mp h).1 (by decide)
  have hz : zmx <+: 'z' :: 'm' :: 'x' :: after := List.prefix_append zmx after
  change scan nameOf before ('z' :: 'm' :: 'x' :: after) = _
  rw [scan, scan_skip hm, scan_skip hx]
  by_cases hword : (!before.any isWordChar) = true
  · rw [if_pos ⟨hz, hword⟩, if_pos hword]
    rfl
  · rw [if_neg fun h => hword h.2, if_neg hword]

theorem searchFrom_eq {left : Nat} (h : cmd = front ++ rest) (hleft : rest.length < left) :
    searchFrom cmd left (byteLen front) = some (scan nameOf front.getLast? rest) := by
  induction left generalizing front rest with
  | zero => exact absurd hleft (Nat.not_lt_zero _)
  | succ left ih =>
      have hrest : Rest cmd (byteLen front) rest := ⟨front, h, rfl⟩
      rw [searchFrom, hrest.sliceFrom?]
      change (match findText zmx rest with | none => _ | some idx => _) = _
      rcases findText_cases rest with ⟨hnone, hall⟩ | ⟨skipped, after, hsplit, hfind, hall⟩
      · rw [hnone, hall]
      · have hplace : cmd = (front ++ skipped) ++ (zmx ++ after) := by rw [h, hsplit, List.append_assoc]
        have hbehind : cmd = (front ++ skipped ++ zmx) ++ after := by rw [hplace, List.append_assoc _ zmx]
        have hlen : byteLen front + byteLen skipped + 3 = byteLen (front ++ skipped ++ zmx) := by
          rw [byteLen_append, byteLen_append]
          rfl
        have hslice : sliceFrom? cmd (byteLen front + byteLen skipped + 3) = some after := by
          rw [hlen]
          exact Rest.sliceFrom? ⟨_, hbehind, rfl⟩
        have hnext : searchFrom cmd left (byteLen front + byteLen skipped + 3) = some (scan nameOf (some 'x') after) := by
          rw [hlen, ih hbehind]
          · rw [List.getLast?_append]
            rfl
          · have hthree : zmx.length = 3 := rfl
            rw [hsplit, List.length_append, List.length_append] at hleft
            omega
        have hbefore : (front ++ skipped).getLast? = skipped.getLast?.or front.getLast? := List.getLast?_append
        rw [hfind, hall, scan_zmx, ← hbefore]
        change (do if ← boundaryOk (encodeUtf8 cmd) (byteLen front + byteLen skipped) then _ else _) = _
        rw [← byteLen_append, boundaryOk_eq hplace, byteLen_append]
        cases hword : !(front ++ skipped).getLast?.any isWordChar with
        | false => exact hnext
        | true =>
            change (do match ← parseSubcmdAndNameAt (← sliceFrom? cmd (byteLen front + byteLen skipped + 3)) with
              | some name => some (some name)
              | none => searchFrom cmd left (byteLen front + byteLen skipped + 3)) = _
            rw [hslice, hnext]
            simp only [Option.bind_eq_bind, Option.bind_some, parseSubcmdAndNameAt_eq]
            cases (commandWords after).bind nameOf <;> rfl

/-- The scan never leaves the characters, and finds what a walk over these does. -/
theorem matchZmxWrapperNameAt_eq (cmd : List Char) : matchZmxWrapperNameAt cmd = some (scan nameOf none cmd) :=
  have hstart : cmd = [] ++ cmd := rfl
  searchFrom_eq hstart (Nat.lt_succ_self _)

end Places

/-! ### The expression -/

/-- `-\S+\s+`. -/
def flag : Regex := .seq (.one (· == '-')) (.seq (.plus (.one (!isWhitespace ·))) (.plus (.one isWhitespace)))

/-- `([^\s]+)`. -/
def name : Regex := .group (.plus (.one (!isWhitespace ·)))

/-- `(?:-\S+\s+)*([^\s]+)`. -/
def flagsAndName : Regex := .seq (.star flag) name

/-- `run|r|attach|a`. -/
def subcommand : Regex :=
  .alt (.text ['r', 'u', 'n']) (.alt (.text ['r']) (.alt (.text ['a', 't', 't', 'a', 'c', 'h']) (.text ['a'])))

/-- `\bzmx\s+(?:run|r|attach|a)\s+(?:-\S+\s+)*([^\s]+)`, with the white space of `char::is_whitespace` and the
word characters of ASCII. -/
def wrapperRegex : Regex :=
  .seq (.boundary isWordChar) (.seq (.text zmx) (.seq (.plus (.one isWhitespace))
    (.seq subcommand (.seq (.plus (.one isWhitespace)) flagsAndName))))

section Expression

open Regex

variable {k : Cursor}

theorem any_not_of_any {cs : List Char} {p : Char → Bool} (h : cs.head?.any p = true) : cs.head?.any (!p ·) = false := by
  cases cs with
  | nil => rfl
  | cons c cs => simpa using h

theorem any_of_any_not {cs : List Char} {p : Char → Bool} (h : cs.head?.any (!p ·) = true) : cs.head?.any p = false := by
  cases cs with
  | nil => rfl
  | cons c cs => simpa using h

def nameWithin (left : Nat) (k : Cursor) : List Cursor := (rounds flag.ways left k).flatMap name.ways

def nameBehind (left : Nat) (k k' : Cursor) : List Cursor :=
  if k'.rest.length < k.rest.length then nameWithin left k' else []

theorem nameWithin_succ (left : Nat) (k : Cursor) :
    nameWithin (left + 1) k = (flag.ways k).flatMap (nameBehind left k) ++ name.ways k :=
  flatMap_rounds_succ

theorem ways_name_nil (h : k.rest.head?.any (!isWhitespace ·) = false) : name.ways k = [] := by
  rw [name, ways, plus, ways, ways_one_nil h]
  rfl

theorem ways_flag_nil (h : k.rest.head?.any (· == '-') = false) : flag.ways k = [] := by
  rw [flag, ways, ways_one_nil h]
  rfl

theorem nameWithin_of_ne {left : Nat} (h : k.rest.head?.any (· == '-') = false) : nameWithin left k = name.ways k := by
  rw [nameWithin, rounds_nil (ways_flag_nil h)]
  exact List.flatMap_singleton _ k

theorem fails_nameWithin (left : Nat) : Fails (nameWithin left) isWhitespace := by
  intro k hk
  have hdash : k.rest.head?.any (· == '-') = false := by
    cases hrest : k.rest with
    | nil => rfl
    | cons c rest =>
        rw [hrest, List.head?_cons, Option.any_some] at hk
        rw [List.head?_cons, Option.any_some, beq_eq_false_iff_ne]
        rintro rfl
        exact absurd hk (by decide)
  rw [nameWithin_of_ne hdash, ways_name_nil (any_not_of_any hk)]

theorem fails_nameBehind (left : Nat) (k : Cursor) : Fails (nameBehind left k) isWhitespace := by
  intro k' hk'
  rw [nameBehind, fails_nameWithin left k' hk', ite_self]

theorem fails_flagsAndName : Fails flagsAndName.ways isWhitespace := fun k hk => fails_nameWithin k.rest.length k hk

theorem captures_name : Captures name := captures_group

theorem captures_nameBehind (left : Nat) (k : Cursor) :
    ∀ k' ∈ (flag.ways k).flatMap (nameBehind left k), k'.captured.isSome = true := by
  intro k' hmem
  obtain ⟨k'', -, hmem'⟩ := List.mem_flatMap.mp hmem
  rw [nameBehind] at hmem'
  split at hmem'
  · exact captures_name.rounds left k'' k' hmem'
  · exact absurd hmem' List.not_mem_nil

theorem flatMap_ways_flag {f : Cursor → List Cursor} (hf : Fails f isWhitespace) {rest : List Char}
    (hrest : k.rest = '-' :: rest) :
    (flag.ways k).flatMap f =
      let k' := Cursor.skipWhile { k with before := some '-', rest := rest } (!isWhitespace ·)
      if rest.head?.any (!isWhitespace ·) ∧ k'.rest.head?.any isWhitespace then f (k'.skipWhile isWhitespace) else [] := by
  have hspace : Fails (fun k => ((plus (one isWhitespace)).ways k).flatMap f) (!isWhitespace ·) := by
    intro k hk
    change ((plus (one isWhitespace)).ways k).flatMap f = []
    rw [flatMap_ways_plus hf, if_neg (by rw [any_of_any_not hk]; exact Bool.false_ne_true)]
  rw [flag, flatMap_ways_seq, ways_one_cons (p := (· == '-')) hrest rfl, List.flatMap_singleton, flatMap_ways_seq,
    flatMap_ways_plus hspace, flatMap_ways_plus hf]
  exact (ite_and ..).symm

theorem captureAt_name (h : k.rest.head?.any (!isWhitespace ·) = true) :
    captureAt name k = some (k.rest.takeWhile (!isWhitespace ·)) := by
  rw [captureAt, name, ways, List.head?_map, head?_ways_plus, if_pos h, Option.map_some, Option.bind_some,
    Cursor.upTo_skipWhile]

theorem takeWhile_ink {c : Char} (hc : isWhitespace c = false) (cs : List Char) :
    (c :: cs).takeWhile (!isWhitespace ·) = c :: cs.takeWhile (!isWhitespace ·) :=
  List.takeWhile_cons_of_pos (by rw [hc]; rfl)

theorem dropWhile_ink {c : Char} (hc : isWhitespace c = false) (cs : List Char) :
    (c :: cs).dropWhile (!isWhitespace ·) = cs.dropWhile (!isWhitespace ·) :=
  List.dropWhile_cons_of_pos (by rw [hc]; rfl)

theorem isFlag_dash (rest : List Char) :
    isFlag ('-' :: rest.takeWhile (!isWhitespace ·)) = rest.head?.any (!isWhitespace ·) := by
  cases rest with
  | nil => rfl
  | cons c rest =>
      rw [List.head?_cons, Option.any_some]
      cases hc : isWhitespace c with
      | true =>
          rw [List.takeWhile_cons_of_neg (by rw [hc]; exact Bool.false_ne_true)]
          rfl
      | false =>
          rw [takeWhile_ink hc]
          simp [isFlag]

/-- The first word, or what the loop goes on to when the word is a flag. -/
theorem capture_nameWithin {left : Nat} (hleft : k.rest.length ≤ left) (hhead : k.rest.head?.any isWhitespace = false) :
    (nameWithin left k).head?.bind (·.captured) = captured (splitWhitespace k.rest) := by
  have hempty {left : Nat} {k : Cursor} (hrest : k.rest = []) :
      (nameWithin left k).head?.bind (·.captured) = captured (splitWhitespace []) := by
    rw [nameWithin_of_ne (by rw [hrest]; rfl), ways_name_nil (by rw [hrest]; rfl)]
    rfl
  induction left generalizing k with
  | zero =>
      have hrest := List.length_eq_zero_iff.mp (Nat.le_zero.mp hleft)
      rw [hempty hrest, hrest]
  | succ left ih =>
      cases hrest : k.rest with
      | nil => exact hempty hrest
      | cons c rest =>
          have hne : k.rest ≠ [] := by rw [hrest]; exact List.cons_ne_nil c rest
          have hc : isWhitespace c = false := by
            rw [hrest] at hhead
            exact hhead
          have hname := captureAt_name (k := k) (by rw [hrest]; simpa using hc)
          have hwords := splitWhitespace_word hne hhead
          rw [hrest, takeWhile_ink hc] at hname
          rw [hrest, takeWhile_ink hc, dropWhile_ink hc] at hwords
          rw [hwords, captured]
          by_cases hdash : c = '-'
          · subst hdash
            rw [nameWithin_succ, bind_head?_append (captures_nameBehind left k), isFlag_dash,
              flatMap_ways_flag (fails_nameBehind left k) hrest]
            change (_ : Option (List Char)).or (captureAt name k) = _
            rw [hname]
            have hbehind := Cursor.rest_skipWhile (k := { k with before := some '-', rest := rest })
              (p := (!isWhitespace ·))
            dsimp only at hbehind ⊢
            rw [hbehind]
            by_cases hink : rest.head?.any (!isWhitespace ·) = true
            · rw [if_pos hink]
              by_cases hspace : (rest.dropWhile (!isWhitespace ·)).head?.any isWhitespace = true
              · rw [if_pos ⟨hink, hspace⟩]
                -- one flag, and the loop goes on behind it
                generalize hcursor : (Cursor.skipWhile { k with before := some '-', rest := rest }
                  (!isWhitespace ·)).skipWhile isWhitespace = next
                have hnext : next.rest = (rest.dropWhile (!isWhitespace ·)).dropWhile isWhitespace := by
                  rw [← hcursor, Cursor.rest_skipWhile, hbehind]
                have hless : next.rest.length < k.rest.length := by
                  have hword := (List.dropWhile_suffix (!isWhitespace ·) (l := rest)).length_le
                  have hblank := (List.dropWhile_suffix isWhitespace (l := rest.dropWhile (!isWhitespace ·))).length_le
                  rw [hnext, hrest, List.length_cons]
                  omega
                rw [nameBehind, if_pos hless, ih (by omega) (hnext ▸ head?_dropWhile_isWhitespace _), hnext,
                  splitWhitespace_dropWhile]
              · rw [if_neg fun h => hspace h.2]
                -- the text ends behind the flag
                have hend : rest.dropWhile (!isWhitespace ·) = [] := by
                  have hstop := List.head?_dropWhile_not (!isWhitespace ·) rest
                  cases hdrop : rest.dropWhile (!isWhitespace ·) with
                  | nil => rfl
                  | cons d ds =>
                      rw [hdrop] at hspace hstop
                      exact absurd (by simpa using hstop) hspace
                rw [hend]
                rfl
            · rw [if_neg hink, if_neg fun h => hink h.1]
              rfl
          · have hflag : isFlag (c :: rest.takeWhile (!isWhitespace ·)) = false := by simp [isFlag, hdash]
            have hdash' : k.rest.head?.any (· == '-') = false := by
              rw [hrest]
              simpa using hdash
            rw [nameWithin_of_ne hdash', hflag, if_neg Bool.false_ne_true]
            exact hname

theorem ways_plus_space_nil (h : k.rest.head?.any isWhitespace = false) :
    (seq (plus (one isWhitespace)) flagsAndName).ways k = [] := by
  change ((plus (one isWhitespace)).ways k).flatMap flagsAndName.ways = []
  rw [flatMap_ways_plus fails_flagsAndName, h]
  rfl

theorem fails_plus_space : Fails (seq (plus (one isWhitespace)) flagsAndName).ways (!isWhitespace ·) :=
  fun _ hk => ways_plus_space_nil (any_of_any_not hk)

theorem ways_subcommand {r : Regex} (hr : Fails r.ways (!isWhitespace ·)) (k : Cursor) :
    (seq subcommand r).ways k =
      if k.rest.takeWhile (!isWhitespace ·) ∈ subcommands then r.ways (k.skipWhile (!isWhitespace ·)) else [] := by
  change (subcommand.ways k).flatMap r.ways = _
  have hword {cs : List Char} (hcs : cs.all (!isWhitespace ·) = true) : ∀ c ∈ cs, (!isWhitespace c) = true :=
    List.all_eq_true.mp hcs
  rw [subcommand, flatMap_ways_alt, flatMap_ways_alt, flatMap_ways_alt, flatMap_ways_word hr (hword rfl),
    flatMap_ways_word hr (hword rfl), flatMap_ways_word hr (hword rfl), flatMap_ways_word hr (hword rfl)]
  generalize k.rest.takeWhile (!isWhitespace ·) = sub
  by_cases hmem : sub ∈ subcommands
  · rw [if_pos hmem]
    simp only [subcommands, List.mem_cons, List.not_mem_nil, or_false] at hmem
    rcases hmem with rfl | rfl | rfl | rfl <;> simp
  · rw [if_neg hmem]
    simp only [subcommands, List.mem_cons, List.not_mem_nil, or_false, not_or] at hmem
    obtain ⟨h1, h2, h3, h4⟩ := hmem
    rw [if_neg h1, if_neg h2, if_neg h3, if_neg h4]
    rfl

theorem fails_subcommand {r : Regex} (hr : Fails r.ways (!isWhitespace ·)) :
    Fails (seq subcommand r).ways isWhitespace := by
  intro k hk
  have htake : k.rest.takeWhile (!isWhitespace ·) = [] := by
    cases hrest : k.rest with
    | nil => rfl
    | cons c rest =>
        rw [hrest] at hk
        exact List.takeWhile_cons_of_neg (by rw [show isWhitespace c = true from hk]; exact Bool.false_ne_true)
  rw [ways_subcommand hr, htake, if_neg (by decide)]

theorem captureAt_behind (k : Cursor) (h : k.rest.head?.any (!isWhitespace ·) = false) :
    captureAt (seq (plus (one isWhitespace)) flagsAndName) k = captured (splitWhitespace k.rest) := by
  rw [captureAt]
  cases hspace : k.rest.head?.any isWhitespace with
  | false =>
      have hend : k.rest = [] := by
        cases hrest : k.rest with
        | nil => rfl
        | cons c rest =>
            rw [hrest, List.head?_cons, Option.any_some] at h hspace
            rw [hspace] at h
            cases h
      rw [ways_plus_space_nil hspace, hend]
      rfl
  | true =>
      have hways : (seq (plus (one isWhitespace)) flagsAndName).ways k = flagsAndName.ways (k.skipWhile isWhitespace) := by
        change ((plus (one isWhitespace)).ways k).flatMap flagsAndName.ways = _
        rw [flatMap_ways_plus fails_flagsAndName, if_pos hspace]
      have hrest : (k.skipWhile isWhitespace).rest = k.rest.dropWhile isWhitespace := Cursor.rest_skipWhile
      rw [hways, ← splitWhitespace_dropWhile k.rest, ← hrest]
      exact capture_nameWithin (Nat.le_refl _) (hrest ▸ head?_dropWhile_isWhitespace k.rest)

theorem captureAt_command (k : Cursor) :
    captureAt (seq (plus (one isWhitespace)) (seq subcommand (seq (plus (one isWhitespace)) flagsAndName))) k =
      (commandWords k.rest).bind captured := by
  have hways : (seq (plus (one isWhitespace)) (seq subcommand (seq (plus (one isWhitespace)) flagsAndName))).ways k =
      if k.rest.head?.any isWhitespace then
        (seq subcommand (seq (plus (one isWhitespace)) flagsAndName)).ways (k.skipWhile isWhitespace) else [] :=
    flatMap_ways_plus (fails_subcommand fails_plus_space)
  rw [captureAt, hways]
  cases hrest : k.rest with
  | nil => rfl
  | cons c rest =>
      rw [commandWords, List.head?_cons, Option.any_some]
      by_cases hc : isWhitespace c = true
      · have hskip : (k.skipWhile isWhitespace).rest = rest.dropWhile isWhitespace := by
          rw [Cursor.rest_skipWhile, hrest, List.dropWhile_cons_of_pos hc]
        rw [if_pos hc, if_pos hc, ways_subcommand fails_plus_space, hskip]
        by_cases hsub : (rest.dropWhile isWhitespace).takeWhile (!isWhitespace ·) ∈ subcommands
        · have hbehind : ((k.skipWhile isWhitespace).skipWhile (!isWhitespace ·)).rest =
              (rest.dropWhile isWhitespace).dropWhile (!isWhitespace ·) := by
            rw [Cursor.rest_skipWhile, hskip]
          have hhead := List.head?_dropWhile_not (!isWhitespace ·) (rest.dropWhile isWhitespace)
          have hstop : ((k.skipWhile isWhitespace).skipWhile (!isWhitespace ·)).rest.head?.any (!isWhitespace ·) =
              false := by
            rw [hbehind]
            cases hdrop : ((rest.dropWhile isWhitespace).dropWhile (!isWhitespace ·)).head? with
            | none => rfl
            | some d =>
                rw [hdrop] at hhead
                simpa using hhead
          simp only [if_pos hsub, Option.bind_some]
          rw [← hbehind]
          exact captureAt_behind _ hstop
        · simp only [if_neg hsub]
          rfl
      · rw [if_neg hc, if_neg hc]
        rfl

/-- **What the expression captures at a place.** -/
theorem captureAt_wrapper (k : Cursor) :
    captureAt wrapperRegex k =
      if zmx <+: k.rest ∧ (!k.before.any isWordChar) = true then (commandWords (k.rest.drop 3)).bind captured
      else none := by
  let command : Regex := seq (plus (one isWhitespace)) (seq subcommand (seq (plus (one isWhitespace)) flagsAndName))
  have hways : wrapperRegex.ways k =
      ((boundary isWordChar).ways k).flatMap fun k' => if zmx <+: k'.rest then command.ways (k'.skip zmx) else [] := by
    change ((boundary isWordChar).ways k).flatMap (fun k' => ((text zmx).ways k').flatMap command.ways) = _
    simp only [flatMap_ways_text]
  rw [captureAt, hways]
  by_cases hzmx : zmx <+: k.rest
  · obtain ⟨after, hafter⟩ := hzmx
    have hhead : k.rest.head?.any isWordChar = true := by
      rw [← hafter]
      rfl
    have hcommand : captureAt command (k.skip zmx) = (commandWords (k.rest.drop 3)).bind captured :=
      captureAt_command (k.skip zmx)
    rw [ways, hhead, Bool.bne_true]
    cases hword : !k.before.any isWordChar with
    | false =>
        rw [if_neg Bool.false_ne_true, if_neg fun h => Bool.false_ne_true h.2]
        rfl
    | true =>
        rw [if_pos rfl, if_pos ⟨⟨after, hafter⟩, rfl⟩, List.flatMap_singleton, if_pos ⟨after, hafter⟩]
        exact hcommand
  · rw [if_neg fun h => hzmx h.1, ways]
    split
    · rw [List.flatMap_singleton, if_neg hzmx]
      rfl
    · rfl

theorem captures_wrapper : Captures wrapperRegex :=
  .seq (.seq (.seq (.seq (.seq (.seq captures_name)))))

theorem search_wrapper (before : Option Char) (cs : List Char) :
    (wrapperRegex.search before cs).bind (·.captured) = scan captured before cs := by
  induction cs generalizing before with
  | nil =>
      change captureAt wrapperRegex ⟨before, [], none⟩ = none
      rw [captureAt_wrapper, if_neg fun h => absurd (List.prefix_nil.mp h.1) (by decide)]
  | cons c cs ih => rw [captures_wrapper.search_cons, ih, captureAt_wrapper, scan]; rfl

end Expression

/-! ### Where they agree -/

def wrapperWords (cmd : List Char) : Option (List (List Char)) :=
  scan (fun words => if words = [] then none else some words) none cmd

/-- Some word does not begin with a dash, and no dash alone stands in front of it. -/
def Named (words : List (List Char)) : Prop :=
  ∃ flags name rest, words = flags ++ name :: rest ∧ (∀ word ∈ flags, isFlag word = true) ∧ name.head? ≠ some '-'

theorem head?_of_isFlag {word : List Char} (h : isFlag word = true) : word.head? = some '-' := by
  simpa using (Bool.and_eq_true_iff.mp h).1

theorem head?_of_nameOf {words : List (List Char)} {name : List Char} (h : nameOf words = some name) :
    name.head? ≠ some '-' := by
  simpa using List.find?_some h

theorem named_cons {word : List Char} {words : List (List Char)} (hflag : isFlag word = true) :
    Named (word :: words) ↔ Named words := by
  constructor
  · rintro ⟨flags, name, rest, heq, hflags, hname⟩
    cases flags with
    | nil =>
        obtain ⟨rfl, -⟩ := List.cons.inj heq
        exact absurd (head?_of_isFlag hflag) hname
    | cons flag flags =>
        obtain ⟨-, rfl⟩ := List.cons.inj heq
        exact ⟨flags, name, rest, rfl, fun w hw => hflags w (List.mem_cons_of_mem _ hw), hname⟩
  · rintro ⟨flags, name, rest, rfl, hflags, hname⟩
    exact ⟨word :: flags, name, rest, rfl, List.forall_mem_cons.mpr ⟨hflag, hflags⟩, hname⟩

theorem captured_cases {words : List (List Char)} (hne : words ≠ []) :
    ∃ word, captured words = some word ∧
      (Named words ∧ nameOf words = some word ∨ ¬ Named words ∧ word.head? = some '-') := by
  induction words with
  | nil => exact absurd rfl hne
  | cons word words ih =>
      rw [captured, nameOf, List.find?_cons]
      cases hflag : isFlag word with
      | true =>
          have hdash := head?_of_isFlag hflag
          have hskip : decide (word.head? ≠ some '-') = false := by simpa using hdash
          rw [if_pos rfl, hskip, named_cons hflag]
          by_cases hwords : words = []
          · subst hwords
            refine ⟨word, rfl, .inr ⟨?_, hdash⟩⟩
            rintro ⟨flags, name, rest, heq, -⟩
            exact absurd heq.symm (List.append_ne_nil_of_right_ne_nil flags (List.cons_ne_nil name rest))
          · obtain ⟨word', hcaptured, hcases⟩ := ih hwords
            exact ⟨word', by rw [hcaptured, Option.some_or], hcases⟩
      | false =>
          refine ⟨word, if_neg Bool.false_ne_true, ?_⟩
          by_cases hdash : word.head? = some '-'
          · refine .inr ⟨?_, hdash⟩
            rintro ⟨flags, name, rest, heq, hflags, hname⟩
            cases flags with
            | nil =>
                obtain ⟨rfl, -⟩ := List.cons.inj heq
                exact hname hdash
            | cons flag flags =>
                obtain ⟨rfl, -⟩ := List.cons.inj heq
                rw [hflags word List.mem_cons_self] at hflag
                cases hflag
          · have htake : decide (word.head? ≠ some '-') = true := by simpa using hdash
            rw [htake]
            exact .inl ⟨⟨[], word, words, rfl, fun _ h => absurd h List.not_mem_nil, hdash⟩, rfl⟩

theorem head?_of_scan {before : Option Char} {cs name : List Char} (h : scan nameOf before cs = some name) :
    name.head? ≠ some '-' := by
  induction cs generalizing before with
  | nil => cases h
  | cons c cs ih =>
      rw [scan, Option.or_eq_some_iff] at h
      rcases h with h | ⟨-, h⟩
      · split at h
        · obtain ⟨words, -, hname⟩ := Option.bind_eq_some_iff.mp h
          exact head?_of_nameOf hname
        · cases h
      · exact ih h

theorem scan_agrees (before : Option Char) (cs : List Char) :
    scan nameOf before cs = scan captured before cs ↔
      ∀ words, scan (fun words => if words = [] then none else some words) before cs = some words → Named words := by
  induction cs generalizing before with
  | nil => exact iff_of_true rfl fun _ h => nomatch h
  | cons c cs ih =>
      have hvalue : ∀ name, scan nameOf before (c :: cs) = some name → name.head? ≠ some '-' :=
        fun _ => head?_of_scan
      rw [scan] at hvalue
      rw [scan, scan, scan]
      split at hvalue
      next hplace =>
        rw [if_pos hplace, if_pos hplace, if_pos hplace]
        cases hcommand : commandWords (cs.drop 2) with
        | none => exact ih (some c)
        | some words =>
            rw [hcommand] at hvalue
            simp only [Option.bind_some] at hvalue ⊢
            by_cases hwords : words = []
            · subst hwords
              exact ih (some c)
            · obtain ⟨word, hcaptured, hcases⟩ := captured_cases hwords
              rw [hcaptured, if_neg hwords, Option.some_or, Option.some_or]
              rcases hcases with ⟨hnamed, hname⟩ | ⟨hnamed, hdash⟩
              · rw [hname, Option.some_or]
                exact iff_of_true rfl fun _ h => Option.some.inj h ▸ hnamed
              · exact iff_of_false (fun heq => hvalue word heq hdash) fun h => hnamed (h words rfl)
      next hplace =>
        rw [if_neg hplace, if_neg hplace, if_neg hplace]
        exact ih (some c)

/-- **The scan is the expression just where the command has a name.** It never leaves the characters of the
line; it finds what the group of the expression captures exactly if of the words behind the first command one
is no flag, and no dash alone stands in front of it. -/
theorem matchZmxWrapperName_wrapperRegex (cmd : List Char) :
    ∃ name : Option (List Char), matchZmxWrapperNameAt cmd = some name ∧
      matchZmxWrapperName (String.ofList cmd) = name.map String.ofList ∧
        (name = wrapperRegex.firstCapture cmd ↔
          ∀ words : List (List Char), wrapperWords cmd = some words → Named words) := by
  refine ⟨scan nameOf none cmd, matchZmxWrapperNameAt_eq cmd, ?_, ?_⟩
  · rw [matchZmxWrapperName, String.toList_ofList, matchZmxWrapperFrom_eq]
  · rw [Regex.firstCapture, search_wrapper]
    exact scan_agrees none cmd

/-- Behind `zmx run -d` the expression goes back to the flag. -/
theorem flag_not_captured :
    ¬ ∀ cmd : List Char, matchZmxWrapperNameAt cmd = some (wrapperRegex.firstCapture cmd) := by
  intro h
  have hcmd := h ['z', 'm', 'x', ' ', 'r', 'u', 'n', ' ', '-', 'd']
  rw [matchZmxWrapperNameAt_eq, Regex.firstCapture, search_wrapper, Option.some.injEq] at hcmd
  exact absurd hcmd (by decide)

end QuorumDispatch.Kill
