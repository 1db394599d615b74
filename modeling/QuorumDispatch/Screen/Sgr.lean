import Mathlib.Tactic.IntervalCases
import QuorumDispatch.Screen.Render

/-!
Styles on the wire: the bytes that `write_sgr_with_reset_to` writes, and what comes back when a
parser has read their parameters.
-/

namespace QuorumDispatch.Screen

open Lib

set_option linter.dupNamespace false

/-! ### The writer -/

/-- The bytes so far, and whether the next parameter needs a separator in front. -/
structure SgrWriter where
  out : Bytes
  needSep : Bool
deriving DecidableEq, Repr

namespace SgrWriter

def push (bs : Bytes) (w : SgrWriter) : SgrWriter := { w with out := w.out ++ bs }

def sep (w : SgrWriter) : SgrWriter :=
  { out := if w.needSep then w.out ++ [0x3B] else w.out, needSep := true }

end SgrWriter

/-- `write_u8` -/
def writeU8 (n : UInt8) : Bytes :=
  (if 100 ≤ n then [0x30 + n / 100] else []) ++
  (if 10 ≤ n then [0x30 + n / 10 % 10] else []) ++
  [0x30 + n % 10]

namespace Style

open SgrWriter

/-- `write_color_to` -/
def writeColorTo (color : Option Color) (base brightBase : UInt8) (extended : Bytes)
    (w : SgrWriter) : SgrWriter :=
  match color with
  | some (.indexed c) =>
      if c < 8 then w.sep.push (writeU8 (base + c))
      else if c < 16 then w.sep.push (writeU8 (brightBase + c - 8))
      else ((w.sep.push extended).push (ascii ";5;")).push (writeU8 c)
  | some (.rgb r g b) =>
      ((((((w.sep.push extended).push (ascii ";2;")).push (writeU8 r)).push (ascii ";")).push
        (writeU8 g)).push (ascii ";")).push (writeU8 b)
  | none => w

def writeFlag (set : Bool) (digit : String) (w : SgrWriter) : SgrWriter :=
  if set then w.sep.push (ascii digit) else w

def writeUnderline (underline : UnderlineStyle) (w : SgrWriter) : SgrWriter :=
  match underline with
  | .none => w
  | .single => w.sep.push (ascii "4")
  | other => ((w.sep.push (ascii "4")).push (ascii ":")).push [0x30 + UInt8.ofNat other.sgrParam]

def writeUnderlineColor (color : Option Color) (w : SgrWriter) : SgrWriter :=
  match color with
  | some (.indexed c) => (w.sep.push (ascii "58;5;")).push (writeU8 c)
  | some (.rgb r g b) =>
      (((((w.sep.push (ascii "58;2;")).push (writeU8 r)).push (ascii ";")).push (writeU8 g)).push
        (ascii ";")).push (writeU8 b)
  | none => w

/-- `write_sgr_to` -/
def writeSgrTo (s : Style) (w : SgrWriter) : SgrWriter :=
  let w := writeFlag s.bold "1" w
  let w := writeFlag s.dim "2" w
  let w := writeFlag s.italic "3" w
  let w := writeUnderline s.underline w
  let w := writeFlag s.blink "5" w
  let w := writeFlag s.inverse "7" w
  let w := writeFlag s.hidden "8" w
  let w := writeFlag s.strikethrough "9" w
  let w := writeColorTo s.fg 30 90 (ascii "38") w
  let w := writeColorTo s.bg 40 100 (ascii "48") w
  writeUnderlineColor s.underlineColor w

/-- `write_sgr_with_reset_to` -/
def writeSgrWithResetTo (s : Style) (out : Bytes) : Bytes :=
  if s.isDefault then out ++ ascii "\x1b[0m"
  else (s.writeSgrTo ⟨out ++ ascii "\x1b[0", true⟩).out ++ ascii "m"

end Style

/-! ### The bytes of the parameters -/

def paramBehind (p : List Nat) : Bytes := 0x3B :: Sequence.joinParams 0x3A (p.map writeU16)

theorem writeU8_eq (n : UInt8) : writeU8 n = writeU16 n.toNat := by
  have hlt := n.toNat_lt
  have h1000 : ¬ 1000 ≤ n.toNat := by omega
  have h10000 : ¬ 10000 ≤ n.toNat := by omega
  have hdigit (k : UInt8) (m : Nat) (hk : k.toNat = m % 10) :
      0x30 + k = UInt8.ofNat (48 + m % 10) := by
    apply UInt8.toNat_inj.mp
    rw [UInt8.toNat_add, hk]
    simp
  have hhundreds : 0x30 + n / 100 = UInt8.ofNat (48 + n.toNat / 100 % 10) :=
    hdigit _ _ (by simp; omega)
  have htens : 0x30 + n / 10 % 10 = UInt8.ofNat (48 + n.toNat / 10 % 10) :=
    hdigit _ _ (by simp)
  have hones : 0x30 + n % 10 = UInt8.ofNat (48 + n.toNat % 10) := hdigit _ _ (by simp)
  simp only [writeU8, writeU16, h1000, h10000, hhundreds, htens, hones, UInt8.le_iff_toNat_le,
    ge_iff_le, if_false, List.nil_append]
  rfl

theorem flatten_intersperse_cons (sep : Bytes) (x : Bytes) (xs : List Bytes) :
    ((x :: xs).intersperse sep).flatten = x ++ xs.flatMap (sep ++ ·) := by
  induction xs generalizing x with
  | nil => simp
  | cons y ys ih =>
      rw [List.intersperse_cons_cons, List.flatten_cons, List.flatten_cons, ih, List.flatMap_cons,
        List.append_assoc]

theorem paramBytes_cons (p : List Nat) (ps : List (List Nat)) :
    Sequence.paramBytes (p :: ps) =
      Sequence.joinParams 0x3A (p.map writeU16) ++ ps.flatMap paramBehind := by
  rw [Sequence.paramBytes, List.map_cons, Sequence.joinParams, flatten_intersperse_cons,
    List.flatMap_map]
  rfl

namespace Style

open SgrWriter

def Writes (f : SgrWriter → SgrWriter) (params : List (List Nat)) : Prop :=
  ∀ out, f ⟨out, true⟩ = ⟨out ++ params.flatMap paramBehind, true⟩

theorem Writes.comp {f g : SgrWriter → SgrWriter} {ps qs : List (List Nat)} (hf : Writes f ps)
    (hg : Writes g qs) : Writes (fun w => g (f w)) (ps ++ qs) := by
  intro out
  change g (f ⟨out, true⟩) = _
  rw [hf, hg, List.flatMap_append, List.append_assoc]

theorem writes_flag (set : Bool) {n : Nat} {digit : String} (hdigit : ascii digit = writeU16 n) :
    Writes (writeFlag set digit) (if set then [[n]] else []) := by
  intro out
  cases set with
  | false => simp [writeFlag]
  | true => simp [writeFlag, sep, push, hdigit, paramBehind, Sequence.joinParams]

theorem writes_underline (underline : UnderlineStyle) :
    Writes (writeUnderline underline) (underlineParams underline) := by
  intro out
  have hfour : ascii "4" = writeU16 4 := by decide
  have hcolon : ascii ":" = [0x3A] := by decide
  have hkind : [0x30 + UInt8.ofNat underline.sgrParam] = writeU16 underline.sgrParam := by
    cases underline <;> decide
  cases underline <;>
    simp_all [writeUnderline, underlineParams, sep, push, paramBehind, Sequence.joinParams]

theorem writes_color (color : Option Color) {base brightBase : UInt8} {extended : Nat}
    {text : Bytes} (hbase : base.toNat ≤ 40) (hbright : brightBase.toNat ≤ 100)
    (htext : text = writeU16 extended) : Writes (writeColorTo color base brightBase text)
      (colorParams color base.toNat brightBase.toNat extended) := by
  intro out
  have hfive : ascii ";5;" = 0x3B :: writeU16 5 ++ [0x3B] := by decide
  have htwo : ascii ";2;" = 0x3B :: writeU16 2 ++ [0x3B] := by decide
  have hsep : ascii ";" = [0x3B] := by decide
  match color with
  | none => simp [writeColorTo, colorParams]
  | some (.rgb r g b) =>
      simp [writeColorTo, colorParams, sep, push, paramBehind, Sequence.joinParams, writeU8_eq,
        htwo, hsep, htext]
  | some (.indexed c) =>
      have hlow : c < 8 ↔ c.toNat < 8 := UInt8.lt_iff_toNat_lt
      have hhigh : c < 16 ↔ c.toNat < 16 := UInt8.lt_iff_toNat_lt
      simp only [writeColorTo, colorParams, hlow, hhigh]
      split
      · have hsum : (base + c).toNat = base.toNat + c.toNat := by
          rw [UInt8.toNat_add]
          omega
        simp [sep, push, paramBehind, Sequence.joinParams, writeU8_eq, hsum]
      split
      · have hsum : (brightBase + c - 8).toNat = brightBase.toNat + c.toNat - 8 := by
          rw [UInt8.toNat_sub, UInt8.toNat_add]
          simp
          omega
        simp [sep, push, paramBehind, Sequence.joinParams, writeU8_eq, hsum]
      · simp [sep, push, paramBehind, Sequence.joinParams, writeU8_eq, hfive, htext]

theorem writes_underlineColor (color : Option Color) :
    Writes (writeUnderlineColor color) (underlineColorParams color) := by
  intro out
  have hfive : ascii "58;5;" = writeU16 58 ++ 0x3B :: writeU16 5 ++ [0x3B] := by decide
  have htwo : ascii "58;2;" = writeU16 58 ++ 0x3B :: writeU16 2 ++ [0x3B] := by decide
  have hsep : ascii ";" = [0x3B] := by decide
  match color with
  | none => simp [writeUnderlineColor, underlineColorParams]
  | some (.indexed c) =>
      simp [writeUnderlineColor, underlineColorParams, sep, push, paramBehind, Sequence.joinParams,
        writeU8_eq, hfive]
  | some (.rgb r g b) =>
      simp [writeUnderlineColor, underlineColorParams, sep, push, paramBehind, Sequence.joinParams,
        writeU8_eq, htwo, hsep]

theorem writes_sgr (s : Style) : Writes s.writeSgrTo s.sgrParams :=
  ((((((((((writes_flag s.bold (by decide)).comp (writes_flag s.dim (by decide))).comp
    (writes_flag s.italic (by decide))).comp (writes_underline s.underline)).comp
    (writes_flag s.blink (by decide))).comp (writes_flag s.inverse (by decide))).comp
    (writes_flag s.hidden (by decide))).comp (writes_flag s.strikethrough (by decide))).comp
    (writes_color s.fg (by decide) (by decide) (by decide))).comp
    (writes_color s.bg (by decide) (by decide) (by decide))).comp
    (writes_underlineColor s.underlineColor)

/-- **The bytes of a style** are those of its sequence. -/
theorem writeSgrWithResetTo_eq (s : Style) (out : Bytes) :
    s.writeSgrWithResetTo out = out ++ (Sequence.sgr s).bytes := by
  have hbytes : (Sequence.sgr s).bytes =
      ascii "\x1b[0" ++ s.sgrParams.flatMap paramBehind ++ ascii "m" := by
    rw [Sequence.sgr, Sequence.bytes, sgrWithReset, paramBytes_cons]
    have hfinal : String.utf8EncodeChar 'm' = ascii "m" := by decide
    rw [hfinal]
    simp [Sequence.joinParams, ascii, writeU16]
  unfold writeSgrWithResetTo
  split
  case isTrue hdefault =>
    obtain rfl : s = {} := by simpa [isDefault] using hdefault
    rw [hbytes]
    rfl
  case isFalse =>
    rw [s.writes_sgr, hbytes]
    simp

/-! ### Reading back -/

def Reads (params : List (List Nat)) (f : Style → Style) : Prop :=
  ∀ s rest, applyParams s 0 (params ++ rest) = applyParams (f s) 0 rest

theorem reads_flag (set : Bool) {n : Nat} {f : Bool → Style → Style} (hfalse : ∀ s, f false s = s)
    (htrue : ∀ s rest, applyParam s [n] rest = (f true s, 0)) :
    Reads (if set then [[n]] else []) (f set) := by
  intro s rest
  cases set with
  | false => exact congrArg (applyParams · 0 rest) (hfalse s).symm
  | true => simp [applyParams, htrue]

theorem reads_underline (underline : UnderlineStyle) : Reads (underlineParams underline)
    (fun s => { s with underline := if underline = .none then s.underline else underline }) := by
  intro s rest
  cases underline <;> rfl

theorem u8_toNat (c : UInt8) : u8 c.toNat = c := UInt8.ofNat_toNat

theorem reads_extended (color : Color) {n : Nat} {f : Option Color → Style → Style}
    (hextended : ∀ s rest, applyParam s [n] rest =
      (f (parseExtendedColor [n] rest).1 s, (parseExtendedColor [n] rest).2)) :
    Reads (match color with
      | .indexed c => [[n], [5], [c.toNat]]
      | .rgb r g b => [[n], [2], [r.toNat], [g.toNat], [b.toNat]]) (f (some color)) := by
  intro s rest
  cases color <;> simp [applyParams, hextended, parseExtendedColor, firstParam, u8_toNat]

theorem reads_color (color : Option Color) {base brightBase extended : Nat}
    {f : Option Color → Style → Style} (hnone : ∀ s, f none s = s)
    (hbase : ∀ s c rest, c < 8 → applyParam s [base + c] rest = (f (some (.indexed (u8 c))) s, 0))
    (hbright : ∀ s c rest, c < 8 →
      applyParam s [brightBase + c] rest = (f (some (.indexed (u8 (c + 8)))) s, 0))
    (hextended : ∀ s rest, applyParam s [extended] rest =
      (f (parseExtendedColor [extended] rest).1 s, (parseExtendedColor [extended] rest).2)) :
    Reads (colorParams color base brightBase extended) (f color) := by
  match color with
  | none => exact fun s rest => congrArg (applyParams · 0 rest) (hnone s).symm
  | some (.rgb r g b) => exact reads_extended (.rgb r g b) hextended
  | some (.indexed c) =>
      rw [colorParams]
      split
      case isTrue hlow =>
        intro s rest
        simp [applyParams, hbase _ _ _ hlow, u8_toNat]
      split
      case isTrue hlow hhigh =>
        -- the second half of the basic colours has a range of its own
        intro s rest
        have hsum : brightBase + c.toNat - 8 = brightBase + (c.toNat - 8) := by omega
        have hback : c.toNat - 8 + 8 = c.toNat := by omega
        simp [applyParams, hsum, hbright _ (c.toNat - 8) _ (by omega), hback, u8_toNat]
      case isFalse => exact reads_extended (.indexed c) hextended

theorem reads_underlineColor (color : Option Color) : Reads (underlineColorParams color)
    (fun s => { s with underlineColor := color.or s.underlineColor }) := by
  have hextended (s : Style) (rest : List (List Nat)) : applyParam s [58] rest =
      ({ s with underlineColor := (parseExtendedColor [58] rest).1.or s.underlineColor },
        (parseExtendedColor [58] rest).2) := by
    simp only [applyParam, firstParam, List.headD_cons]
    cases (parseExtendedColor [58] rest).1 <;> rfl
  match color with
  | none => exact fun s rest => rfl
  | some (.indexed c) =>
      exact reads_extended (f := fun color s => { s with underlineColor := color.or s.underlineColor })
        (.indexed c) hextended
  | some (.rgb r g b) =>
      exact reads_extended (f := fun color s => { s with underlineColor := color.or s.underlineColor })
        (.rgb r g b) hextended

theorem reads_fg (color : Option Color) : Reads (colorParams color 30 90 38)
    (fun s => { s with fg := color.or s.fg }) := by
  refine reads_color (f := fun color s => { s with fg := color.or s.fg }) color (fun _ => rfl) ?_ ?_ ?_
  · intro s c rest hc
    interval_cases c <;> rfl
  · intro s c rest hc
    interval_cases c <;> rfl
  · intro s rest
    simp only [applyParam, firstParam, List.headD_cons]
    cases (parseExtendedColor [38] rest).1 <;> rfl

theorem reads_bg (color : Option Color) : Reads (colorParams color 40 100 48)
    (fun s => { s with bg := color.or s.bg }) := by
  refine reads_color (f := fun color s => { s with bg := color.or s.bg }) color (fun _ => rfl) ?_ ?_ ?_
  · intro s c rest hc
    interval_cases c <;> rfl
  · intro s c rest hc
    interval_cases c <;> rfl
  · intro s rest
    simp only [applyParam, firstParam, List.headD_cons]
    cases (parseExtendedColor [48] rest).1 <;> rfl

/-- What the parameters of a style make of another one: whatever they set is as in the style. -/
def overlay (s t : Style) : Style where
  bold := s.bold || t.bold
  dim := s.dim || t.dim
  italic := s.italic || t.italic
  underline := if s.underline = .none then t.underline else s.underline
  blink := s.blink || t.blink
  inverse := s.inverse || t.inverse
  strikethrough := s.strikethrough || t.strikethrough
  hidden := s.hidden || t.hidden
  fg := s.fg.or t.fg
  bg := s.bg.or t.bg
  underlineColor := s.underlineColor.or t.underlineColor

theorem overlay_default (s : Style) : s.overlay {} = s := by
  obtain ⟨bold, dim, italic, underline, blink, inverse, strikethrough, hidden, fg, bg, uc⟩ := s
  have hunderline : (if underline = .none then UnderlineStyle.none else underline) = underline := by
    split
    case isTrue h => exact h.symm
    case isFalse => rfl
  simp [overlay, hunderline]

theorem reads_sgr (s : Style) : Reads s.sgrParams s.overlay := by
  have hbold : Reads (if s.bold then [[1]] else []) fun t => { t with bold := s.bold || t.bold } :=
    reads_flag (f := fun set t => { t with bold := set || t.bold }) s.bold (fun _ => rfl)
      fun _ _ => rfl
  have hdim : Reads (if s.dim then [[2]] else []) fun t => { t with dim := s.dim || t.dim } :=
    reads_flag (f := fun set t => { t with dim := set || t.dim }) s.dim (fun _ => rfl) fun _ _ => rfl
  have hitalic : Reads (if s.italic then [[3]] else [])
      fun t => { t with italic := s.italic || t.italic } :=
    reads_flag (f := fun set t => { t with italic := set || t.italic }) s.italic (fun _ => rfl)
      fun _ _ => rfl
  have hblink : Reads (if s.blink then [[5]] else []) fun t => { t with blink := s.blink || t.blink } :=
    reads_flag (f := fun set t => { t with blink := set || t.blink }) s.blink (fun _ => rfl)
      fun _ _ => rfl
  have hinverse : Reads (if s.inverse then [[7]] else [])
      fun t => { t with inverse := s.inverse || t.inverse } :=
    reads_flag (f := fun set t => { t with inverse := set || t.inverse }) s.inverse (fun _ => rfl)
      fun _ _ => rfl
  have hhidden : Reads (if s.hidden then [[8]] else [])
      fun t => { t with hidden := s.hidden || t.hidden } :=
    reads_flag (f := fun set t => { t with hidden := set || t.hidden }) s.hidden (fun _ => rfl)
      fun _ _ => rfl
  have hstrike : Reads (if s.strikethrough then [[9]] else [])
      fun t => { t with strikethrough := s.strikethrough || t.strikethrough } :=
    reads_flag (f := fun set t => { t with strikethrough := set || t.strikethrough }) s.strikethrough
      (fun _ => rfl) fun _ _ => rfl
  intro t rest
  simp only [sgrParams, List.append_assoc]
  rw [hbold, hdim, hitalic, reads_underline, hblink, hinverse, hhidden, hstrike, reads_fg, reads_bg,
    reads_underlineColor]
  rfl

/-- **The parameters of a style set it**, whatever the pen was. -/
theorem applySgr_sgrWithReset (s t : Style) : t.applySgr s.sgrWithReset = s := by
  have hreset : t.applySgr s.sgrWithReset = applyParams {} 0 (s.sgrParams ++ []) := by
    rw [List.append_nil]
    rfl
  rw [hreset, s.reads_sgr, overlay_default]
  rfl

/-! ### The parser -/

/-- Parameters that a control sequence can hold: numbers of 16 bits, and at most so many. -/
def Fits (k : Nat) (params : List (List Nat)) : Prop :=
  (∀ p ∈ params, p ≠ [] ∧ ∀ n ∈ p, n ≤ 65535) ∧ params.flatten.length ≤ k

/-- The parser reads a control sequence with at most 32 values back as its parameters. -/
def ParsesSgr (parse : Bytes → List Callback) : Prop :=
  ∀ params : List (List Nat), params ≠ [] → Fits 32 params →
    parse (Sequence.csi [] params [] 'm').bytes = [.csiDispatch params [] 'm']

theorem fits_nil (k : Nat) : Fits k [] := ⟨nofun, Nat.zero_le k⟩

theorem Fits.append {j k : Nat} {ps qs : List (List Nat)} (hp : Fits j ps) (hq : Fits k qs) :
    Fits (j + k) (ps ++ qs) := by
  refine ⟨fun p hmem => ?_, ?_⟩
  · rcases List.mem_append.mp hmem with hmem | hmem
    · exact hp.1 p hmem
    · exact hq.1 p hmem
  · rw [List.flatten_append, List.length_append]
    exact Nat.add_le_add hp.2 hq.2

theorem fits_singles {k : Nat} (ns : List Nat) (hlen : ns.length ≤ k) (hle : ∀ n ∈ ns, n ≤ 65535) :
    Fits k (ns.map fun n => [n]) := by
  refine ⟨fun p hmem => ?_, ?_⟩
  · obtain ⟨n, hn, rfl⟩ := List.mem_map.mp hmem
    exact ⟨List.cons_ne_nil n [], fun m hm => List.mem_singleton.mp hm ▸ hle n hn⟩
  · have hflat : (ns.map fun n => [n]).flatten = ns := by
      rw [← List.flatMap_def, List.flatMap_singleton']
    rwa [hflat]

theorem fits_flag (set : Bool) {n : Nat} (hn : n ≤ 65535) : Fits 1 (if set then [[n]] else []) := by
  cases set with
  | false => exact fits_nil 1
  | true => exact fits_singles [n] (Nat.le_refl 1) (by simpa using hn)

theorem fits_underline (underline : UnderlineStyle) : Fits 2 (underlineParams underline) := by
  unfold Fits
  cases underline <;> decide

theorem fits_extended (color : Color) {n : Nat} (hn : n ≤ 100) :
    Fits 5 (match color with
      | .indexed c => [[n], [5], [c.toNat]]
      | .rgb r g b => [[n], [2], [r.toNat], [g.toNat], [b.toNat]]) := by
  cases color with
  | indexed c =>
      have hc := c.toNat_lt
      refine fits_singles [n, 5, c.toNat] (Nat.le_of_ble_eq_true rfl) ?_
      simp only [List.mem_cons, List.not_mem_nil, or_false, forall_eq_or_imp, forall_eq]
      omega
  | rgb r g b =>
      have hr := r.toNat_lt
      have hg := g.toNat_lt
      have hb := b.toNat_lt
      refine fits_singles [n, 2, r.toNat, g.toNat, b.toNat] (Nat.le_refl 5) ?_
      simp only [List.mem_cons, List.not_mem_nil, or_false, forall_eq_or_imp, forall_eq]
      omega

theorem fits_color (color : Option Color) (base brightBase extended : Nat) (hbase : base ≤ 100)
    (hbright : brightBase ≤ 100) (hextended : extended ≤ 100) :
    Fits 5 (colorParams color base brightBase extended) := by
  match color with
  | none => exact fits_nil 5
  | some (.rgb r g b) => exact fits_extended (.rgb r g b) hextended
  | some (.indexed c) =>
      have hc := c.toNat_lt
      rw [colorParams]
      split
      · exact fits_singles [base + c.toNat] (Nat.le_of_ble_eq_true rfl) (by simp; omega)
      split
      · exact fits_singles [brightBase + c.toNat - 8] (Nat.le_of_ble_eq_true rfl)
          (by simp; omega)
      · exact fits_extended (.indexed c) hextended

theorem fits_underlineColor (color : Option Color) : Fits 5 (underlineColorParams color) := by
  match color with
  | none => exact fits_nil 5
  | some (.indexed c) => exact fits_extended (.indexed c) (Nat.le_of_ble_eq_true rfl)
  | some (.rgb r g b) => exact fits_extended (.rgb r g b) (Nat.le_of_ble_eq_true rfl)

theorem fits_sgrWithReset (s : Style) : Fits 32 s.sgrWithReset := by
  have hflags := (((fits_flag s.bold (n := 1) (by decide)).append
    (fits_flag s.dim (n := 2) (by decide))).append (fits_flag s.italic (n := 3) (by decide))).append
    (fits_underline s.underline)
  have hmore := (((hflags.append (fits_flag s.blink (n := 5) (by decide))).append
    (fits_flag s.inverse (n := 7) (by decide))).append (fits_flag s.hidden (n := 8) (by decide))).append
    (fits_flag s.strikethrough (n := 9) (by decide))
  have hcolors := ((hmore.append
    (fits_color s.fg 30 90 38 (by decide) (by decide) (by decide))).append
    (fits_color s.bg 40 100 48 (by decide) (by decide) (by decide))).append
    (fits_underlineColor s.underlineColor)
  have hall := (fits_flag true (n := 0) (by decide)).append hcolors
  exact ⟨hall.1, hall.2.trans (by decide)⟩

/-- **What the renderer writes is what the emulator reads**: a style comes back through the parser,
whatever the pen was before. -/
theorem sgr_roundTrip {parse : Bytes → List Callback} (hparse : ParsesSgr parse) (s : Style) :
    ∃ params, parse (s.writeSgrWithResetTo []) = [.csiDispatch params [] 'm'] ∧
      (∀ t : Style, t.applySgr params = s) ∧
      ∀ (charWidth : Char → Nat) (term : Terminal),
        term.callback? charWidth (.csiDispatch params [] 'm') =
          some (term.withState fun state => { state with currentStyle := s }) := by
  refine ⟨s.sgrWithReset, ?_, s.applySgr_sgrWithReset, fun charWidth term => ?_⟩
  · rw [writeSgrWithResetTo_eq, List.nil_append]
    exact hparse s.sgrWithReset (List.cons_ne_nil _ _) s.fits_sgrWithReset
  · have happly := s.applySgr_sgrWithReset term.state.currentStyle
    simp [Terminal.callback?, Terminal.csiDispatch?, Terminal.withState, happly]

/-! A parser of these sequences. -/

def readDecimal (bs : Bytes) : Nat := bs.foldl (fun n b => 10 * n + (b.toNat - 48)) 0

def readSgr : Bytes → List Callback
  | 0x1B :: 0x5B :: rest =>
      if rest.getLast? = some 0x6D then
        [.csiDispatch ((rest.dropLast.splitOn 0x3B).map fun p => (p.splitOn 0x3A).map readDecimal) []
          'm']
      else []
  | _ => []

theorem digit_of_mem_writeU16 {n : Nat} {b : UInt8} (h : b ∈ writeU16 n) :
    48 ≤ b.toNat ∧ b.toNat ≤ 57 := by
  have hdigit (k : Nat) : 48 ≤ (UInt8.ofNat (48 + k % 10)).toNat ∧
      (UInt8.ofNat (48 + k % 10)).toNat ≤ 57 := by
    rw [UInt8.toNat_ofNat']
    omega
  simp only [writeU16, List.mem_append, List.mem_ite_nil_right, List.mem_singleton] at h
  rcases h with (((⟨-, rfl⟩ | ⟨-, rfl⟩) | ⟨-, rfl⟩) | ⟨-, rfl⟩) | rfl <;> exact hdigit _

theorem readDecimal_writeU16 {n : Nat} (h : n ≤ 65535) : readDecimal (writeU16 n) = n := by
  have hdigit (k : Nat) : (UInt8.ofNat (48 + k % 10)).toNat - 48 = k % 10 := by
    rw [UInt8.toNat_ofNat']
    omega
  unfold readDecimal writeU16
  split_ifs <;> simp only [List.nil_append, List.cons_append, List.foldl_cons, List.foldl_nil, hdigit] <;>
    omega

theorem splitOn_joinParams {sep : UInt8} {xs : List Bytes} (hne : xs ≠ []) (h : ∀ x ∈ xs, sep ∉ x) :
    (Sequence.joinParams sep xs).splitOn sep = xs :=
  List.splitOn_intercalate sep h hne

theorem mem_joinParams {sep b : UInt8} {xs : List Bytes} (h : b ∈ Sequence.joinParams sep xs) :
    b = sep ∨ ∃ x ∈ xs, b ∈ x := by
  match xs with
  | [] => cases h
  | x :: xs =>
      rw [Sequence.joinParams, flatten_intersperse_cons, List.mem_append, List.mem_flatMap] at h
      rcases h with h | ⟨y, hy, h⟩
      · exact .inr ⟨x, List.mem_cons_self, h⟩
      · rcases List.mem_cons.mp h with rfl | h
        · exact .inl rfl
        · exact .inr ⟨y, List.mem_cons_of_mem _ hy, h⟩

theorem parsesSgr_readSgr : ParsesSgr readSgr := by
  intro params hne hfits
  have hfinal : String.utf8EncodeChar 'm' = [0x6D] := by decide
  have hbytes : (Sequence.csi [] params [] 'm').bytes =
      0x1B :: 0x5B :: (Sequence.paramBytes params ++ [0x6D]) := by
    rw [Sequence.bytes, hfinal]
    simp [ascii]
  have hvalues : ∀ p ∈ params, ((Sequence.joinParams 0x3A (p.map writeU16)).splitOn 0x3A).map
      readDecimal = p := by
    intro p hp
    obtain ⟨hpne, hle⟩ := hfits.1 p hp
    rw [splitOn_joinParams (by simpa using hpne), List.map_map]
    · conv => rhs; rw [← List.map_id p]
      exact List.map_congr_left fun n hn => readDecimal_writeU16 (hle n hn)
    · intro x hx hcolon
      obtain ⟨n, -, rfl⟩ := List.mem_map.mp hx
      exact absurd (digit_of_mem_writeU16 hcolon).2 (by decide)
  have hsplit : (Sequence.paramBytes params).splitOn 0x3B =
      params.map fun p => Sequence.joinParams 0x3A (p.map writeU16) := by
    refine splitOn_joinParams (by simpa using hne) fun x hx hsemi => ?_
    obtain ⟨p, -, rfl⟩ := List.mem_map.mp hx
    rcases mem_joinParams hsemi with h | ⟨y, hy, h⟩
    · exact absurd h (by decide)
    · obtain ⟨n, -, rfl⟩ := List.mem_map.mp hy
      exact absurd (digit_of_mem_writeU16 h).2 (by decide)
  rw [hbytes, readSgr, List.getLast?_concat, if_pos rfl, List.dropLast_concat, hsplit, List.map_map]
  congr 2
  conv => rhs; rw [← List.map_id params]
  exact List.map_congr_left hvalues

def curlyRed : Style :=
  { bold := true, underline := .curly, fg := some (.rgb 255 0 0), bg := some (.indexed 200),
    underlineColor := some (.indexed 9) }

theorem curlyRed_sgr_roundTrip : ∃ params,
    readSgr (curlyRed.writeSgrWithResetTo []) = [.csiDispatch params [] 'm'] ∧
      (∀ t : Style, t.applySgr params = curlyRed) ∧
      ∀ (charWidth : Char → Nat) (term : Terminal),
        term.callback? charWidth (.csiDispatch params [] 'm') =
          some (term.withState fun state => { state with currentStyle := curlyRed }) :=
  sgr_roundTrip parsesSgr_readSgr curlyRed

end Style

end QuorumDispatch.Screen
