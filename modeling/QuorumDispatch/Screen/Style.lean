import QuorumDispatch.Lib.Text

/-!
Cell styles: the attributes and colours that SGR sets, the SGR parameters that
write a style, the reading of SGR parameters, and the table that interns styles.
-/

namespace QuorumDispatch.Screen

open Lib

inductive UnderlineStyle where
  | none
  | single
  | double
  | curly
  | dotted
  | dashed
deriving DecidableEq, Repr

namespace UnderlineStyle

def fromSgr : Nat → UnderlineStyle
  | 0 => none
  | 1 => single
  | 2 => double
  | 3 => curly
  | 4 => dotted
  | 5 => dashed
  | _ => single

def sgrParam : UnderlineStyle → Nat
  | none => 0
  | single => 1
  | double => 2
  | curly => 3
  | dotted => 4
  | dashed => 5

end UnderlineStyle

inductive Color where
  | indexed (n : UInt8)
  | rgb (r g b : UInt8)
deriving DecidableEq, Repr

structure Style where
  bold : Bool := false
  dim : Bool := false
  italic : Bool := false
  underline : UnderlineStyle := .none
  blink : Bool := false
  inverse : Bool := false
  strikethrough : Bool := false
  hidden : Bool := false
  fg : Option Color := none
  bg : Option Color := none
  underlineColor : Option Color := none
deriving DecidableEq, Repr

instance : Inhabited Style := ⟨{}⟩

namespace Style

def isDefault (s : Style) : Bool := s == {}

/-! ### Writing -/

/-- `write_color_to`: the parameters of a foreground or background colour. -/
def colorParams (color : Option Color) (base brightBase extended : Nat) : List (List Nat) :=
  match color with
  | some (.indexed c) =>
      if c.toNat < 8 then [[base + c.toNat]]
      else if c.toNat < 16 then [[brightBase + c.toNat - 8]]
      else [[extended], [5], [c.toNat]]
  | some (.rgb r g b) => [[extended], [2], [r.toNat], [g.toNat], [b.toNat]]
  | none => []

def underlineParams : UnderlineStyle → List (List Nat)
  | .none => []
  | .single => [[4]]
  | other => [[4, other.sgrParam]]

def underlineColorParams : Option Color → List (List Nat)
  | some (.indexed c) => [[58], [5], [c.toNat]]
  | some (.rgb r g b) => [[58], [2], [r.toNat], [g.toNat], [b.toNat]]
  | none => []

/-- `write_sgr_to`: the parameters between the introducer and the final byte. -/
def sgrParams (s : Style) : List (List Nat) :=
  (if s.bold then [[1]] else []) ++
  (if s.dim then [[2]] else []) ++
  (if s.italic then [[3]] else []) ++
  underlineParams s.underline ++
  (if s.blink then [[5]] else []) ++
  (if s.inverse then [[7]] else []) ++
  (if s.hidden then [[8]] else []) ++
  (if s.strikethrough then [[9]] else []) ++
  colorParams s.fg 30 90 38 ++
  colorParams s.bg 40 100 48 ++
  underlineColorParams s.underlineColor

/-- `write_sgr_with_reset_to`; the default style writes the bare reset. -/
def sgrWithReset (s : Style) : List (List Nat) := [0] :: s.sgrParams

/-! ### Reading -/

def u8 (n : Nat) : UInt8 := UInt8.ofNat n

def firstParam (p : List Nat) : Nat := p.headD 0

/-- `parse_extended_color`: a colour from the subparameters of `p` or from the
parameters behind it, and how many of those were used. -/
def parseExtendedColor (p : List Nat) (rest : List (List Nat)) : Option Color × Nat :=
  if p.length > 1 then
    match p with
    | _ :: 5 :: c :: _ => (some (.indexed (u8 c)), 0)
    | _ :: 2 :: _ :: r :: g :: b :: _ => (some (.rgb (u8 r) (u8 g) (u8 b)), 0)
    | _ :: 2 :: r :: g :: b :: _ => (some (.rgb (u8 r) (u8 g) (u8 b)), 0)
    | _ => (none, 0)
  else
    match rest with
    | mode :: rest =>
        if firstParam mode = 5 ∧ 1 ≤ rest.length then
          (some (.indexed (u8 (firstParam (rest.getD 0 [])))), 2)
        else if firstParam mode = 2 ∧ 3 ≤ rest.length then
          (some (.rgb (u8 (firstParam (rest.getD 0 []))) (u8 (firstParam (rest.getD 1 [])))
            (u8 (firstParam (rest.getD 2 [])))), 4)
        else (none, 0)
    | [] => (none, 0)

/-- One turn of `apply_sgr`: the style after parameter `p`, and how many of the
parameters behind it were used. -/
def applyParam (s : Style) (p : List Nat) (rest : List (List Nat)) : Style × Nat :=
  let n := firstParam p
  if n = 38 then
    let (color, used) := parseExtendedColor p rest
    (match color with | some c => { s with fg := some c } | none => s, used)
  else if n = 48 then
    let (color, used) := parseExtendedColor p rest
    (match color with | some c => { s with bg := some c } | none => s, used)
  else if n = 58 then
    let (color, used) := parseExtendedColor p rest
    (match color with | some c => { s with underlineColor := some c } | none => s, used)
  else if 30 ≤ n ∧ n ≤ 37 then ({ s with fg := some (.indexed (u8 (n - 30))) }, 0)
  else if 40 ≤ n ∧ n ≤ 47 then ({ s with bg := some (.indexed (u8 (n - 40))) }, 0)
  else if 90 ≤ n ∧ n ≤ 97 then ({ s with fg := some (.indexed (u8 (n - 90 + 8))) }, 0)
  else if 100 ≤ n ∧ n ≤ 107 then ({ s with bg := some (.indexed (u8 (n - 100 + 8))) }, 0)
  else
    (match n with
      | 0 => {}
      | 1 => { s with bold := true }
      | 2 => { s with dim := true }
      | 3 => { s with italic := true }
      | 4 =>
          match p with
          | _ :: kind :: _ => { s with underline := .fromSgr (kind % 256) }
          | _ => { s with underline := .single }
      | 5 | 6 => { s with blink := true }
      | 7 => { s with inverse := true }
      | 8 => { s with hidden := true }
      | 9 => { s with strikethrough := true }
      | 21 => { s with underline := .double }
      | 22 => { s with bold := false, dim := false }
      | 23 => { s with italic := false }
      | 24 => { s with underline := .none }
      | 25 => { s with blink := false }
      | 27 => { s with inverse := false }
      | 28 => { s with hidden := false }
      | 29 => { s with strikethrough := false }
      | 39 => { s with fg := none }
      | 49 => { s with bg := none }
      | 59 => { s with underlineColor := none }
      | _ => s, 0)

/-- The loop of `apply_sgr`, where `skip` parameters were used by an earlier turn. -/
def applyParams (s : Style) (skip : Nat) : List (List Nat) → Style
  | [] => s
  | p :: rest =>
      match skip with
      | 0 => let (s, used) := s.applyParam p rest; applyParams s used rest
      | skip + 1 => applyParams s skip rest

def applySgr (s : Style) (params : List (List Nat)) : Style :=
  if params.isEmpty then {} else s.applyParams 0 params

end Style

/-! ### The style table -/

/-- Slot 0 is the default style. `freeSlots` is a stack. -/
structure StyleTable where
  styles : List Style := [{}]
  index : List (Style × Nat) := []
  freeSlots : List Nat := []
deriving DecidableEq, Repr

namespace StyleTable

def maxId : Nat := 65535

/-- Intern a style; a full table answers with the default. A free slot that is not
in the table would be an index out of range. -/
def intern (t : StyleTable) (s : Style) : Option (Nat × StyleTable) :=
  if s.isDefault then some (0, t)
  else
    match t.index.lookup s with
    | some id => some (id, t)
    | none =>
        match t.freeSlots with
        | id :: free =>
            if id < t.styles.length then
              some (id, { styles := t.styles.set id s, index := (s, id) :: t.index, freeSlots := free })
            else none
        | [] =>
            if t.styles.length > maxId then some (0, t)
            else
              some (t.styles.length,
                { t with styles := t.styles ++ [s], index := (s, t.styles.length) :: t.index })

def get (t : StyleTable) (id : Nat) : Style := t.styles.getD id {}

def isFull (t : StyleTable) : Bool := decide (t.styles.length > maxId) && t.freeSlots.isEmpty

def reclaimSlot (live : List Bool) (t : StyleTable) (id : Nat) : StyleTable :=
  if live[id]? = some false then
    { t with
      index := t.index.filter (fun entry => entry.1 != t.get id)
      freeSlots := id :: t.freeSlots }
  else t

def reclaim (t : StyleTable) (live : List Bool) : StyleTable :=
  (List.range' 1 (t.styles.length - 1)).foldl (reclaimSlot live) { t with freeSlots := [] }

end StyleTable

end QuorumDispatch.Screen
