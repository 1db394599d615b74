import QuorumDispatch.Screen.Performer

/-!
The screen: two terminals, the legacy and the logical one, that follow the same
callbacks, and resizing.
-/

namespace QuorumDispatch.Screen

open Lib

set_option linter.dupNamespace false

inductive Callback where
  | print (c : Char)
  | execute (byte : UInt8)
  | csiDispatch (params : List (List Nat)) (intermediates : Bytes) (action : Char)
  | escDispatch (intermediates : Bytes) (byte : UInt8)
  | oscDispatch (params : List Bytes) (bellTerminated : Bool)
deriving DecidableEq, Repr

def Terminal.callback? (charWidth : Char → Nat) (t : Terminal) : Callback → Option Terminal
  | .print c => t.print? charWidth c
  | .execute byte => t.execute? byte
  | .csiDispatch params intermediates action => t.csiDispatch? charWidth params intermediates action
  | .escDispatch intermediates byte => t.escDispatch? intermediates byte
  | .oscDispatch params bell => t.oscDispatch? params bell

/-! ### Resizing -/

namespace Grid

/-- Growing moves the boundary back over rows of the scrollback. -/
def growRows (g : Grid) (rows : Nat) : Grid :=
  let restoreCount := min (rows - g.rows) g.scrollbackLen
  { g.restoreScrollback restoreCount with
    cursorY := satAdd g.cursorY (min restoreCount 65535) }

/-- Shrinking drops blank rows below the cursor and pushes rows from the top to the
scrollback. -/
def shrinkRows? (g : Grid) (rows : Nat) : Option Grid := do
  let needed := g.rows - rows
  let (chopped, g) ← g.chopBlankBottomRows? needed
  guard (chopped ≤ needed)
  let push := min (needed - chopped) g.cursorY
  if 0 < push then
    let g ← times push pushTopRow? g
    guard (push ≤ g.cursorY)
    some { g with cursorY := g.cursorY - push }
  else some g

/-- `resize_grid`. The alternate screen has no scrollback of its own. -/
def resizeGrid? (g : Grid) (inAltScreen : Bool) (cols rows : UInt16) : Option Grid := do
  let oldRows := g.rows
  let g := if inAltScreen = false ∧ oldRows < rows.toNat then g.growRows rows.toNat else g
  let g ← if inAltScreen = false ∧ 0 < rows.toNat ∧ rows.toNat < oldRows then
      g.shrinkRows? rows.toNat
    else some g
  g.resize? cols rows

end Grid

def Terminal.resize? (t : Terminal) (cols rows : UInt16) : Option Terminal :=
  t.withGrid? (·.resizeGrid? t.state.inAltScreen cols rows)

/-! ### The screen -/

inductive Event where
  | callback (c : Callback)
  | resize (cols rows : UInt16)
deriving DecidableEq, Repr

def Terminal.step? (charWidth : Char → Nat) (t : Terminal) : Event → Option Terminal
  | .callback c => t.callback? charWidth c
  | .resize cols rows => t.resize? cols rows

/-- The two parsers see the same bytes, so that the two terminals see the same
callbacks. -/
structure Screen where
  terminal : Terminal
  logical : Terminal
deriving DecidableEq, Repr

namespace Screen

def new (cols rows : UInt16) (scrollbackLimit : Nat) : Screen where
  terminal := { grid := .new cols rows scrollbackLimit false }
  logical := { grid := .new cols rows scrollbackLimit true }

def step? (charWidth : Char → Nat) (s : Screen) (e : Event) : Option Screen := do
  let terminal ← s.terminal.step? charWidth e
  let logical ← s.logical.step? charWidth e
  some { terminal, logical }

def run? (charWidth : Char → Nat) (s : Screen) (events : List Event) : Option Screen :=
  events.foldlM (step? charWidth) s

end Screen

end QuorumDispatch.Screen
