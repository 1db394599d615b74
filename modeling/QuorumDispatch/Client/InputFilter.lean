import Mathlib.Order.Basic
import QuorumDispatch.Lib.Text

/-!
The filter between the keyboard of an attached client and its session. It takes the detach key, the
deliver-now chord and the focus reports out of what is typed, and keeps an escape sequence that a
read has cut until the next read.
-/

namespace QuorumDispatch.Client

open Lib

def detachKey : UInt8 := 0x1c
def deliverNowKey : UInt8 := 0x1d
def esc : UInt8 := 0x1b
def bracket : UInt8 := 0x5b
def focusInByte : UInt8 := 0x49
def focusOutByte : UInt8 := 0x4f

inductive FilterAction where
  | forward (data : Bytes)
  | detach
  | deliverNow
  | focusIn
deriving DecidableEq, Repr

structure InputFilter where
  carry : Bytes := []
deriving DecidableEq, Repr

namespace InputFilter

def flushFiltered (actions : List FilterAction) (filtered : Bytes) : List FilterAction :=
  if filtered.isEmpty then actions else actions ++ [FilterAction.forward filtered]

def beforeDetach (actions : List FilterAction) (pre : Bytes) : Bytes → List FilterAction
  | [] => flushFiltered actions pre
  | b :: rest =>
      if b = deliverNowKey then beforeDetach (flushFiltered actions pre ++ [FilterAction.deliverNow]) [] rest
      else beforeDetach actions (pre ++ [b]) rest

/-- A buffer without a detach key: its actions, and what is carried into the next read. -/
def scan (actions : List FilterAction) (filtered : Bytes) : Bytes → List FilterAction × Bytes
  | [] => (flushFiltered actions filtered, [])
  | [b] =>
      if b = deliverNowKey then scan (flushFiltered actions filtered ++ [FilterAction.deliverNow]) [] []
      else if b ≠ esc then scan actions (filtered ++ [b]) []
      else (flushFiltered actions filtered, [b])
  | [b, c] =>
      if b = deliverNowKey then scan (flushFiltered actions filtered ++ [FilterAction.deliverNow]) [] [c]
      else if b ≠ esc then scan actions (filtered ++ [b]) [c]
      else if c ≠ bracket then scan actions (filtered ++ [b, c]) []
      else (flushFiltered actions filtered, [b, c])
  | b :: c :: d :: rest =>
      if b = deliverNowKey then
        scan (flushFiltered actions filtered ++ [FilterAction.deliverNow]) [] (c :: d :: rest)
      else if b ≠ esc then scan actions (filtered ++ [b]) (c :: d :: rest)
      else if c ≠ bracket then scan actions (filtered ++ [b, c]) (d :: rest)
      else if d = focusInByte then scan (flushFiltered actions filtered ++ [FilterAction.focusIn]) [] rest
      else if d = focusOutByte then scan actions filtered rest
      else scan actions (filtered ++ [b]) (c :: d :: rest)

def process (f : InputFilter) (input : Bytes) : List FilterAction × InputFilter :=
  let raw := f.carry ++ input
  if detachKey ∈ raw then
    (beforeDetach [] [] (raw.takeWhile (· ≠ detachKey)) ++ [FilterAction.detach], {})
  else
    let (actions, carry) := scan [] [] raw
    (actions, { carry := carry })

def flush (f : InputFilter) : Option FilterAction × InputFilter :=
  if f.carry.isEmpty then (none, f) else (some (.forward f.carry), {})

/-- The actions over the reads of a session, which ends with a detach or with the input. -/
def stream (f : InputFilter) : List Bytes → List FilterAction
  | [] => f.flush.1.toList
  | read :: reads =>
      let (actions, f') := f.process read
      if FilterAction.detach ∈ actions then actions else actions ++ stream f' reads

end InputFilter

def prepend : Bytes → List FilterAction → List FilterAction
  | [], actions => actions
  | b :: data, .forward more :: rest => .forward (b :: data ++ more) :: rest
  | b :: data, actions => .forward (b :: data) :: actions

/-- The actions, with the payloads of adjacent forwards put together. -/
def joinForwards : List FilterAction → List FilterAction
  | [] => []
  | .forward data :: rest => prepend data (joinForwards rest)
  | action :: rest => action :: joinForwards rest

/-! ### Actions, byte by byte -/

inductive Symbol where
  | byte (b : UInt8)
  | detach
  | deliverNow
  | focusIn
deriving DecidableEq, Repr

def FilterAction.symbols : FilterAction → List Symbol
  | forward data => data.map .byte
  | detach => [.detach]
  | deliverNow => [.deliverNow]
  | focusIn => [.focusIn]

def symbols (actions : List FilterAction) : List Symbol := actions.flatMap FilterAction.symbols

def push : Symbol → List FilterAction → List FilterAction
  | .byte b, .forward data :: rest => .forward (b :: data) :: rest
  | .byte b, actions => .forward [b] :: actions
  | .detach, actions => .detach :: actions
  | .deliverNow, actions => .deliverNow :: actions
  | .focusIn, actions => .focusIn :: actions

theorem foldr_push_bytes (data : Bytes) (actions : List FilterAction) :
    (data.map Symbol.byte).foldr push actions = prepend data actions := by
  induction data with
  | nil => rfl
  | cons b data ih =>
      rw [List.map_cons, List.foldr_cons, ih]
      cases data <;> rcases actions with _ | ⟨_ | _, rest⟩ <;> rfl

theorem joinForwards_eq (actions : List FilterAction) :
    joinForwards actions = (symbols actions).foldr push [] := by
  induction actions with
  | nil => rfl
  | cons action actions ih =>
      rw [symbols, List.flatMap_cons, List.foldr_append, ← symbols, ← ih]
      cases action with
      | forward data => exact (foldr_push_bytes data (joinForwards actions)).symm
      | _ => rfl

@[simp] theorem symbols_append (xs ys : List FilterAction) :
    symbols (xs ++ ys) = symbols xs ++ symbols ys :=
  List.flatMap_append

theorem symbols_push (s : Symbol) (actions : List FilterAction) :
    symbols (push s actions) = s :: symbols actions := by
  cases s with
  | byte b => rcases actions with _ | ⟨_ | _, rest⟩ <;> rfl
  | _ => rfl

theorem symbols_joinForwards (actions : List FilterAction) :
    symbols (joinForwards actions) = symbols actions := by
  rw [joinForwards_eq]
  induction symbols actions with
  | nil => rfl
  | cons s rest ih => rw [List.foldr_cons, symbols_push, ih]

/-- Two lists of actions join to the same exactly if they are the same byte by byte. -/
theorem joinForwards_inj {xs ys : List FilterAction} :
    joinForwards xs = joinForwards ys ↔ symbols xs = symbols ys := by
  constructor
  · intro h
    rw [← symbols_joinForwards xs, h, symbols_joinForwards]
  · intro h
    rw [joinForwards_eq, joinForwards_eq, h]

/-! ### What a buffer comes to -/

theorem symbols_flushFiltered (actions : List FilterAction) (filtered : Bytes) :
    symbols (InputFilter.flushFiltered actions filtered) =
      symbols actions ++ filtered.map .byte := by
  cases filtered with
  | nil => exact (List.append_nil _).symm
  | cons b rest => simp [InputFilter.flushFiltered, symbols, FilterAction.symbols]

def keyed (b : UInt8) : Symbol := if b = deliverNowKey then .deliverNow else .byte b

theorem symbols_beforeDetach (actions : List FilterAction) (pre bs : Bytes) :
    symbols (InputFilter.beforeDetach actions pre bs) =
      symbols actions ++ pre.map .byte ++ bs.map keyed := by
  fun_induction InputFilter.beforeDetach actions pre bs with
  | case1 actions pre => rw [symbols_flushFiltered, List.map_nil, List.append_nil]
  | case2 actions pre rest ih =>
      rw [ih, symbols_append, symbols_flushFiltered]
      simp [symbols, FilterAction.symbols, keyed]
  | case3 actions pre b rest hb ih => simp [ih, keyed, hb]

theorem keyed_esc : keyed esc = .byte esc := rfl

theorem esc_ne_deliverNowKey : esc ≠ deliverNowKey := by decide

def tokens : Bytes → List Symbol × Bytes
  | [] => ([], [])
  | [b] => if b ≠ esc then ([keyed b], []) else ([], [b])
  | [b, c] =>
      if b ≠ esc then (tokens [c]).map (keyed b :: ·) id
      else if c ≠ bracket then ([.byte b, .byte c], [])
      else ([], [b, c])
  | b :: c :: d :: rest =>
      if b ≠ esc then (tokens (c :: d :: rest)).map (keyed b :: ·) id
      else if c ≠ bracket then (tokens (d :: rest)).map (.byte b :: .byte c :: ·) id
      else if d = focusInByte then (tokens rest).map (.focusIn :: ·) id
      else if d = focusOutByte then tokens rest
      else (tokens (c :: d :: rest)).map (.byte b :: ·) id

section Shapes

variable {b c d : UInt8} (rest : Bytes)

theorem tokens_nil : tokens [] = ([], []) := rfl

theorem tokens_one : tokens [b] = if b ≠ esc then ([keyed b], []) else ([], [b]) := rfl

theorem tokens_two : tokens [b, c] =
    if b ≠ esc then (tokens [c]).map (keyed b :: ·) id
    else if c ≠ bracket then ([.byte b, .byte c], [])
    else ([], [b, c]) := rfl

theorem tokens_three : tokens (b :: c :: d :: rest) =
    if b ≠ esc then (tokens (c :: d :: rest)).map (keyed b :: ·) id
    else if c ≠ bracket then (tokens (d :: rest)).map (.byte b :: .byte c :: ·) id
    else if d = focusInByte then (tokens rest).map (.focusIn :: ·) id
    else if d = focusOutByte then tokens rest
    else (tokens (c :: d :: rest)).map (.byte b :: ·) id := rfl

theorem tokens_plain (hb : b ≠ esc) : tokens (b :: rest) = (tokens rest).map (keyed b :: ·) id := by
  rcases rest with _ | ⟨c, _ | ⟨d, rest⟩⟩
  · simp [tokens_nil, tokens_one, hb]
  · simp [tokens_two, hb]
  · simp [tokens_three, hb]

theorem tokens_escaped (hc : c ≠ bracket) :
    tokens (esc :: c :: rest) = (tokens rest).map (.byte esc :: .byte c :: ·) id := by
  rcases rest with _ | ⟨d, rest⟩
  · simp [tokens_nil, tokens_two, hc]
  · simp [tokens_three, hc]

theorem tokens_focusIn : tokens (esc :: bracket :: focusInByte :: rest) =
    (tokens rest).map (.focusIn :: ·) id := by
  simp [tokens_three]

theorem tokens_focusOut : tokens (esc :: bracket :: focusOutByte :: rest) = tokens rest := by
  have hne : focusOutByte ≠ focusInByte := by decide
  simp [tokens_three, hne]

theorem tokens_sequence (hin : d ≠ focusInByte) (hout : d ≠ focusOutByte) :
    tokens (esc :: bracket :: d :: rest) =
      (tokens (bracket :: d :: rest)).map (.byte esc :: ·) id := by
  rw [tokens_three]
  simp [hin, hout]

theorem buffer_induction {motive : Bytes → Prop} (nil : motive [])
    (plain : ∀ b rest, b ≠ esc → motive rest → motive (b :: rest))
    (lone : motive [esc])
    (escaped : ∀ c rest, c ≠ bracket → motive rest → motive (esc :: c :: rest))
    (cut : motive [esc, bracket])
    (focusIn : ∀ rest, motive rest → motive (esc :: bracket :: focusInByte :: rest))
    (focusOut : ∀ rest, motive rest → motive (esc :: bracket :: focusOutByte :: rest))
    (sequence : ∀ d rest, d ≠ focusInByte → d ≠ focusOutByte → motive (bracket :: d :: rest) →
      motive (esc :: bracket :: d :: rest)) (bs : Bytes) : motive bs := by
  induction hlen : bs.length using Nat.strong_induction_on generalizing bs with
  | _ n ih =>
      have hrec (rest : Bytes) (hlt : rest.length < n) : motive rest := ih _ hlt rest rfl
      rcases bs with _ | ⟨b, rest⟩
      · exact nil
      rw [List.length_cons] at hlen
      by_cases hb : b = esc
      · subst hb
        rcases rest with _ | ⟨c, rest⟩
        · exact lone
        rw [List.length_cons] at hlen
        by_cases hc : c = bracket
        · subst hc
          rcases rest with _ | ⟨d, rest⟩
          · exact cut
          rw [List.length_cons] at hlen
          by_cases hin : d = focusInByte
          · exact hin ▸ focusIn rest (hrec rest (by omega))
          by_cases hout : d = focusOutByte
          · exact hout ▸ focusOut rest (hrec rest (by omega))
          exact sequence d rest hin hout (hrec _ (by simp only [List.length_cons]; omega))
        · exact escaped c rest hc (hrec rest (by omega))
      · exact plain b rest hb (hrec rest (by omega))

end Shapes

section Scan

open InputFilter

variable {b c d : UInt8} (actions : List FilterAction) (filtered rest : Bytes)

theorem scan_nil : scan actions filtered [] = (flushFiltered actions filtered, []) := rfl

theorem scan_one : scan actions filtered [b] =
    if b = deliverNowKey then scan (flushFiltered actions filtered ++ [FilterAction.deliverNow]) [] []
    else if b ≠ esc then scan actions (filtered ++ [b]) []
    else (flushFiltered actions filtered, [b]) := rfl

theorem scan_two : scan actions filtered [b, c] =
    if b = deliverNowKey then scan (flushFiltered actions filtered ++ [FilterAction.deliverNow]) [] [c]
    else if b ≠ esc then scan actions (filtered ++ [b]) [c]
    else if c ≠ bracket then scan actions (filtered ++ [b, c]) []
    else (flushFiltered actions filtered, [b, c]) := rfl

theorem scan_three : scan actions filtered (b :: c :: d :: rest) =
    if b = deliverNowKey then
      scan (flushFiltered actions filtered ++ [FilterAction.deliverNow]) [] (c :: d :: rest)
    else if b ≠ esc then scan actions (filtered ++ [b]) (c :: d :: rest)
    else if c ≠ bracket then scan actions (filtered ++ [b, c]) (d :: rest)
    else if d = focusInByte then scan (flushFiltered actions filtered ++ [FilterAction.focusIn]) [] rest
    else if d = focusOutByte then scan actions filtered rest
    else scan actions (filtered ++ [b]) (c :: d :: rest) := rfl

theorem scan_plain (hb : b ≠ esc) : scan actions filtered (b :: rest) =
    if b = deliverNowKey then scan (flushFiltered actions filtered ++ [FilterAction.deliverNow]) [] rest
    else scan actions (filtered ++ [b]) rest := by
  rcases rest with _ | ⟨c, _ | ⟨d, rest⟩⟩
  · simp [scan_one, hb]
  · simp [scan_two, hb]
  · simp [scan_three, hb]

theorem scan_escaped (hc : c ≠ bracket) : scan actions filtered (esc :: c :: rest) =
    scan actions (filtered ++ [esc, c]) rest := by
  rcases rest with _ | ⟨d, rest⟩
  · simp [scan_two, hc, esc_ne_deliverNowKey]
  · simp [scan_three, hc, esc_ne_deliverNowKey]

theorem scan_focusIn : scan actions filtered (esc :: bracket :: focusInByte :: rest) =
    scan (flushFiltered actions filtered ++ [FilterAction.focusIn]) [] rest := by
  simp [scan_three, esc_ne_deliverNowKey]

theorem scan_focusOut : scan actions filtered (esc :: bracket :: focusOutByte :: rest) =
    scan actions filtered rest := by
  have hne : focusOutByte ≠ focusInByte := by decide
  simp [scan_three, esc_ne_deliverNowKey, hne]

theorem scan_sequence (hin : d ≠ focusInByte) (hout : d ≠ focusOutByte) :
    scan actions filtered (esc :: bracket :: d :: rest) =
      scan actions (filtered ++ [esc]) (bracket :: d :: rest) := by
  rw [scan_three]
  simp [hin, hout, esc_ne_deliverNowKey]

theorem scan_eq (bs : Bytes) : (scan actions filtered bs).map symbols id =
    (tokens bs).map (symbols actions ++ filtered.map .byte ++ ·) id := by
  induction bs using buffer_induction generalizing actions filtered with
  | nil => simp [scan_nil, tokens_nil, symbols_flushFiltered]
  | plain b rest hb ih =>
      rw [scan_plain _ _ _ hb, tokens_plain _ hb]
      split
      case isTrue hkey =>
        rw [ih, symbols_append, symbols_flushFiltered]
        simp [symbols, FilterAction.symbols, keyed, hkey, Prod.map]
      case isFalse hkey =>
        rw [ih]
        simp [keyed, hkey, Prod.map]
  | lone => simp [scan_one, tokens_one, symbols_flushFiltered, esc_ne_deliverNowKey]
  | escaped c rest hc ih =>
      rw [scan_escaped _ _ _ hc, tokens_escaped _ hc, ih]
      simp [Prod.map]
  | cut => simp [scan_two, tokens_two, symbols_flushFiltered, esc_ne_deliverNowKey]
  | focusIn rest ih =>
      rw [scan_focusIn, tokens_focusIn, ih, symbols_append, symbols_flushFiltered]
      simp [symbols, FilterAction.symbols, Prod.map]
  | focusOut rest ih => rw [scan_focusOut, tokens_focusOut, ih]
  | sequence d rest hin hout ih =>
      rw [scan_sequence _ _ _ hin hout, tokens_sequence _ hin hout, ih]
      simp [Prod.map]

end Scan

/-- The symbols of a buffer are those before a place and those from there on, behind what was left
open. -/
theorem tokens_append (xs ys : Bytes) : tokens (xs ++ ys) =
    (tokens ((tokens xs).2 ++ ys)).map ((tokens xs).1 ++ ·) id := by
  induction xs using buffer_induction with
  | nil => rfl
  | plain b rest hb ih =>
      rw [List.cons_append, tokens_plain _ hb, ih, tokens_plain _ hb]
      rfl
  | lone => rfl
  | escaped c rest hc ih =>
      rw [List.cons_append, List.cons_append, tokens_escaped _ hc, ih, tokens_escaped _ hc]
      rfl
  | cut => rfl
  | focusIn rest ih =>
      rw [List.cons_append, List.cons_append, List.cons_append, tokens_focusIn, ih, tokens_focusIn]
      rfl
  | focusOut rest ih =>
      rw [List.cons_append, List.cons_append, List.cons_append, tokens_focusOut, ih, tokens_focusOut]
  | sequence d rest hin hout ih =>
      rw [List.cons_append, List.cons_append, List.cons_append, tokens_sequence _ hin hout,
        tokens_sequence _ hin hout, ← List.cons_append, ← List.cons_append, ih]
      rfl

/-- The bytes before a detach key hold no focus report, and no chord behind an escape. -/
def plainBytes : Bytes → Bool
  | [] => true
  | [_] => true
  | [b, c] => if b ≠ esc then true else c != deliverNowKey
  | b :: c :: d :: rest =>
      if b ≠ esc then plainBytes (c :: d :: rest)
      else if c ≠ bracket then c != deliverNowKey && plainBytes (d :: rest)
      else d != focusInByte && d != focusOutByte && plainBytes (c :: d :: rest)

section Plain

variable {b c d : UInt8} (rest : Bytes)

theorem plainBytes_plain (hb : b ≠ esc) : plainBytes (b :: rest) = plainBytes rest := by
  rcases rest with _ | ⟨c, _ | ⟨d, rest⟩⟩ <;> simp [plainBytes, hb]

theorem plainBytes_escaped (hc : c ≠ bracket) :
    plainBytes (esc :: c :: rest) = (c != deliverNowKey && plainBytes rest) := by
  rcases rest with _ | ⟨d, rest⟩ <;> simp [plainBytes, hc]

theorem plainBytes_sequence : plainBytes (esc :: bracket :: d :: rest) =
    (d != focusInByte && d != focusOutByte && plainBytes (bracket :: d :: rest)) := by
  conv => lhs; rw [plainBytes]
  simp

theorem tokens_length (bs : Bytes) : (tokens bs).1.length + (tokens bs).2.length ≤ bs.length := by
  induction bs using buffer_induction with
  | nil => exact Nat.le_refl 0
  | plain b rest hb ih =>
      rw [tokens_plain _ hb]
      simp only [Prod.map_fst, Prod.map_snd, List.length_cons, id]
      omega
  | lone => decide
  | escaped c rest hc ih =>
      rw [tokens_escaped _ hc]
      simp only [Prod.map_fst, Prod.map_snd, List.length_cons, id]
      omega
  | cut => decide
  | focusIn rest ih =>
      rw [tokens_focusIn]
      simp only [Prod.map_fst, Prod.map_snd, List.length_cons, id]
      omega
  | focusOut rest ih =>
      rw [tokens_focusOut]
      simp only [List.length_cons]
      omega
  | sequence d rest hin hout ih =>
      rw [tokens_sequence _ hin hout]
      simp only [Prod.map_fst, Prod.map_snd, List.length_cons, id] at ih ⊢
      omega

/-- **The two readings of a buffer** are the same exactly if it is plain. -/
theorem plainBytes_iff (bs : Bytes) : plainBytes bs = true ↔
    (tokens bs).1 ++ (tokens bs).2.map keyed = bs.map keyed := by
  induction bs using buffer_induction with
  | nil => exact iff_of_true rfl rfl
  | plain b rest hb ih =>
      rw [plainBytes_plain _ hb, tokens_plain _ hb, ih]
      simp
  | lone => exact iff_of_true rfl rfl
  | escaped c rest hc ih =>
      have hkey : Symbol.byte c = keyed c ↔ c ≠ deliverNowKey := by
        by_cases h : c = deliverNowKey <;> simp [keyed, h]
      rw [plainBytes_escaped _ hc, tokens_escaped _ hc, Bool.and_eq_true, ih]
      simp [keyed_esc, hkey]
  | cut => exact iff_of_true rfl rfl
  | focusIn rest ih =>
      rw [plainBytes_sequence, tokens_focusIn]
      simp [keyed_esc]
  | focusOut rest ih =>
      -- nothing of the report is kept, so that the symbols are too few
      have hlen := tokens_length rest
      rw [plainBytes_sequence, tokens_focusOut]
      refine iff_of_false (by simp) fun heq => ?_
      have hcount := congrArg List.length heq
      simp only [List.length_append, List.length_map, List.length_cons] at hcount
      omega
  | sequence d rest hin hout ih =>
      rw [plainBytes_sequence, tokens_sequence _ hin hout]
      simp [hin, hout, ih, keyed_esc]

theorem plainBytes_of_append {xs ys : Bytes} (h : plainBytes (xs ++ ys) = true) :
    plainBytes xs = true := by
  induction xs using buffer_induction with
  | nil => rfl
  | plain b rest hb ih =>
      rw [List.cons_append, plainBytes_plain _ hb] at h
      rw [plainBytes_plain _ hb, ih h]
  | lone => rfl
  | escaped c rest hc ih =>
      rw [List.cons_append, List.cons_append, plainBytes_escaped _ hc, Bool.and_eq_true] at h
      rw [plainBytes_escaped _ hc, h.1, ih h.2]
      rfl
  | cut => rfl
  | focusIn rest ih =>
      rw [List.cons_append, List.cons_append, List.cons_append, plainBytes_sequence] at h
      simp at h
  | focusOut rest ih =>
      rw [List.cons_append, List.cons_append, List.cons_append, plainBytes_sequence] at h
      simp at h
  | sequence d rest hin hout ih =>
      rw [List.cons_append, List.cons_append, List.cons_append, plainBytes_sequence,
        Bool.and_eq_true] at h
      rw [plainBytes_sequence, h.1, ih h.2]
      rfl

end Plain

/-! ### A session -/

theorem open_open (xs : Bytes) : tokens (tokens xs).2 = ([], (tokens xs).2) := by
  have happend := tokens_append xs []
  rw [List.append_nil, List.append_nil] at happend
  have hfst := congrArg Prod.fst happend
  have hsnd := congrArg Prod.snd happend
  exact Prod.ext (List.self_eq_append_right.mp hfst) hsnd.symm

theorem mem_open {xs : Bytes} {b : UInt8} (hb : b ∈ (tokens xs).2) : b = esc ∨ b = bracket := by
  induction xs using buffer_induction with
  | nil => cases hb
  | plain _ rest hne ih => rw [tokens_plain _ hne] at hb; exact ih hb
  | lone => exact .inl (List.mem_singleton.mp hb)
  | escaped c rest hc ih => rw [tokens_escaped _ hc] at hb; exact ih hb
  | cut =>
      rcases List.mem_cons.mp hb with rfl | hb
      · exact .inl rfl
      · exact .inr (List.mem_singleton.mp hb)
  | focusIn rest ih => rw [tokens_focusIn] at hb; exact ih hb
  | focusOut rest ih => rw [tokens_focusOut] at hb; exact ih hb
  | sequence d rest hin hout ih => rw [tokens_sequence _ hin hout] at hb; exact ih hb

theorem detachKey_not_mem_open (xs : Bytes) : detachKey ∉ (tokens xs).2 := by
  intro hmem
  rcases mem_open hmem with h | h
  · exact absurd h (by decide)
  · exact absurd h (by decide)

theorem keyed_ne_detach (b : UInt8) : keyed b ≠ .detach := by
  unfold keyed
  split <;> exact nofun

theorem detach_not_mem_tokens (xs : Bytes) : Symbol.detach ∉ (tokens xs).1 := by
  induction xs using buffer_induction with
  | nil => exact List.not_mem_nil
  | plain b rest hb ih =>
      rw [tokens_plain _ hb]
      exact List.not_mem_cons_of_ne_of_not_mem (keyed_ne_detach b).symm ih
  | lone => exact List.not_mem_nil
  | escaped c rest hc ih =>
      rw [tokens_escaped _ hc]
      exact List.not_mem_cons_of_ne_of_not_mem nofun (List.not_mem_cons_of_ne_of_not_mem nofun ih)
  | cut => exact List.not_mem_nil
  | focusIn rest ih =>
      rw [tokens_focusIn]
      exact List.not_mem_cons_of_ne_of_not_mem nofun ih
  | focusOut rest ih => rw [tokens_focusOut]; exact ih
  | sequence d rest hin hout ih =>
      rw [tokens_sequence _ hin hout]
      exact List.not_mem_cons_of_ne_of_not_mem nofun ih

theorem detach_mem_symbols {actions : List FilterAction} :
    Symbol.detach ∈ symbols actions ↔ FilterAction.detach ∈ actions := by
  rw [symbols, List.mem_flatMap]
  constructor
  · rintro ⟨action, hmem, hsymbol⟩
    cases action with
    | forward data =>
        obtain ⟨b, -, hb⟩ := List.mem_map.mp hsymbol
        cases hb
    | detach => exact hmem
    | deliverNow => cases List.mem_singleton.mp hsymbol
    | focusIn => cases List.mem_singleton.mp hsymbol
  · intro hmem
    exact ⟨.detach, hmem, List.mem_singleton_self _⟩

theorem takeWhile_detachKey {pre : Bytes} (post : Bytes) (hpre : detachKey ∉ pre) :
    (pre ++ detachKey :: post).takeWhile (· ≠ detachKey) = pre := by
  have hne : ∀ b ∈ pre, decide (b ≠ detachKey) = true := by
    intro b hb
    refine decide_eq_true fun heq => hpre ?_
    rwa [heq] at hb
  rw [List.takeWhile_append_of_pos hne]
  simp

theorem split_at_detach {read rest pre post : Bytes} (hpre : detachKey ∉ pre)
    (h : read ++ rest = pre ++ detachKey :: post) :
    (∃ back, read = pre ++ detachKey :: back) ∨
      detachKey ∉ read ∧ ∃ pre', pre = read ++ pre' ∧ rest = pre' ++ detachKey :: post := by
  rcases List.append_eq_append_iff.mp h with ⟨pre', rfl, hrest⟩ | ⟨back, rfl, hback⟩
  · exact .inr ⟨fun hmem => hpre (List.mem_append_left _ hmem), pre', rfl, hrest⟩
  · rcases back with _ | ⟨b, back⟩
    · rw [List.append_nil]
      exact .inr ⟨hpre, [], (List.append_nil _).symm, hback.symm⟩
    · obtain ⟨rfl, -⟩ := List.cons.inj hback
      exact .inl ⟨back, rfl⟩

namespace InputFilter

variable {f : InputFilter} {read : Bytes}

theorem process_of_not_mem (h : detachKey ∉ f.carry ++ read) :
    symbols (f.process read).1 = (tokens (f.carry ++ read)).1 ∧
      (f.process read).2 = ⟨(tokens (f.carry ++ read)).2⟩ := by
  have hscan := scan_eq [] [] (f.carry ++ read)
  unfold process
  rw [if_neg h]
  exact ⟨congrArg Prod.fst hscan, congrArg InputFilter.mk (congrArg Prod.snd hscan)⟩

theorem process_of_mem {pre post : Bytes} (hpre : detachKey ∉ pre)
    (h : f.carry ++ read = pre ++ detachKey :: post) :
    symbols (f.process read).1 = pre.map keyed ++ [Symbol.detach] := by
  have hmem : detachKey ∈ f.carry ++ read := by
    rw [h]
    exact List.mem_append_right _ List.mem_cons_self
  have htake : (f.carry ++ read).takeWhile (· ≠ detachKey) = pre := by
    rw [h, takeWhile_detachKey post hpre]
  unfold process
  rw [if_pos hmem, htake, symbols_append, symbols_beforeDetach]
  rfl

theorem symbols_stream_cons (h : detachKey ∉ f.carry ++ read) (reads : List Bytes) :
    symbols (f.stream (read :: reads)) = (tokens (f.carry ++ read)).1 ++
      symbols (stream ⟨(tokens (f.carry ++ read)).2⟩ reads) := by
  obtain ⟨hactions, hcarry⟩ := process_of_not_mem h
  have hnot : FilterAction.detach ∉ (f.process read).1 := by
    rw [← detach_mem_symbols, hactions]
    exact detach_not_mem_tokens _
  rw [stream]
  simp only [hnot, if_false, symbols_append]
  rw [hactions, hcarry]

theorem symbols_stream_detach {pre : Bytes} (hpre : detachKey ∉ f.carry ++ pre) (back : Bytes)
    (reads : List Bytes) : symbols (f.stream ((pre ++ detachKey :: back) :: reads)) =
      (f.carry ++ pre).map keyed ++ [Symbol.detach] := by
  have hactions : symbols (f.process (pre ++ detachKey :: back)).1 =
      (f.carry ++ pre).map keyed ++ [Symbol.detach] :=
    process_of_mem hpre (List.append_assoc _ _ _).symm
  have hdetach : FilterAction.detach ∈ (f.process (pre ++ detachKey :: back)).1 := by
    rw [← detach_mem_symbols, hactions]
    exact List.mem_append_right _ (List.mem_singleton_self _)
  rw [stream]
  simp only [hdetach, if_true, hactions]

theorem symbols_stream_of_not_mem (reads : List Bytes) (hopen : tokens f.carry = ([], f.carry))
    (h : detachKey ∉ f.carry ++ reads.flatten) : symbols (f.stream reads) =
      (tokens (f.carry ++ reads.flatten)).1 ++ (tokens (f.carry ++ reads.flatten)).2.map .byte := by
  induction reads generalizing f with
  | nil =>
      rw [List.flatten_nil, List.append_nil, hopen, stream, flush]
      split
      case isTrue hempty => rw [List.isEmpty_iff.mp hempty]; rfl
      case isFalse => exact List.append_nil _
  | cons read reads ih =>
      rw [List.flatten_cons, ← List.append_assoc] at h ⊢
      have hread : detachKey ∉ f.carry ++ read := fun hmem => h (List.mem_append_left _ hmem)
      have hrest : detachKey ∉ (tokens (f.carry ++ read)).2 ++ reads.flatten := by
        rw [List.mem_append, not_or]
        exact ⟨detachKey_not_mem_open _, fun hmem => h (List.mem_append_right _ hmem)⟩
      rw [symbols_stream_cons hread, ih (open_open _) hrest, tokens_append (f.carry ++ read)]
      simp

/-- A session up to its detach: some of the bytes before it are scanned, and those in its own
buffer are not. -/
theorem symbols_stream_of_mem (reads : List Bytes) (hopen : tokens f.carry = ([], f.carry))
    {pre post : Bytes} (hpre : detachKey ∉ f.carry ++ pre)
    (h : reads.flatten = pre ++ detachKey :: post) :
    ∃ xs ys, pre = xs ++ ys ∧ symbols (f.stream reads) =
      (tokens (f.carry ++ xs)).1 ++ ((tokens (f.carry ++ xs)).2 ++ ys).map keyed ++ [Symbol.detach] := by
  induction reads generalizing f pre with
  | nil => simp at h
  | cons read reads ih =>
      rw [List.flatten_cons] at h
      rw [List.mem_append, not_or] at hpre
      rcases split_at_detach hpre.2 h with ⟨back, rfl⟩ | ⟨hread, pre', rfl, hrest⟩
      · refine ⟨[], pre, rfl, ?_⟩
        rw [symbols_stream_detach (by simp [hpre]), List.append_nil, hopen, List.nil_append]
      · have hfront : detachKey ∉ f.carry ++ read := by simp [hpre.1, hread]
        have hbehind : detachKey ∉ (tokens (f.carry ++ read)).2 ++ pre' := by
          rw [List.mem_append, not_or]
          exact ⟨detachKey_not_mem_open _, fun hmem => hpre.2 (List.mem_append_right _ hmem)⟩
        obtain ⟨xs, ys, rfl, hsymbols⟩ := ih (f := ⟨(tokens (f.carry ++ read)).2⟩) (open_open _)
          hbehind hrest
        refine ⟨read ++ xs, ys, (List.append_assoc _ _ _).symm, ?_⟩
        rw [symbols_stream_cons hfront, hsymbols, ← List.append_assoc f.carry,
          tokens_append (f.carry ++ read)]
        simp

/-- A session without an escape sequence before its detach is the same for all reads. -/
theorem symbols_stream_of_plain {reads : List Bytes} {pre post : Bytes} (hpre : detachKey ∉ pre)
    (hplain : plainBytes pre = true) (h : reads.flatten = pre ++ detachKey :: post) :
    symbols (stream {} reads) = pre.map keyed ++ [.detach] := by
  obtain ⟨xs, ys, rfl, hsymbols⟩ := symbols_stream_of_mem (f := {}) reads rfl hpre h
  have hfront := (plainBytes_iff xs).mp (plainBytes_of_append hplain)
  rw [hsymbols, List.nil_append, List.map_append, ← List.append_assoc, hfront, List.map_append]

/-- **Where the cuts lie does not matter**, exactly if what comes before the first detach key is
plain. -/
theorem splits_agree_iff (typed : Bytes) :
    (∀ reads reads' : List Bytes, reads.flatten = typed → reads'.flatten = typed →
        joinForwards (stream {} reads) = joinForwards (stream {} reads')) ↔
      detachKey ∉ typed ∨ plainBytes (typed.takeWhile (· ≠ detachKey)) = true := by
  by_cases hmem : detachKey ∈ typed
  · obtain ⟨pre, post, rfl, hpre⟩ := List.eq_append_cons_of_mem hmem
    rw [takeWhile_detachKey post hpre]
    constructor
    · intro hagree
      right
      -- all in one read, and a cut right before the detach key
      have hone : symbols (stream {} [pre ++ detachKey :: post]) = pre.map keyed ++ [Symbol.detach] :=
        symbols_stream_detach (f := {}) hpre post []
      have htwo : symbols (stream {} [pre, detachKey :: post]) =
          (tokens pre).1 ++ ((tokens pre).2.map keyed ++ [Symbol.detach]) := by
        have hempty : detachKey ∉ (tokens pre).2 ++ [] := by
          rw [List.append_nil]
          exact detachKey_not_mem_open pre
        have hlast := symbols_stream_detach (f := ⟨(tokens pre).2⟩) hempty post []
        rw [List.nil_append, List.append_nil] at hlast
        rw [symbols_stream_cons (f := {}) hpre, List.nil_append, hlast]
      have hsame := joinForwards_inj.mp
        (hagree [pre ++ detachKey :: post] [pre, detachKey :: post] (by simp) (by simp))
      rw [hone, htwo, ← List.append_assoc] at hsame
      exact (plainBytes_iff pre).mpr (List.append_cancel_right hsame).symm
    · rintro (hnot | hplain) reads reads' h h'
      · exact absurd hmem hnot
      · rw [joinForwards_inj, symbols_stream_of_plain hpre hplain h,
          symbols_stream_of_plain hpre hplain h']
  · refine iff_of_true (fun reads reads' h h' => ?_) (.inl hmem)
    rw [joinForwards_inj, symbols_stream_of_not_mem (f := {}) reads rfl (by rw [h]; exact hmem),
      symbols_stream_of_not_mem (f := {}) reads' rfl (by rw [h']; exact hmem), h, h']

/-- A focus report right before the detach key is typed into the session if both are read at once. -/
theorem focusIn_detach_splits_differ :
    ¬ ∀ reads reads' : List Bytes, reads.flatten = reads'.flatten →
      joinForwards (stream {} reads) = joinForwards (stream {} reads') := by
  intro hagree
  have hsame := hagree [[esc, bracket, focusInByte, detachKey]]
    [[esc, bracket, focusInByte], [detachKey]] rfl
  revert hsame
  decide

end InputFilter

end QuorumDispatch.Client
