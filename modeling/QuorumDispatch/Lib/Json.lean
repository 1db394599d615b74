import Mathlib.Algebra.Order.Ring.Int
import QuorumDispatch.Lib.Text

/-!
JSON values as the line-oriented ledgers use them, and the JSON library as a
parameter.

An object keeps its entries in order and keeps repeated keys: a typed reader
that walks the entries sees a repeated key, while the lookup by key sees the
last one, as the value map of the library does.

The library itself (`serde_json`) is a pair of functions. What the ledgers rely
on is stated per value, as `LawfulAt`: printing gives one line that is read
back as the same value, and no truncated text of an object is a value.
-/

namespace QuorumDispatch.Lib

inductive Json where
  | null
  | bool (b : Bool)
  | num (n : Int)
  | float (text : String)
  | str (s : String)
  | arr (items : List Json)
  | obj (entries : List (String × Json))
deriving Repr, Inhabited

namespace Json

/-- `Value::get`: the last entry of an object under the key. -/
def get (j : Json) (key : String) : Option Json :=
  match j with
  | .obj entries => (entries.reverse.find? (·.1 == key)).map Prod.snd
  | _ => none

@[simp] theorem get_obj_nil (key : String) : (obj []).get key = none := rfl

theorem get_obj_append (xs ys : List (String × Json)) (key : String) :
    (obj (xs ++ ys)).get key = ((obj ys).get key).or ((obj xs).get key) := by
  simp only [get, List.reverse_append, List.find?_append]
  cases ys.reverse.find? (·.1 == key) <;> rfl

theorem get_obj_cons (entry : String × Json) (xs : List (String × Json)) (key : String) :
    (obj (entry :: xs)).get key =
      ((obj xs).get key).or (if entry.1 = key then some entry.2 else none) := by
  rw [← List.singleton_append, get_obj_append]
  congr 1
  simp only [get, List.reverse_singleton, List.find?_singleton, beq_iff_eq]
  split <;> rfl

theorem get_obj_of_notMem {xs : List (String × Json)} {key : String}
    (h : key ∉ xs.map Prod.fst) : (obj xs).get key = none := by
  induction xs with
  | nil => rfl
  | cons entry xs ih =>
      simp only [List.map_cons, List.mem_cons, not_or] at h
      rw [get_obj_cons, ih h.2, if_neg (Ne.symm h.1), Option.or_none]

/-- `Value::as_str`. -/
def asStr : Json → Option String
  | .str s => some s
  | _ => none

/-- `Value::as_u64`. -/
def asU64 : Json → Option Nat
  | .num n => if 0 ≤ n ∧ n < 2 ^ 64 then some n.toNat else none
  | _ => none

theorem asU64_natCast {n : Nat} (h : n < 2 ^ 64) : asU64 (.num n) = some n := by
  have hlow : (0 : Int) ≤ n := by omega
  have hhigh : (n : Int) < 2 ^ 64 := by omega
  rw [asU64, if_pos ⟨hlow, hhigh⟩, Int.toNat_natCast]

/-- A `u32` field of a typed record. -/
def asU32 : Json → Option UInt32
  | .num n => if 0 ≤ n ∧ n < 2 ^ 32 then some (.ofNat n.toNat) else none
  | _ => none

/-- An `i64` field of a typed record. -/
def asI64 : Json → Option Int64
  | .num n => if -2 ^ 63 ≤ n ∧ n < 2 ^ 63 then some (.ofInt n) else none
  | _ => none

@[simp] theorem asI64_num_toInt (n : Int64) : asI64 (.num n.toInt) = some n := by
  have hlow := n.le_toInt
  have hhigh := n.toInt_lt
  rw [asI64, if_pos ⟨hlow, hhigh⟩, Int64.ofInt_toInt]

def strField (j : Json) (key : String) : Option String := (j.get key).bind asStr

def u64Field (j : Json) (key : String) : Option Nat := (j.get key).bind asU64

end Json

/-- The JSON library: `to_string` of a value and `from_slice` of a byte string.
`from_slice` hands over every entry of an object, repeated keys included. -/
structure SerdeJson where
  toString : Json → List Char
  fromSlice : Bytes → Option Json

namespace SerdeJson

def toVec (serde : SerdeJson) (j : Json) : Bytes := encodeUtf8 (serde.toString j)

/-- `from_str` of a text. -/
def fromStr (serde : SerdeJson) (cs : List Char) : Option Json :=
  serde.fromSlice (encodeUtf8 cs)

structure LawfulAt (serde : SerdeJson) (j : Json) : Prop where
  /-- Reading back the printed text gives the value. -/
  roundTrip : serde.fromSlice (serde.toVec j) = some j
  /-- The compact form escapes control characters. -/
  oneLine : '\n' ∉ serde.toString j
  /-- The compact form of an object opens with its brace. -/
  opens : (serde.toString j).head? = some '{'
  /-- The compact form of an object closes with its brace. -/
  closes : (serde.toString j).getLast? = some '}'
  /-- A text that ends inside the object is rejected. -/
  truncated : ∀ p, p <+: serde.toVec j → p ≠ serde.toVec j → serde.fromSlice p = none

variable {serde : SerdeJson} {j : Json}

theorem LawfulAt.newline_notMem (h : serde.LawfulAt j) : newline ∉ serde.toVec j :=
  newline_notMem_encodeUtf8 h.oneLine

theorem LawfulAt.toVec_eq (h : serde.LawfulAt j) :
    ∃ rest, serde.toVec j = 123 :: rest := by
  have hopen := h.opens
  unfold toVec
  cases hcs : serde.toString j with
  | nil => rw [hcs] at hopen; cases hopen
  | cons c cs =>
      rw [hcs] at hopen
      cases hopen
      refine ⟨encodeUtf8 cs, ?_⟩
      change encodeUtf8 (['{'] ++ cs) = _
      rw [encodeUtf8_append]
      have hbrace : encodeUtf8 ['{'] = [123] := by decide
      rw [hbrace]
      rfl

theorem LawfulAt.toVec_ne_nil (h : serde.LawfulAt j) : serde.toVec j ≠ [] := by
  obtain ⟨rest, hrest⟩ := h.toVec_eq
  simp [hrest]

theorem LawfulAt.trim_toString (h : serde.LawfulAt j) :
    trim (serde.toString j) = serde.toString j := by
  apply trim_eq_self
  · intro c hc
    rw [h.opens] at hc
    cases hc
    decide
  · intro c hc
    rw [h.closes] at hc
    cases hc
    decide

theorem LawfulAt.fromStr_toString (h : serde.LawfulAt j) :
    serde.fromStr (serde.toString j) = some j := h.roundTrip

theorem LawfulAt.toString_ne_nil (h : serde.LawfulAt j) : serde.toString j ≠ [] := by
  intro hnil
  have hopen := h.opens
  rw [hnil] at hopen
  cases hopen

end SerdeJson

/-! ### The compact text -/

def Json.escape (c : Char) : List Char :=
  match c with
  | '"' => ['\\', '"']
  | '\\' => ['\\', '\\']
  | '\n' => ['\\', 'n']
  | '\r' => ['\\', 'r']
  | '\t' => ['\\', 't']
  | _ =>
      if c.toNat = 8 then ['\\', 'b']
      else if c.toNat = 12 then ['\\', 'f']
      else if c.toNat < 32 then
        ['\\', 'u', '0', '0', Nat.digitChar (c.toNat / 16), Nat.digitChar (c.toNat % 16)]
      else [c]

def Json.quote (s : String) : List Char := '"' :: (s.toList.flatMap Json.escape ++ ['"'])

mutual

def Json.compact : Json → List Char
  | .null => ['n', 'u', 'l', 'l']
  | .bool b => if b then ['t', 'r', 'u', 'e'] else ['f', 'a', 'l', 's', 'e']
  | .num n => if n < 0 then '-' :: Nat.toDigits 10 n.natAbs else Nat.toDigits 10 n.natAbs
  | .float text => text.toList
  | .str s => quote s
  | .arr items => '[' :: (Json.compactItems items ++ [']'])
  | .obj entries => '{' :: (Json.compactEntries entries ++ ['}'])

def Json.compactItems : List Json → List Char
  | [] => []
  | [j] => j.compact
  | j :: k :: rest => j.compact ++ ',' :: Json.compactItems (k :: rest)

def Json.compactEntries : List (String × Json) → List Char
  | [] => []
  | [(key, j)] => quote key ++ ':' :: j.compact
  | (key, j) :: k :: rest =>
      quote key ++ ':' :: (j.compact ++ ',' :: Json.compactEntries (k :: rest))

end

theorem Json.newline_notMem_toDigits (n : Nat) : '\n' ∉ Nat.toDigits 10 n := by
  intro h
  exact absurd (Nat.isDigit_of_mem_toDigits (by decide) (by decide) h) (by decide)

theorem Json.newline_notMem_escape (c : Char) : '\n' ∉ Json.escape c := by
  unfold Json.escape
  split
  · decide
  · decide
  · decide
  · decide
  · decide
  · split
    · decide
    · split
      · decide
      · split
        · rename_i hlow
          have hhigh : ∀ n < 16, Nat.digitChar n ≠ '\n' := by decide
          have hquot := hhigh (c.toNat / 16) (by omega)
          have hrem := hhigh (c.toNat % 16) (by omega)
          simp [hquot.symm, hrem.symm]
        · rename_i hnewline _ _ _ _ _
          simpa using Ne.symm hnewline

theorem Json.newline_notMem_quote (s : String) : '\n' ∉ Json.quote s := by
  simp [Json.quote, Json.newline_notMem_escape]

mutual

def Json.floatless : Json → Bool
  | .null | .bool _ | .num _ | .str _ => true
  | .float _ => false
  | .arr items => Json.floatlessItems items
  | .obj entries => Json.floatlessEntries entries

def Json.floatlessItems : List Json → Bool
  | [] => true
  | j :: rest => j.floatless && Json.floatlessItems rest

def Json.floatlessEntries : List (String × Json) → Bool
  | [] => true
  | (_, j) :: rest => j.floatless && Json.floatlessEntries rest

end

mutual

theorem Json.newline_notMem_compact : ∀ {j : Json}, j.floatless → '\n' ∉ j.compact
  | .null, _ => by decide
  | .bool b, _ => by cases b <;> decide
  | .num n, _ => by
      unfold Json.compact
      split
      · simp [Json.newline_notMem_toDigits]
      · exact Json.newline_notMem_toDigits _
  | .float text, h => by simp [Json.floatless] at h
  | .str s, _ => by
      unfold Json.compact
      exact Json.newline_notMem_quote s
  | .arr items, h => by
      unfold Json.floatless at h
      simp [Json.compact, Json.newline_notMem_compactItems h]
  | .obj entries, h => by
      unfold Json.floatless at h
      simp [Json.compact, Json.newline_notMem_compactEntries h]

theorem Json.newline_notMem_compactItems : ∀ {items : List Json}, Json.floatlessItems items →
    '\n' ∉ Json.compactItems items
  | [], _ => by simp [Json.compactItems]
  | [j], h => by
      simp only [Json.floatlessItems, Bool.and_eq_true] at h
      simp only [Json.compactItems]
      exact Json.newline_notMem_compact h.1
  | j :: k :: rest, h => by
      rw [Json.floatlessItems, Bool.and_eq_true] at h
      simp [Json.compactItems, Json.newline_notMem_compact h.1, Json.newline_notMem_compactItems h.2]

theorem Json.newline_notMem_compactEntries : ∀ {entries : List (String × Json)},
    Json.floatlessEntries entries → '\n' ∉ Json.compactEntries entries
  | [], _ => by simp [Json.compactEntries]
  | [(key, j)], h => by
      simp only [Json.floatlessEntries, Bool.and_eq_true] at h
      simp [Json.compactEntries, Json.newline_notMem_quote, Json.newline_notMem_compact h.1]
  | (key, j) :: k :: rest, h => by
      rw [Json.floatlessEntries, Bool.and_eq_true] at h
      simp [Json.compactEntries, Json.newline_notMem_quote, Json.newline_notMem_compact h.1,
        Json.newline_notMem_compactEntries h.2]

end

theorem Json.head?_compact_obj (entries : List (String × Json)) :
    (Json.obj entries).compact.head? = some '{' := by
  simp [Json.compact]

theorem Json.getLast?_compact_obj (entries : List (String × Json)) :
    (Json.obj entries).compact.getLast? = some '}' := by
  simpa [Json.compact] using List.getLast?_concat (l := '{' :: Json.compactEntries entries) (a := '}')

@[simp] theorem Json.floatlessEntries_append (xs ys : List (String × Json)) :
    Json.floatlessEntries (xs ++ ys) = (Json.floatlessEntries xs && Json.floatlessEntries ys) := by
  induction xs with
  | nil => rfl
  | cons entry xs ih =>
      change (entry.2.floatless && Json.floatlessEntries (xs ++ ys)) = _
      rw [ih, ← Bool.and_assoc]
      rfl

@[simp] theorem Json.floatlessItems_map_str (texts : List String) :
    Json.floatlessItems (texts.map Json.str) = true := by
  induction texts with
  | nil => rfl
  | cons text texts ih => exact ih

theorem Json.trim_compact_obj (entries : List (String × Json)) :
    trim (Json.obj entries).compact = (Json.obj entries).compact := by
  apply trim_eq_self
  · intro c hc
    rw [Json.head?_compact_obj] at hc
    cases hc
    decide
  · intro c hc
    rw [Json.getLast?_compact_obj] at hc
    cases hc
    decide

namespace SerdeJson

/-- A library that prints every value and reads the texts of the known ones. -/
def knowing (known : List Json) : SerdeJson where
  toString := Json.compact
  fromSlice bs := known.find? (fun j => encodeUtf8 j.compact == bs)

theorem knowing_lawful {known : List Json} {j : Json}
    (hread : (knowing known).fromSlice (encodeUtf8 j.compact) = some j)
    (hline : '\n' ∉ j.compact)
    (hopen : j.compact.head? = some '{') (hclose : j.compact.getLast? = some '}')
    (hpre : ∀ k ∈ known.map Json.compact,
      encodeUtf8 k <+: encodeUtf8 j.compact → k = j.compact) :
    (knowing known).LawfulAt j where
  roundTrip := hread
  oneLine := hline
  opens := hopen
  closes := hclose
  truncated p hp hne := by
    apply List.find?_eq_none.mpr
    intro k hk heq
    have hk' : encodeUtf8 k.compact = p := by simpa using heq
    apply hne
    rw [← hk', hpre _ (List.mem_map_of_mem hk) (hk' ▸ hp)]
    rfl

theorem lawfulAt_knowing {known : List Json} {entries : List (String × Json)}
    (hmem : .obj entries ∈ known) (hfloatless : (Json.obj entries).floatless)
    (hother : ∀ k ∈ known, k = .obj entries ∨
      ¬ encodeUtf8 k.compact <+: encodeUtf8 (Json.obj entries).compact) :
    (knowing known).LawfulAt (.obj entries) := by
  have hsame : ∀ k ∈ known, encodeUtf8 k.compact <+: encodeUtf8 (Json.obj entries).compact → k = .obj entries := by
    intro k hk hpre
    exact (hother k hk).resolve_right (not_not_intro hpre)
  apply knowing_lawful
  · cases hfind : (knowing known).fromSlice (encodeUtf8 (Json.obj entries).compact) with
    | none => exact absurd (List.find?_eq_none.mp hfind _ hmem) (by simp)
    | some k =>
        have htext := List.find?_some hfind
        rw [beq_iff_eq] at htext
        rw [hsame k (List.mem_of_find?_eq_some hfind) (htext ▸ List.prefix_refl _)]
  · exact Json.newline_notMem_compact hfloatless
  · exact Json.head?_compact_obj entries
  · exact Json.getLast?_compact_obj entries
  · intro text htext hpre
    obtain ⟨k, hk, rfl⟩ := List.mem_map.mp htext
    rw [hsame k hk hpre]

theorem lawfulAt_knowing_pair {first second : List (String × Json)}
    (hfirst : (Json.obj first).floatless) (hsecond : (Json.obj second).floatless)
    (hopens : ¬ encodeUtf8 (Json.obj first).compact <+: encodeUtf8 (Json.obj second).compact)
    (hopens' : ¬ encodeUtf8 (Json.obj second).compact <+: encodeUtf8 (Json.obj first).compact) :
    (knowing [.obj first, .obj second]).LawfulAt (.obj first) ∧
      (knowing [.obj first, .obj second]).LawfulAt (.obj second) := by
  constructor
  · apply lawfulAt_knowing List.mem_cons_self hfirst
    exact List.forall_mem_cons.mpr ⟨.inl rfl, List.forall_mem_singleton.mpr (.inr hopens')⟩
  · apply lawfulAt_knowing (List.mem_cons_of_mem _ List.mem_cons_self) hsecond
    exact List.forall_mem_cons.mpr ⟨.inr hopens, List.forall_mem_singleton.mpr (.inl rfl)⟩

theorem lawfulAt_knowing_singleton {entries : List (String × Json)} (hfloatless : (Json.obj entries).floatless) :
    (knowing [.obj entries]).LawfulAt (.obj entries) :=
  lawfulAt_knowing (List.mem_singleton_self _) hfloatless fun _ hk => .inl (List.mem_singleton.mp hk)

end SerdeJson

end QuorumDispatch.Lib
