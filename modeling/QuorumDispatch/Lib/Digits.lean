import Mathlib.Data.List.Basic
import Mathlib.Tactic.IntervalCases
import QuorumDispatch.Lib.Text

/-!
Decimal fields of a fixed width: their digits, their value and their order as
bytes. A text made of such fields between fixed separators is ordered as the
list of their values.
-/

namespace QuorumDispatch.Lib

def digits : Nat → Nat → List Char
  | 0, _ => []
  | width + 1, n => digits width (n / 10) ++ [Nat.digitChar (n % 10)]

@[simp] theorem length_digits (width n : Nat) : (digits width n).length = width := by
  induction width generalizing n with
  | zero => rfl
  | succ width ih => simp [digits, ih]

theorem isDigit_of_mem_digits {width n : Nat} {c : Char} (h : c ∈ digits width n) :
    c.isDigit = true := by
  induction width generalizing n with
  | zero => cases h
  | succ width ih =>
      rcases List.mem_append.mp h with h | h
      · exact ih h
      · rw [List.mem_singleton.mp h]
        have : n % 10 < 10 := Nat.mod_lt _ (by decide)
        generalize n % 10 = d at this
        interval_cases d <;> decide

theorem ofDigitChars_digits {width n : Nat} (h : n < 10 ^ width) :
    Nat.ofDigitChars 10 (digits width n) 0 = n := by
  induction width generalizing n with
  | zero =>
      have : n = 0 := by simpa using h
      rw [this]
      rfl
  | succ width ih =>
      have hlt : n / 10 < 10 ^ width := by
        rw [Nat.pow_succ] at h
        omega
      rw [digits, Nat.ofDigitChars_append, ih hlt,
        Nat.ofDigitChars_cons_digitChar_of_lt_ten (Nat.mod_lt _ (by decide)), Nat.ofDigitChars_nil]
      omega

/-- Padded with zeros on the left, a number has its digits. -/
theorem leftpad_toDigits {width n : Nat} (hpos : 0 < width) (h : n < 10 ^ width) :
    List.replicate (width - (Nat.toDigits 10 n).length) '0' ++ Nat.toDigits 10 n =
      digits width n := by
  induction width generalizing n with
  | zero => omega
  | succ width ih =>
      by_cases hn : n < 10
      · rw [Nat.toDigits_of_lt_base hn, digits, Nat.mod_eq_of_lt hn, Nat.div_eq_of_lt hn]
        have hzero : ∀ w, digits w 0 = List.replicate w '0' := by
          intro w
          induction w with
          | zero => rfl
          | succ w ih => rw [digits, Nat.zero_div, ih, List.replicate_succ']; rfl
        rw [hzero, List.length_singleton, Nat.add_sub_cancel]
      · have hwidth : 0 < width := by
          rcases Nat.eq_zero_or_pos width with rfl | hw
          · rw [Nat.zero_add, Nat.pow_one] at h
            exact absurd h hn
          · exact hw
        have hlt : n / 10 < 10 ^ width := by
          rw [Nat.pow_succ] at h
          omega
        rw [Nat.toDigits_of_base_le (by decide) (by omega), digits, ← ih hwidth hlt,
          List.length_append, List.length_singleton, Nat.add_sub_add_right, List.append_assoc]

/-! ### Bytes -/

theorem encodeUtf8_digitChar {d : Nat} (h : d < 10) :
    encodeUtf8 [Nat.digitChar d] = [UInt8.ofNat (48 + d)] := by
  interval_cases d <;> decide

theorem encodeUtf8_digits_succ (width n : Nat) :
    encodeUtf8 (digits (width + 1) n) =
      encodeUtf8 (digits width (n / 10)) ++ [UInt8.ofNat (48 + n % 10)] := by
  rw [digits, encodeUtf8_append, encodeUtf8_digitChar (Nat.mod_lt _ (by decide))]

@[simp] theorem length_encodeUtf8_digits (width n : Nat) :
    (encodeUtf8 (digits width n)).length = width := by
  induction width generalizing n with
  | zero => rfl
  | succ width ih => rw [encodeUtf8_digits_succ, List.length_append, ih, List.length_singleton]

def isAsciiDigit (b : UInt8) : Bool := 48 ≤ b && b ≤ 57

/-- The value of a run of digits, `none` where another byte stands in it. -/
def decimalField (bs : Bytes) : Option Nat :=
  bs.foldlM (fun acc c => if isAsciiDigit c then some (acc * 10 + (c.toNat - 48)) else none) 0

theorem decimalField_append_singleton (bs : Bytes) (c : UInt8) :
    decimalField (bs ++ [c]) =
      (decimalField bs).bind fun n => if isAsciiDigit c then some (n * 10 + (c.toNat - 48)) else none := by
  rw [decimalField, List.foldlM_append]
  simp only [List.foldlM_cons, List.foldlM_nil]
  cases h : bs.foldlM (fun acc c => if isAsciiDigit c then some (acc * 10 + (c.toNat - 48)) else none) 0 with
  | none => simp [decimalField, h]
  | some n => simp [decimalField, h]

theorem exists_digit {c : UInt8} (h : isAsciiDigit c = true) :
    ∃ d < 10, c = UInt8.ofNat (48 + d) ∧ c.toNat - 48 = d := by
  simp only [isAsciiDigit, Bool.and_eq_true, decide_eq_true_eq, UInt8.le_iff_toNat_le] at h
  have hlow : 48 ≤ c.toNat := h.1
  have hhigh : c.toNat ≤ 57 := h.2
  refine ⟨c.toNat - 48, by omega, ?_, rfl⟩
  apply UInt8.toNat_inj.mp
  rw [UInt8.toNat_ofNat']
  omega

theorem isAsciiDigit_ofNat {d : Nat} (h : d < 10) :
    isAsciiDigit (UInt8.ofNat (48 + d)) = true ∧ (UInt8.ofNat (48 + d)).toNat - 48 = d := by
  interval_cases d <;> decide

/-- A field has a value exactly when it holds the digits of that value. -/
theorem decimalField_eq_some {bs : Bytes} {n : Nat} :
    decimalField bs = some n ↔ n < 10 ^ bs.length ∧ bs = encodeUtf8 (digits bs.length n) := by
  induction bs using List.reverseRecOn generalizing n with
  | nil =>
      simp [decimalField, digits]
      omega
  | append_singleton bs c ih =>
      rw [decimalField_append_singleton, Option.bind_eq_some_iff, List.length_append,
        List.length_singleton, encodeUtf8_digits_succ, Nat.pow_succ]
      constructor
      · rintro ⟨k, hk, hlast⟩
        obtain ⟨hlt, hbs⟩ := ih.mp hk
        split at hlast
        · rename_i hdigit
          obtain ⟨d, hd, hc, hval⟩ := exists_digit hdigit
          have hn : n = k * 10 + d := by
            rw [← Option.some.inj hlast, hval]
          have hdiv : n / 10 = k := by omega
          have hmod : n % 10 = d := by omega
          rw [hdiv, hmod, ← hbs, hc]
          exact ⟨by omega, rfl⟩
        · cases hlast
      · rintro ⟨hlt, heq⟩
        obtain ⟨hbs, hc⟩ := List.append_inj heq (by simp)
        obtain ⟨hdigit, hval⟩ := isAsciiDigit_ofNat (d := n % 10) (Nat.mod_lt _ (by decide))
        refine ⟨n / 10, ih.mpr ⟨by omega, hbs⟩, ?_⟩
        rw [(List.cons.inj hc).1, if_pos hdigit, hval]
        congr 1
        omega

/-! ### Order -/

/-- Texts with front parts of one length are ordered by these first. -/
theorem append_lt_append_iff {α : Type} [LT α] {xs ys us vs : List α}
    (h : xs.length = ys.length) :
    xs ++ us < ys ++ vs ↔ xs < ys ∨ xs = ys ∧ us < vs := by
  induction xs generalizing ys with
  | nil =>
      obtain rfl : ys = [] := List.length_eq_zero_iff.mp h.symm
      simp [List.not_lt_nil]
  | cons x xs ih =>
      cases ys with
      | nil => cases h
      | cons y ys =>
          have hlen : xs.length = ys.length := Nat.succ.inj h
          rw [List.cons_append, List.cons_append, List.cons_lt_cons_iff, List.cons_lt_cons_iff,
            ih hlen, List.cons_eq_cons, and_or_left, or_assoc, and_assoc]

theorem encodeUtf8_digits_lt_iff {width a b : Nat} (ha : a < 10 ^ width) (hb : b < 10 ^ width) :
    encodeUtf8 (digits width a) < encodeUtf8 (digits width b) ↔ a < b := by
  induction width generalizing a b with
  | zero =>
      rw [Nat.pow_zero] at ha hb
      have : ¬ a < b := by omega
      simpa [digits] using this
  | succ width ih =>
      rw [Nat.pow_succ] at ha hb
      have ha' : a / 10 < 10 ^ width := by omega
      have hb' : b / 10 < 10 ^ width := by omega
      have hinj : encodeUtf8 (digits width (a / 10)) = encodeUtf8 (digits width (b / 10)) ↔
          a / 10 = b / 10 := by
        constructor
        · intro h
          rw [← ofDigitChars_digits ha', encodeUtf8_injective h, ofDigitChars_digits hb']
        · intro h
          rw [h]
      have hlast : UInt8.ofNat (48 + a % 10) < UInt8.ofNat (48 + b % 10) ↔ a % 10 < b % 10 := by
        rw [UInt8.lt_iff_toNat_lt, UInt8.toNat_ofNat', UInt8.toNat_ofNat']
        omega
      rw [encodeUtf8_digits_succ, encodeUtf8_digits_succ,
        append_lt_append_iff (by simp), ih ha' hb', hinj, List.cons_lt_cons_iff, hlast]
      simp only [List.not_lt_nil, and_false, or_false]
      omega

theorem encodeUtf8_digits_inj {width a b : Nat} (ha : a < 10 ^ width) (hb : b < 10 ^ width) :
    encodeUtf8 (digits width a) = encodeUtf8 (digits width b) ↔ a = b := by
  constructor
  · intro h
    rw [← ofDigitChars_digits ha, encodeUtf8_injective h, ofDigitChars_digits hb]
  · intro h
    rw [h]

/-! ### Signed numbers -/

/-- An `i64`. -/
def InI64 (n : Int) : Prop := -2 ^ 63 ≤ n ∧ n < 2 ^ 63

/-- The result of an operation on `i64`, `none` where it overflows. -/
def i64 (n : Int) : Option Int := if -2 ^ 63 ≤ n ∧ n < 2 ^ 63 then some n else none

theorem i64_eq_some {n m : Int} : i64 n = some m ↔ InI64 n ∧ n = m := by
  unfold i64 InI64
  split <;> simp_all

theorem i64_of_inI64 {n : Int} (h : InI64 n) : i64 n = some n := i64_eq_some.mpr ⟨h, rfl⟩

/-- `str::parse::<i64>`: a sign, then digits. -/
def parseI64 (cs : List Char) : Option Int :=
  let negative := cs.head? = some '-'
  let ds := if negative ∨ cs.head? = some '+' then cs.tail else cs
  if ds = [] ∨ ds.all Char.isDigit = false then none
  else
    let n := Nat.ofDigitChars 10 ds 0
    i64 (if negative then -(n : Int) else n)

theorem ofDigitChars_lt {ds : List Char} (h : ds.all Char.isDigit = true) :
    Nat.ofDigitChars 10 ds 0 < 10 ^ ds.length := by
  induction ds using List.reverseRecOn with
  | nil => decide
  | append_singleton ds c ih =>
      rw [List.all_append, Bool.and_eq_true] at h
      have hc : c.isDigit = true := by simpa using h.2
      have hdigit : c.toNat - '0'.toNat < 10 := by
        simp only [Char.isDigit, Bool.and_eq_true, decide_eq_true_eq] at hc
        have h9 : c.toNat ≤ '9'.toNat := hc.2
        have : '9'.toNat = 57 := by decide
        have : '0'.toNat = 48 := by decide
        omega
      have := ih h.1
      rw [Nat.ofDigitChars_append, Nat.ofDigitChars_cons, Nat.ofDigitChars_nil, List.length_append,
        List.length_singleton, Nat.pow_succ]
      omega

theorem parseI64_eq_some {cs : List Char} {n : Int} (h : parseI64 cs = some n) :
    InI64 n ∧ (∃ k : Nat, k < 10 ^ cs.length ∧ (n = k ∨ n = -k)) ∧ ('-' ∉ cs → 0 ≤ n) := by
  unfold parseI64 at h
  dsimp only at h
  obtain ⟨ds, hds⟩ : ∃ ds,
      ds = if cs.head? = some '-' ∨ cs.head? = some '+' then cs.tail else cs := ⟨_, rfl⟩
  rw [← hds] at h
  by_cases hdigits : ds = [] ∨ ds.all Char.isDigit = false
  · rw [if_pos hdigits] at h
    cases h
  · rw [if_neg hdigits] at h
    simp only [not_or, Bool.not_eq_false] at hdigits
    obtain ⟨hrange, heq⟩ := i64_eq_some.mp h
    have hlt := ofDigitChars_lt hdigits.2
    have hlen : ds.length ≤ cs.length := by
      rw [hds]
      split
      · rw [List.length_tail]
        omega
      · rfl
    have hpow := Nat.pow_le_pow_right (show 0 < 10 by decide) hlen
    subst heq
    refine ⟨hrange, ⟨_, lt_of_lt_of_le hlt hpow, ?_⟩, ?_⟩
    · split
      · exact .inr rfl
      · exact .inl rfl
    · intro hsign
      rw [if_neg]
      · omega
      · intro hhead
        exact hsign (List.mem_of_head? hhead)

theorem notMem_digits {c : Char} (h : c.isDigit = false) (width n : Nat) : c ∉ digits width n := by
  intro hmem
  rw [isDigit_of_mem_digits hmem] at h
  cases h

theorem digits_ne_nil {width : Nat} (h : 0 < width) (n : Nat) : digits width n ≠ [] := by
  intro hnil
  have := length_digits width n
  rw [hnil] at this
  exact absurd this.symm (by simpa using h.ne')

theorem parseI64_digits {width n : Nat} (hpos : 0 < width) (hwidth : width ≤ 18)
    (h : n < 10 ^ width) : parseI64 (digits width n) = some (n : Int) := by
  have hhead : ∀ c : Char, c.isDigit = false → (digits width n).head? ≠ some c :=
    fun c hc heq => notMem_digits hc width n (List.mem_of_head? heq)
  have hall : (digits width n).all Char.isDigit = true :=
    List.all_eq_true.mpr fun c hc => isDigit_of_mem_digits hc
  have hdigits : ¬ (digits width n = [] ∨ (digits width n).all Char.isDigit = false) := by
    rw [hall]
    simpa using digits_ne_nil hpos n
  have hsigns : ¬ ((digits width n).head? = some '-' ∨ (digits width n).head? = some '+') :=
    not_or.mpr ⟨hhead '-' (by decide), hhead '+' (by decide)⟩
  have hrange : InI64 (n : Int) := by
    have hlt : n < 10 ^ 18 := lt_of_lt_of_le h (Nat.pow_le_pow_right (by decide) hwidth)
    exact ⟨by omega, by omega⟩
  simp only [parseI64]
  rw [if_neg hsigns, if_neg hdigits, ofDigitChars_digits h, if_neg (hhead '-' (by decide)),
    i64_of_inI64 hrange]

theorem toList_repr (n : Nat) : n.repr.toList = Nat.toDigits 10 n := String.toList_ofList

/-- The decimal text of a number is read back. -/
theorem parseI64_toString {n : Int} (h : InI64 n) : parseI64 (toString n).toList = some n := by
  have hne (k : Nat) : Nat.toDigits 10 k ≠ [] := by simp
  have hdigit (k : Nat) : ∀ c ∈ Nat.toDigits 10 k, c.isDigit = true :=
    fun c hc => Nat.isDigit_of_mem_toDigits (by decide) (by decide) hc
  have hall (k : Nat) : (Nat.toDigits 10 k).all Char.isDigit = true := List.all_eq_true.mpr (hdigit k)
  rw [Int.toString_eq_repr, Int.repr_eq_if]
  by_cases hn : 0 ≤ n
  · have hhead (c : Char) (hc : c.isDigit = false) : (Nat.toDigits 10 n.toNat).head? ≠ some c := by
      intro heq
      rw [hdigit _ c (List.mem_of_head? heq)] at hc
      cases hc
    rw [if_pos hn, toList_repr]
    simpa [parseI64, hne, hall, hhead '-' (by decide), hhead '+' (by decide), hn] using i64_of_inI64 h
  · have hvalue : -((-n).toNat : Int) = n := by omega
    have htext : ("-" ++ (-n).toNat.repr).toList = '-' :: Nat.toDigits 10 (-n).toNat := by
      rw [String.toList_append, toList_repr]
      rfl
    rw [if_neg hn, htext]
    simpa [parseI64, hne, hall, -Int.ofNat_toNat, hvalue] using i64_of_inI64 h

end QuorumDispatch.Lib
