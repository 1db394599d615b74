import QuorumDispatch.Lib.PrefixCode
import QuorumDispatch.Registry.Claims

/-!
The names of the claim files. Letters are folded, and every byte that does not stand for itself is
escaped, the percent sign as well; so a word is one byte that is no percent sign, or a percent sign
and two digits, and a name is read back off its file, up to the case of its letters.
-/

namespace QuorumDispatch.Registry

open Lib

/-- `.claim`. -/
def claimSuffix : Bytes := [46, 99, 108, 97, 105, 109]

def claimFileName (name : Bytes) : Option Bytes := (encodeClaimName name).map (· ++ claimSuffix)

def unhexDigit (n : UInt8) : UInt8 := if n < 65 then n - 48 else n - 55

def decodeWord : Bytes → UInt8
  | [_, high, low] => unhexDigit high * 16 + unhexDigit low
  | word => word.headD 0

def plainByte (b : UInt8) : Bool := b != 47 && b != 92 && b != 0

theorem decodeWord_encodeByte (b : UInt8) :
    decodeWord (encodeByte b) = toAsciiLowercase b ∧ (encodeByte b).all plainByte = true ∧
      (passesThrough b = true → toAsciiLowercase b ≠ 37) := by
  have h : ∀ n : Fin 256, decodeWord (encodeByte (.ofNat n)) = toAsciiLowercase (.ofNat n) ∧
      (encodeByte (.ofNat n)).all plainByte = true ∧
        (passesThrough (.ofNat n) = true → toAsciiLowercase (.ofNat n) ≠ 37) := by
    decide +kernel
  simpa using h ⟨b.toNat, b.toNat_lt⟩

theorem encodeByte_cases (b : UInt8) :
    (∃ c, c ≠ 37 ∧ encodeByte b = [c]) ∨ ∃ high low, encodeByte b = [37, high, low] := by
  rw [encodeByte]
  split
  next hpass => exact .inl ⟨_, (decodeWord_encodeByte b).2.2 hpass, rfl⟩
  next => exact .inr ⟨_, _, rfl⟩

theorem prefixCode_encodeByte : PrefixCode encodeByte where
  ne_nil b := by
    rcases encodeByte_cases b with ⟨c, -, h⟩ | ⟨high, low, h⟩
    · rw [h]
      exact List.cons_ne_nil _ _
    · rw [h]
      exact List.cons_ne_nil _ _
  opens a b hpre := by
    rcases encodeByte_cases a with ⟨c, hc, ha⟩ | ⟨high, low, ha⟩ <;>
      rcases encodeByte_cases b with ⟨c', hc', hb⟩ | ⟨high', low', hb⟩ <;> rw [ha, hb] at hpre ⊢
    · exact hpre.eq_of_length rfl
    · exact absurd (List.cons_prefix_cons.mp hpre).1 hc
    · exact absurd (List.cons_prefix_cons.mp hpre).1.symm hc'
    · exact hpre.eq_of_length rfl

theorem encodeByte_eq_iff {a b : UInt8} :
    encodeByte a = encodeByte b ↔ toAsciiLowercase a = toAsciiLowercase b := by
  constructor
  · intro h
    rw [← (decodeWord_encodeByte a).1, h, (decodeWord_encodeByte b).1]
  · intro h
    rw [← encodeByte_toAsciiLowercase a, h, encodeByte_toAsciiLowercase]

theorem flatMap_encodeByte_eq_iff {a b : Bytes} :
    a.flatMap encodeByte = b.flatMap encodeByte ↔ a.map toAsciiLowercase = b.map toAsciiLowercase := by
  rw [prefixCode_encodeByte.flatMap_eq_iff]
  induction a generalizing b with
  | nil => cases b <;> simp
  | cons x a ih =>
      cases b with
      | nil => simp
      | cons y b => simp only [List.map_cons, List.cons.injEq, encodeByte_eq_iff, ih]

/-- One component of a path: no separator and no NUL, and not one of the dot components. -/
structure PlainComponent (file : Bytes) : Prop where
  plain : file.all plainByte = true
  dot : file ≠ [46]
  dotdot : file ≠ [46, 46]

/-- **The names of claim files.** Two names have one stem exactly if they are equal up to case, and the
file of a name is a component of the directory. -/
theorem claimFileNames (a b : Bytes) (ha : a ≠ []) (hb : b ≠ []) :
    (encodeClaimName a = encodeClaimName b ↔ a.map toAsciiLowercase = b.map toAsciiLowercase) ∧
      ∃ file, claimFileName a = some file ∧ PlainComponent file := by
  have hstem : encodeClaimName a = some (a.flatMap encodeByte) := if_neg ha
  have hstem' : encodeClaimName b = some (b.flatMap encodeByte) := if_neg hb
  refine ⟨?_, a.flatMap encodeByte ++ claimSuffix, by rw [claimFileName, hstem]; rfl, ?_, ?_, ?_⟩
  · rw [hstem, hstem', Option.some.injEq]
    exact flatMap_encodeByte_eq_iff
  · rw [List.all_append, List.all_flatMap, Bool.and_eq_true, List.all_eq_true]
    exact ⟨fun c _ => (decodeWord_encodeByte c).2.1, by decide⟩
  · intro h
    have hlength := congrArg List.length h
    rw [List.length_append, claimSuffix] at hlength
    simp at hlength
  · intro h
    have hlength := congrArg List.length h
    rw [List.length_append, claimSuffix] at hlength
    simp at hlength

/-- `A/` and `a/`. -/
theorem claimFileNames_slash :
    (encodeClaimName [65, 47] = encodeClaimName [97, 47] ↔
        [65, 47].map toAsciiLowercase = [97, 47].map toAsciiLowercase) ∧
      ∃ file, claimFileName [65, 47] = some file ∧ PlainComponent file :=
  claimFileNames [65, 47] [97, 47] (List.cons_ne_nil _ _) (List.cons_ne_nil _ _)

end QuorumDispatch.Registry
