import QuorumDispatch.Lib.Text

/-!
The text of bytes that need not be UTF-8. A sequence that breaks off is read as one replacement
character, and reading goes on with the byte at which it broke off.
-/

namespace QuorumDispatch.Lib

def replacementChar : Char := Char.ofNat 0xFFFD

/-- The bits that a first byte has of its character, and the ranges of the bytes behind it. -/
def leadByte (b : UInt8) : Option (Nat × List (UInt8 × UInt8)) :=
  let continuation : UInt8 × UInt8 := (0x80, 0xBF)
  if b < 0x80 then some (b.toNat, [])
  else if b < 0xC2 then none
  else if b < 0xE0 then some (b.toNat - 0xC0, [continuation])
  else if b < 0xF0 then
    let second : UInt8 × UInt8 :=
      if b = 0xE0 then (0xA0, 0xBF) else if b = 0xED then (0x80, 0x9F) else continuation
    some (b.toNat - 0xE0, [second, continuation])
  else if b < 0xF5 then
    let second : UInt8 × UInt8 :=
      if b = 0xF0 then (0x90, 0xBF) else if b = 0xF4 then (0x80, 0x8F) else continuation
    some (b.toNat - 0xF0, [second, continuation, continuation])
  else none

/-- The character if all the bytes behind the first are there, and what is left to read. -/
def takeContinuation (bits : Nat) : List (UInt8 × UInt8) → Bytes → Char × Bytes
  | [], rest => (Char.ofNat bits, rest)
  | _ :: _, [] => (replacementChar, [])
  | (lo, hi) :: ranges, b :: rest =>
      if lo ≤ b ∧ b ≤ hi then takeContinuation (bits * 64 + (b.toNat - 0x80)) ranges rest
      else (replacementChar, b :: rest)

theorem takeContinuation_length (bits : Nat) (ranges : List (UInt8 × UInt8)) (rest : Bytes) :
    (takeContinuation bits ranges rest).2.length ≤ rest.length := by
  induction ranges generalizing bits rest with
  | nil => exact le_rfl
  | cons range ranges ih =>
      cases rest with
      | nil => exact le_rfl
      | cons b rest =>
          rw [takeContinuation]
          split
          · exact (ih _ rest).trans (Nat.le_succ _)
          · exact le_rfl

/-- `String::from_utf8_lossy`. -/
def fromUtf8Lossy : Bytes → List Char
  | [] => []
  | b :: rest =>
      match leadByte b with
      | none => replacementChar :: fromUtf8Lossy rest
      | some (bits, ranges) =>
          (takeContinuation bits ranges rest).1 ::
            fromUtf8Lossy (takeContinuation bits ranges rest).2
termination_by bs => bs.length
decreasing_by
  · exact Nat.lt_succ_self _
  · exact Nat.lt_succ_of_le (takeContinuation_length bits ranges rest)

@[simp] theorem fromUtf8Lossy_nil : fromUtf8Lossy [] = [] := by
  rw [fromUtf8Lossy]

theorem fromUtf8Lossy_ascii {b : UInt8} (h : b < 0x80) (rest : Bytes) :
    fromUtf8Lossy (b :: rest) = Char.ofNat b.toNat :: fromUtf8Lossy rest := by
  have hlead : leadByte b = some (b.toNat, []) := if_pos h
  rw [fromUtf8Lossy, hlead]
  rfl

end QuorumDispatch.Lib
