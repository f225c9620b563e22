/-
Decimal numerals as byte strings.

`decimal` writes a number in ASCII digits and `ofDecimal` reads it back (`ofDecimal_decimal`). The
digits are the bytes from `0x30` to `0x39` (`isDigit_of_mem_decimal`).
-/

import Mathlib.Data.List.Basic

namespace Decimal

/-- The ASCII digits of a number. -/
def decimal (n : Nat) : List UInt8 := (Nat.toDigits 10 n).map Char.toUInt8

/-- The number a string of ASCII digits stands for. -/
def ofDecimal (text : List UInt8) : Nat := Nat.ofDigitChars 10 (text.map Char.ofUInt8) 0

/-- The byte is an ASCII digit. -/
def isDigit (b : UInt8) : Bool := '0'.toUInt8 ≤ b && b ≤ '9'.toUInt8

theorem ofUInt8_toUInt8 {c : Char} (digit : c.isDigit = true) : Char.ofUInt8 c.toUInt8 = c := by
  have range := Char.isDigit_iff_toNat.mp digit
  have small : c.val.toNat < 256 := Nat.lt_of_le_of_lt range.2 (by decide)
  apply Char.ext
  show c.val.toUInt8.toUInt32 = c.val
  apply UInt32.toNat_inj.mp
  rw [UInt8.toNat_toUInt32, UInt32.toNat_toUInt8, Nat.mod_eq_of_lt small]

theorem ofDecimal_decimal (n : Nat) : ofDecimal (decimal n) = n := by
  have back : (decimal n).map Char.ofUInt8 = Nat.toDigits 10 n := by
    rw [decimal, List.map_map]
    refine (List.map_congr_left fun c member => ?_).trans (List.map_id _)
    exact ofUInt8_toUInt8 (Nat.isDigit_of_mem_toDigits (by decide) (by decide) member)
  rw [ofDecimal, back, Nat.ofDigitChars_ten_toDigits]

theorem decimal_ne_nil (n : Nat) : decimal n ≠ [] := by
  simp [decimal, Nat.toDigits_ne_nil]

theorem isDigit_of_mem_decimal {n : Nat} {b : UInt8} (member : b ∈ decimal n) :
    isDigit b = true := by
  obtain ⟨c, inDigits, rfl⟩ := List.mem_map.mp member
  have range := Char.isDigit_iff_toNat.mp
    (Nat.isDigit_of_mem_toDigits (by decide) (by decide) inDigits)
  have small : c.val.toNat < 256 := Nat.lt_of_le_of_lt range.2 (by decide)
  have value : c.toUInt8.toNat = c.toNat := by
    show c.val.toUInt8.toNat = c.val.toNat
    rw [UInt32.toNat_toUInt8, Nat.mod_eq_of_lt small]
  rw [isDigit, Bool.and_eq_true, decide_eq_true_eq, decide_eq_true_eq, UInt8.le_iff_toNat_le,
    UInt8.le_iff_toNat_le, value]
  exact range

end Decimal
