/-
Version and segment components.

The naming conventions of the NDN library: a number is written in the shortest of four big-endian
widths, and a version or segment component is a marker byte followed by such a number.
`appendVersion_injective` says that versions of one name are told apart by their components.
-/

import FastRepo.Ndn.Name
import Mathlib.Algebra.Group.Nat.Defs

namespace FastRepo

/-! ### Big-endian numbers -/

/-- The lowest `width` bytes of a number, highest first. -/
def bigEndian : Nat → Nat → Bytes
  | 0, _ => []
  | width + 1, n => bigEndian width (n / 256) ++ [UInt8.ofNat n]

/-- The number the bytes stand for. -/
def ofBigEndian (bytes : Bytes) : Nat := bytes.foldl (fun n b => n * 256 + b.toNat) 0

theorem ofBigEndian_bigEndian {width n : Nat} (fits : n < 256 ^ width) :
    ofBigEndian (bigEndian width n) = n := by
  induction width generalizing n with
  | zero =>
    show 0 = n
    rw [Nat.pow_zero] at fits
    omega
  | succ width ih =>
    have high : n / 256 < 256 ^ width := by
      apply Nat.div_lt_of_lt_mul
      rwa [Nat.pow_succ, Nat.mul_comm] at fits
    have low : (UInt8.ofNat n).toNat = n % 256 := UInt8.toNat_ofNat'
    have front := ih high
    unfold ofBigEndian at front
    rw [bigEndian, ofBigEndian, List.foldl_append, front, List.foldl_cons, List.foldl_nil, low]
    omega

/-- `TlvEncoder::writeNonNegativeInteger`: the shortest of one, two, four and eight bytes. -/
def nonNegativeInteger (n : UInt64) : Bytes :=
  if n ≤ 0xFF then bigEndian 1 n.toNat
  else if n ≤ 0xFFFF then bigEndian 2 n.toNat
  else if n ≤ 0xFFFFFFFF then bigEndian 4 n.toNat
  else bigEndian 8 n.toNat

theorem ofBigEndian_nonNegativeInteger (n : UInt64) :
    ofBigEndian (nonNegativeInteger n) = n.toNat := by
  unfold nonNegativeInteger
  split
  · rename_i one
    exact ofBigEndian_bigEndian (Nat.lt_succ_of_le (UInt64.le_iff_toNat_le.mp one))
  · split
    · rename_i two
      exact ofBigEndian_bigEndian (Nat.lt_succ_of_le (UInt64.le_iff_toNat_le.mp two))
    · split
      · rename_i four
        exact ofBigEndian_bigEndian (Nat.lt_succ_of_le (UInt64.le_iff_toNat_le.mp four))
      · exact ofBigEndian_bigEndian n.toNat_lt

theorem nonNegativeInteger_injective : Function.Injective nonNegativeInteger := by
  intro first second same
  have numbers := congrArg ofBigEndian same
  rw [ofBigEndian_nonNegativeInteger, ofBigEndian_nonNegativeInteger] at numbers
  exact UInt64.toNat_inj.mp numbers

/-! ### Markers -/

def versionMarker : UInt8 := 0xFD
def segmentMarker : UInt8 := 0x00

/-- `Component::fromNumberWithMarker`. -/
def Component.fromNumberWithMarker (number : UInt64) (marker : UInt8) : Component :=
  .generic (marker :: nonNegativeInteger number)

def Name.appendVersion (n : Name) (version : UInt64) : Name :=
  n ++ [.fromNumberWithMarker version versionMarker]

def Name.appendSegment (n : Name) (segment : UInt64) : Name :=
  n ++ [.fromNumberWithMarker segment segmentMarker]

theorem Component.fromNumberWithMarker_injective (marker : UInt8) :
    Function.Injective (Component.fromNumberWithMarker · marker) := by
  intro first second same
  have values := congrArg Component.value same
  exact nonNegativeInteger_injective (List.cons.inj values).2

/-- The name of a segment of a version determines the version. -/
theorem Name.appendVersion_injective (n : Name) (segment : UInt64) :
    Function.Injective fun version => (n.appendVersion version).appendSegment segment := by
  intro first second same
  have versions := (List.append_inj_left' same rfl)
  exact Component.fromNumberWithMarker_injective versionMarker
    (List.head_eq_of_cons_eq (List.append_cancel_left versions))

end FastRepo
