/-
Type-length-value elements over bytes.

An element is a type and a value; a message is the sequence of the elements written one after the
other. `readElements_writeElements`: reading a written sequence gives it back.

Numbers below 253 take one byte, as in the common variable-length format. A larger number is
written here as a run of `0xFF` bytes that count multiples of 253, and a last byte.
-/

import Mathlib.Data.List.Basic

namespace Tlv

/-- An element: its type and its value. -/
abbrev Element := Nat × List UInt8

/-! ### Numbers -/

def writeNumber (n : Nat) : List UInt8 :=
  List.replicate (n / 253) 255 ++ [UInt8.ofNat (n % 253)]

def readNumber : List UInt8 → Option (Nat × List UInt8)
  | [] => none
  | b :: rest =>
    if b = 255 then (readNumber rest).map fun result => (result.1 + 253, result.2)
    else some (b.toNat, rest)

theorem readNumber_replicate (count last : Nat) (small : last < 253) (rest : List UInt8) :
    readNumber (List.replicate count 255 ++ [UInt8.ofNat last] ++ rest) =
      some (count * 253 + last, rest) := by
  induction count with
  | zero =>
    have value : (UInt8.ofNat last).toNat = last := by
      rw [UInt8.toNat_ofNat', Nat.mod_eq_of_lt (by omega)]
    have other : UInt8.ofNat last ≠ 255 := by
      intro same
      rw [same] at value
      have : (255 : UInt8).toNat = 255 := rfl
      omega
    show readNumber (UInt8.ofNat last :: rest) = _
    rw [readNumber, if_neg other, value, Nat.zero_mul, Nat.zero_add]
  | succ count ih =>
    rw [List.replicate_succ, List.cons_append, List.cons_append, readNumber, if_pos rfl, ih,
      Option.map_some, Nat.succ_mul]
    congr 2
    omega

theorem readNumber_writeNumber (n : Nat) (rest : List UInt8) :
    readNumber (writeNumber n ++ rest) = some (n, rest) := by
  rw [writeNumber, readNumber_replicate _ _ (Nat.mod_lt _ (by decide)), Nat.div_add_mod']

theorem writeNumber_ne_nil (n : Nat) : writeNumber n ≠ [] := by
  simp [writeNumber]

/-! ### Elements -/

def writeElement (element : Element) : List UInt8 :=
  writeNumber element.1 ++ writeNumber element.2.length ++ element.2

/-- The first element of a text, and what follows it. -/
def readElement (text : List UInt8) : Option (Element × List UInt8) :=
  (readNumber text).bind fun type =>
    (readNumber type.2).bind fun length =>
      if length.1 ≤ length.2.length then
        some ((type.1, length.2.take length.1), length.2.drop length.1)
      else none

theorem readElement_writeElement (element : Element) (rest : List UInt8) :
    readElement (writeElement element ++ rest) = some (element, rest) := by
  rw [writeElement, List.append_assoc, List.append_assoc, readElement, readNumber_writeNumber,
    Option.bind_some, readNumber_writeNumber, Option.bind_some, if_pos (by simp)]
  simp

/-- All the elements of a text, at most `fuel` of them. -/
def readElementsFuel : Nat → List UInt8 → Option (List Element)
  | _, [] => some []
  | 0, _ :: _ => none
  | fuel + 1, text =>
    (readElement text).bind fun result =>
      (readElementsFuel fuel result.2).map (result.1 :: ·)

/-- All the elements of a text. An element takes a byte at least, so the length is fuel enough. -/
def readElements (text : List UInt8) : Option (List Element) := readElementsFuel text.length text

def writeElements (elements : List Element) : List UInt8 := elements.flatMap writeElement

theorem writeElement_ne_nil (element : Element) : writeElement element ≠ [] := by
  simp [writeElement, writeNumber_ne_nil]

theorem readElementsFuel_writeElements (elements : List Element) (fuel : Nat)
    (enough : elements.length ≤ fuel) :
    readElementsFuel fuel (writeElements elements) = some elements := by
  induction elements generalizing fuel with
  | nil => cases fuel <;> rfl
  | cons element elements ih =>
    obtain ⟨fuel, rfl⟩ : ∃ less, fuel = less + 1 := ⟨fuel - 1, by simp at enough; omega⟩
    have rest := ih fuel (by simpa using enough)
    have text : writeElements (element :: elements) =
        writeElement element ++ writeElements elements := List.flatMap_cons
    obtain ⟨b, tail, nonempty⟩ : ∃ b tail, writeElements (element :: elements) = b :: tail :=
      List.exists_cons_of_ne_nil (by rw [text]; simp [writeElement_ne_nil])
    rw [nonempty, readElementsFuel, ← nonempty, text, readElement_writeElement, Option.bind_some,
      rest, Option.map_some]
    simp

theorem length_le_writeElements (elements : List Element) :
    elements.length ≤ (writeElements elements).length := by
  induction elements with
  | nil => exact Nat.zero_le _
  | cons element elements ih =>
    have positive := List.length_pos_iff.mpr (writeElement_ne_nil element)
    have text : writeElements (element :: elements) =
        writeElement element ++ writeElements elements := List.flatMap_cons
    rw [text, List.length_append, List.length_cons]
    omega

/-- Round trip: **reading the written elements gives them back**. -/
theorem readElements_writeElements (elements : List Element) :
    readElements (writeElements elements) = some elements :=
  readElementsFuel_writeElements elements _ (length_le_writeElements elements)

end Tlv
