/-
A JSON codec.

`write` makes the compact text of a value, and `read` reads such texts; strings are ASCII and
numbers are integers. `readValue_write` is the round trip, by induction over the value; `jsonText`
is the codec.
-/

import FastRepo.Lib.Decimal
import FastRepo.Lib.Json

namespace JsonText

/-! ### Strings -/

def quote : UInt8 := 0x22
def backslash : UInt8 := 0x5C

/-- The letter a byte is escaped with, for the bytes that have one. -/
def shortEscape : UInt8 → Option UInt8
  | 0x22 => some 0x22
  | 0x5C => some 0x5C
  | 0x08 => some 0x62
  | 0x0C => some 0x66
  | 0x0A => some 0x6E
  | 0x0D => some 0x72
  | 0x09 => some 0x74
  | _ => none

/-- The byte a letter stands for after a backslash. -/
def unescapeLetter : UInt8 → Option UInt8
  | 0x22 => some 0x22
  | 0x5C => some 0x5C
  | 0x62 => some 0x08
  | 0x66 => some 0x0C
  | 0x6E => some 0x0A
  | 0x72 => some 0x0D
  | 0x74 => some 0x09
  | _ => none

/-- The lower-case hexadecimal digit of a number below 16, and back. -/
def hexDigit (n : Nat) : UInt8 :=
  if n < 10 then UInt8.ofNat (48 + n) else UInt8.ofNat (87 + n)

def hexValue (digit : UInt8) : Nat :=
  if digit.toNat < 58 then digit.toNat - 48 else digit.toNat - 87

def writeByte (byte : UInt8) : List UInt8 :=
  match shortEscape byte with
  | some letter => [backslash, letter]
  | none =>
    if byte < 0x20 then
      [backslash, 0x75, 0x30, 0x30, hexDigit (byte.toNat / 16), hexDigit (byte.toNat % 16)]
    else [byte]

def writeString (text : List UInt8) : List UInt8 := quote :: text.flatMap writeByte ++ [quote]

/-- The byte an escape stands for, read behind the backslash. -/
def readEscape : List UInt8 → Option (UInt8 × List UInt8)
  | 0x75 :: 0x30 :: 0x30 :: high :: low :: rest =>
    some (UInt8.ofNat (hexValue high * 16 + hexValue low), rest)
  | letter :: rest => (unescapeLetter letter).map fun byte => (byte, rest)
  | [] => none

/-- A string, read behind the opening quote. -/
def readChars : Nat → List UInt8 → Option (List UInt8 × List UInt8)
  | 0, _ => none
  | _ + 1, [] => none
  | fuel + 1, byte :: rest =>
    if byte = quote then some ([], rest)
    else if byte = backslash then do
      let (unescaped, rest) ← readEscape rest
      let (text, rest) ← readChars fuel rest
      some (unescaped :: text, rest)
    else do
      let (text, rest) ← readChars fuel rest
      some (byte :: text, rest)

def readString (text : List UInt8) : Option (List UInt8 × List UInt8) :=
  match text with
  | [] => none
  | byte :: rest => if byte = quote then readChars (rest.length + 1) rest else none

theorem unescapeLetter_shortEscape {byte letter : UInt8} (short : shortEscape byte = some letter) :
    letter ≠ 0x75 ∧ unescapeLetter letter = some byte := by
  unfold shortEscape at short
  split at short <;> cases short <;> decide

theorem ne_of_shortEscape_none {byte : UInt8} (plain : shortEscape byte = none) :
    byte ≠ quote ∧ byte ≠ backslash := by
  constructor
  · rintro rfl
    cases plain
  · rintro rfl
    cases plain

theorem hexValue_hexDigit : ∀ n < 16, hexValue (hexDigit n) = n := by decide

/-- A letter other than `u` stands for one byte. -/
theorem readEscape_letter {letter : UInt8} (other : letter ≠ 0x75) (rest : List UInt8) :
    readEscape (letter :: rest) = (unescapeLetter letter).map fun byte => (byte, rest) := by
  unfold readEscape
  split
  · rename_i same
    exact absurd (List.cons.inj same).1 other
  · rename_i same
    obtain ⟨rfl, rfl⟩ := List.cons.inj same
    rfl
  · rename_i same
    cases same

/-- What is written for a byte is the byte itself, or a backslash and its escape. -/
theorem writeByte_cases (byte : UInt8) :
    (writeByte byte = [byte] ∧ byte ≠ quote ∧ byte ≠ backslash) ∨
      ∃ escape, writeByte byte = backslash :: escape ∧
        ∀ rest, readEscape (escape ++ rest) = some (byte, rest) := by
  unfold writeByte
  cases short : shortEscape byte with
  | some letter =>
    obtain ⟨other, back⟩ := unescapeLetter_shortEscape short
    refine Or.inr ⟨[letter], rfl, fun rest => ?_⟩
    rw [List.singleton_append, readEscape_letter other, back, Option.map_some]
  | none =>
    simp only
    split
    · refine Or.inr ⟨_, rfl, fun rest => ?_⟩
      have high : byte.toNat / 16 < 16 := by
        have bound := byte.toNat_lt
        omega
      have low : byte.toNat % 16 < 16 := Nat.mod_lt _ (by decide)
      show some (UInt8.ofNat (hexValue (hexDigit (byte.toNat / 16)) * 16 +
        hexValue (hexDigit (byte.toNat % 16))), rest) = _
      rw [hexValue_hexDigit _ high, hexValue_hexDigit _ low, Nat.div_add_mod' byte.toNat 16,
        UInt8.ofNat_toNat]
    · exact Or.inl ⟨rfl, ne_of_shortEscape_none short⟩

/-- One written byte is read back. -/
theorem readChars_writeByte (fuel : Nat) (byte : UInt8) (rest : List UInt8) :
    readChars (fuel + 1) (writeByte byte ++ rest) =
      (readChars fuel rest).map fun result => (byte :: result.1, result.2) := by
  rcases writeByte_cases byte with ⟨written, noQuote, noBackslash⟩ | ⟨escape, written, back⟩
  · rw [written, List.singleton_append, readChars, if_neg noQuote, if_neg noBackslash]
    cases readChars fuel rest <;> rfl
  · rw [written, List.cons_append, readChars, if_neg (by decide), if_pos rfl, back]
    simp only [Option.bind_eq_bind, Option.bind_some]
    cases readChars fuel rest <;> rfl

/-- Strings: **reading a written string gives it back**. -/
theorem readString_writeString (text rest : List UInt8) :
    readString (writeString text ++ rest) = some (text, rest) := by
  have chars : ∀ (text : List UInt8) (fuel : Nat), text.length < fuel →
      readChars fuel (text.flatMap writeByte ++ quote :: rest) = some (text, rest) := by
    intro text
    induction text with
    | nil =>
      intro fuel enough
      obtain ⟨fuel, rfl⟩ := Nat.exists_eq_add_one_of_ne_zero (Nat.ne_zero_of_lt enough)
      rw [List.flatMap_nil, List.nil_append, readChars, if_pos rfl]
    | cons byte text ih =>
      intro fuel enough
      obtain ⟨fuel, rfl⟩ := Nat.exists_eq_add_one_of_ne_zero (Nat.ne_zero_of_lt enough)
      rw [List.flatMap_cons, List.append_assoc, readChars_writeByte,
        ih fuel (Nat.lt_of_succ_lt_succ enough)]
      rfl
  have short : ∀ text : List UInt8, text.length ≤ (text.flatMap writeByte).length := by
    intro text
    induction text with
    | nil => exact Nat.le_refl _
    | cons byte text ih =>
      have one : 0 < (writeByte byte).length := by
        rcases writeByte_cases byte with ⟨written, _⟩ | ⟨escape, written, _⟩ <;> simp [written]
      rw [List.flatMap_cons, List.length_append, List.length_cons]
      omega
  rw [writeString, List.append_assoc, List.cons_append, List.singleton_append, readString,
    if_pos rfl]
  refine chars text _ ?_
  have bound := short text
  rw [List.length_append, List.length_cons]
  omega

/-! ### Numbers -/

def minus : UInt8 := 0x2D

def writeInt : Int → List UInt8
  | .ofNat n => Decimal.decimal n
  | .negSucc n => minus :: Decimal.decimal (n + 1)

def readNat (text : List UInt8) : Option (Nat × List UInt8) :=
  let digits := text.takeWhile Decimal.isDigit
  if digits = [] then none else some (Decimal.ofDecimal digits, text.dropWhile Decimal.isDigit)

def readInt (text : List UInt8) : Option (Int × List UInt8) :=
  match text with
  | [] => none
  | byte :: rest =>
    if byte = minus then (readNat rest).map fun result => (-(result.1 : Int), result.2)
    else (readNat (byte :: rest)).map fun result => ((result.1 : Int), result.2)

/-- What follows a number in a text: nothing that could belong to it. -/
def Delimited (rest : List UInt8) : Prop := ∀ byte ∈ rest.head?, Decimal.isDigit byte = false

theorem delimited_nil : Delimited [] := fun _ member => by cases member

theorem delimited_cons {byte : UInt8} (other : Decimal.isDigit byte = false)
    (rest : List UInt8) : Delimited (byte :: rest) := by
  intro first member
  cases member
  exact other

theorem readNat_decimal (n : Nat) {rest : List UInt8} (delimited : Delimited rest) :
    readNat (Decimal.decimal n ++ rest) = some (n, rest) := by
  have digits : ∀ byte ∈ Decimal.decimal n, Decimal.isDigit byte = true := fun _ =>
    Decimal.isDigit_of_mem_decimal
  have ends : rest.takeWhile Decimal.isDigit = [] ∧ rest.dropWhile Decimal.isDigit = rest := by
    cases rest with
    | nil => exact ⟨rfl, rfl⟩
    | cons byte rest =>
      have other := delimited byte rfl
      simp [other]
  rw [readNat, List.takeWhile_append_of_pos digits, List.dropWhile_append_of_pos digits, ends.1,
    ends.2, List.append_nil]
  simp only [Decimal.decimal_ne_nil, if_false, Decimal.ofDecimal_decimal]

/-- A number starts with a minus sign or a digit. -/
theorem writeInt_start (n : Int) : ∃ byte rest, writeInt n = byte :: rest ∧
    (byte = minus ∨ Decimal.isDigit byte = true) := by
  cases n with
  | ofNat n =>
    obtain ⟨byte, rest, same⟩ := List.exists_cons_of_ne_nil (Decimal.decimal_ne_nil n)
    refine ⟨byte, rest, same, Or.inr (Decimal.isDigit_of_mem_decimal (n := n) ?_)⟩
    rw [same]
    exact List.mem_cons_self
  | negSucc n => exact ⟨minus, _, rfl, Or.inl rfl⟩

/-- Numbers: **reading a written number gives it back**. -/
theorem readInt_writeInt (n : Int) {rest : List UInt8} (delimited : Delimited rest) :
    readInt (writeInt n ++ rest) = some (n, rest) := by
  cases n with
  | ofNat n =>
    have back := readNat_decimal n delimited
    obtain ⟨byte, tail, same⟩ := List.exists_cons_of_ne_nil (Decimal.decimal_ne_nil n)
    have digit : Decimal.isDigit byte = true :=
      Decimal.isDigit_of_mem_decimal (n := n) (same ▸ List.mem_cons_self)
    rw [same, List.cons_append] at back
    rw [writeInt, same, List.cons_append, readInt, if_neg, back]
    · rfl
    · rintro rfl
      revert digit
      decide
  | negSucc n =>
    rw [writeInt, List.cons_append, readInt, if_pos rfl, readNat_decimal (n + 1) delimited]
    rfl

/-! ### Sequences -/

def comma : UInt8 := 0x2C

/-- What is written for the parts of a container: a comma between two of them. -/
def writeParts {α : Type} (write : α → List UInt8) (parts : List α) : List UInt8 :=
  (parts.flatMap fun part => comma :: write part).drop 1

section Sequences

variable {α : Type} (readPart : List UInt8 → Option (α × List UInt8)) (close : UInt8)

/-- The parts of a container, each behind a comma, up to the closing byte. -/
def readParts : Nat → List UInt8 → Option (List α × List UInt8)
  | 0, _ => none
  | _ + 1, [] => none
  | fuel + 1, byte :: rest =>
    if byte = close then some ([], rest)
    else if byte = comma then do
      let (part, rest) ← readPart rest
      let (parts, rest) ← readParts fuel rest
      some (part :: parts, rest)
    else none

/-- The parts of a container, read behind the opening byte: the first has no comma. -/
def readSequence (fuel : Nat) (text : List UInt8) : Option (List α × List UInt8) :=
  match text with
  | [] => none
  | byte :: rest =>
    if byte = close then some ([], rest) else readParts readPart close fuel (comma :: byte :: rest)

variable {readPart close} (write : α → List UInt8)

/-- Sequences: **reading written parts gives them back**, when that is so for each of them. -/
theorem readSequence_writeParts {parts : List α} {fuel : Nat} {rest : List UInt8}
    (noComma : close ≠ comma) (noDigit : Decimal.isDigit close = false)
    (start : ∀ part ∈ parts, ∃ byte tail, write part = byte :: tail ∧ byte ≠ close)
    (back : ∀ part ∈ parts, ∀ rest, Delimited rest →
      readPart (write part ++ rest) = some (part, rest)) (enough : parts.length < fuel) :
    readSequence readPart close fuel (writeParts write parts ++ close :: rest) =
      some (parts, rest) := by
  have readBack : ∀ (parts : List α) (fuel : Nat), parts.length < fuel →
      (∀ part ∈ parts, ∀ rest, Delimited rest →
        readPart (write part ++ rest) = some (part, rest)) →
      readParts readPart close fuel
        ((parts.flatMap fun part => comma :: write part) ++ close :: rest) =
          some (parts, rest) := by
    intro parts
    induction parts with
    | nil =>
      intro fuel enough _
      obtain ⟨fuel, rfl⟩ := Nat.exists_eq_add_one_of_ne_zero (Nat.ne_zero_of_lt enough)
      rw [List.flatMap_nil, List.nil_append, readParts, if_pos rfl]
    | cons part parts ih =>
      intro fuel enough back
      obtain ⟨fuel, rfl⟩ := Nat.exists_eq_add_one_of_ne_zero (Nat.ne_zero_of_lt enough)
      have next : Delimited ((parts.flatMap fun part => comma :: write part) ++ close :: rest) := by
        cases parts with
        | nil => exact delimited_cons noDigit rest
        | cons other parts => exact delimited_cons (by decide) _
      rw [List.flatMap_cons, List.append_assoc, List.cons_append, readParts, if_neg noComma.symm,
        if_pos rfl, back part List.mem_cons_self _ next]
      simp only [Option.bind_eq_bind, Option.bind_some]
      rw [ih fuel (Nat.lt_of_succ_lt_succ enough) fun other member =>
        back other (List.mem_cons_of_mem _ member)]
      rfl
  cases parts with
  | nil =>
    rw [writeParts, List.flatMap_nil, List.drop_nil, List.nil_append, readSequence, if_pos rfl]
  | cons part parts =>
    obtain ⟨byte, tail, same, other⟩ := start part List.mem_cons_self
    have whole := readBack (part :: parts) fuel enough back
    rw [List.flatMap_cons, List.append_assoc, List.cons_append, same, List.cons_append] at whole
    rw [writeParts, List.flatMap_cons, List.cons_append, List.drop_one, List.tail_cons,
      List.append_assoc, same, List.cons_append, readSequence, if_neg other]
    exact whole

/-- What is written for the parts is longer than each part, and than their number. -/
theorem length_writeParts {parts : List α} (nonempty : ∀ part ∈ parts, write part ≠ []) :
    parts.length ≤ (writeParts write parts).length ∧
      ∀ part ∈ parts, (write part).length ≤ (writeParts write parts).length := by
  have all : ∀ parts : List α, (∀ part ∈ parts, write part ≠ []) →
      2 * parts.length ≤ (parts.flatMap fun part => comma :: write part).length ∧
      ∀ part ∈ parts,
        (write part).length + 1 ≤ (parts.flatMap fun part => comma :: write part).length := by
    intro parts
    induction parts with
    | nil => exact fun _ => ⟨Nat.le_refl _, fun _ member => absurd member List.not_mem_nil⟩
    | cons part parts ih =>
      intro nonempty
      obtain ⟨number, each⟩ := ih fun other member => nonempty other (List.mem_cons_of_mem _ member)
      have one := List.length_pos_iff.mpr (nonempty part List.mem_cons_self)
      rw [List.flatMap_cons, List.length_append, List.length_cons, List.length_cons]
      refine ⟨by omega, fun other member => ?_⟩
      rcases List.mem_cons.mp member with rfl | later
      · omega
      · have bound := each other later
        omega
  obtain ⟨number, each⟩ := all parts nonempty
  rw [writeParts, List.length_drop]
  refine ⟨?_, fun part member => ?_⟩
  · cases parts with
    | nil => exact Nat.zero_le _
    | cons part parts =>
      rw [List.length_cons] at number ⊢
      omega
  · have bound := each part member
    omega

end Sequences

/-! ### Values -/

/-- The entry of an object: its key and its value. -/
def writeEntry (write : Json Int → List UInt8) (entry : List UInt8 × Json Int) : List UInt8 :=
  writeString entry.1 ++ 0x3A :: write entry.2

mutual

/-- The compact text of a value. -/
def write : Json Int → List UInt8
  | .null => [0x6E, 0x75, 0x6C, 0x6C]
  | .bool true => [0x74, 0x72, 0x75, 0x65]
  | .bool false => [0x66, 0x61, 0x6C, 0x73, 0x65]
  | .number n => writeInt n
  | .string text => writeString text
  | .array items => 0x5B :: (writeItems items).drop 1 ++ [0x5D]
  | .object entries => 0x7B :: (writeEntries entries).drop 1 ++ [0x7D]

def writeItems : List (Json Int) → List UInt8
  | [] => []
  | item :: items => comma :: write item ++ writeItems items

def writeEntries : List (List UInt8 × Json Int) → List UInt8
  | [] => []
  | (key, value) :: entries => comma :: (writeString key ++ 0x3A :: write value) ++
    writeEntries entries

end

theorem write_array (items : List (Json Int)) :
    write (.array items) = 0x5B :: writeParts write items ++ [0x5D] := by
  have all : writeItems items = items.flatMap fun item => comma :: write item := by
    induction items with
    | nil => rfl
    | cons item items ih => rw [writeItems, ih, List.flatMap_cons]
  rw [write, all, writeParts]

theorem write_object (entries : List (List UInt8 × Json Int)) :
    write (.object entries) = 0x7B :: writeParts (writeEntry write) entries ++ [0x7D] := by
  have all : writeEntries entries =
      entries.flatMap fun entry => comma :: writeEntry write entry := by
    induction entries with
    | nil => rfl
    | cons entry entries ih =>
      obtain ⟨key, value⟩ := entry
      rw [writeEntries, ih, List.flatMap_cons, writeEntry]
  rw [write, all, writeParts]

/-- The rest of a literal name, and the value it stands for. -/
def readLiteral (name : List UInt8) (value : Json Int) (text : List UInt8) :
    Option (Json Int × List UInt8) :=
  if name.isPrefixOf text then some (value, text.drop name.length) else none

/-- A key, a colon and a value. -/
def readEntry (readValue : List UInt8 → Option (Json Int × List UInt8)) (text : List UInt8) :
    Option ((List UInt8 × Json Int) × List UInt8) := do
  let (key, rest) ← readString text
  match rest with
  | [] => none
  | byte :: rest =>
    if byte = 0x3A then do
      let (value, rest) ← readValue rest
      some ((key, value), rest)
    else none

/-- A value, told by its first byte. -/
def readValue : Nat → List UInt8 → Option (Json Int × List UInt8)
  | 0, _ => none
  | _ + 1, [] => none
  | fuel + 1, byte :: rest =>
    match byte with
    | 0x6E => readLiteral [0x75, 0x6C, 0x6C] .null rest
    | 0x74 => readLiteral [0x72, 0x75, 0x65] (.bool true) rest
    | 0x66 => readLiteral [0x61, 0x6C, 0x73, 0x65] (.bool false) rest
    | 0x22 => (readString (byte :: rest)).map fun result => (.string result.1, result.2)
    | 0x5B => (readSequence (readValue fuel) 0x5D fuel rest).map fun result =>
      (.array result.1, result.2)
    | 0x7B => (readSequence (readEntry (readValue fuel)) 0x7D fuel rest).map fun result =>
      (.object result.1, result.2)
    | _ => (readInt (byte :: rest)).map fun result => (.number result.1, result.2)

/-- A text that starts as a number does is read as a number. -/
theorem readValue_number {byte : UInt8} (start : byte = minus ∨ Decimal.isDigit byte = true)
    (fuel : Nat) (rest : List UInt8) : readValue (fuel + 1) (byte :: rest) =
      (readInt (byte :: rest)).map fun result => (.number result.1, result.2) := by
  unfold readValue
  split <;> first | rfl | exact absurd start (by decide)

/-- A written value starts with a byte that closes nothing. -/
theorem write_start (value : Json Int) :
    ∃ byte rest, write value = byte :: rest ∧ byte ≠ 0x5D ∧ byte ≠ 0x7D := by
  cases value with
  | null => exact ⟨_, _, rfl, by decide, by decide⟩
  | bool value => cases value <;> exact ⟨_, _, rfl, by decide, by decide⟩
  | number n =>
    obtain ⟨byte, rest, same, start⟩ := writeInt_start n
    refine ⟨byte, rest, same, ?_, ?_⟩ <;> · rintro rfl; revert start; decide
  | string text => exact ⟨_, _, rfl, by decide, by decide⟩
  | array items => exact ⟨_, _, write_array items, by decide, by decide⟩
  | object entries => exact ⟨_, _, write_object entries, by decide, by decide⟩

theorem write_ne_nil (value : Json Int) : write value ≠ [] := by
  obtain ⟨byte, rest, same, _⟩ := write_start value
  rw [same]
  exact List.cons_ne_nil byte rest

theorem readEntry_writeEntry {readValue : List UInt8 → Option (Json Int × List UInt8)}
    {entry : List UInt8 × Json Int} {rest : List UInt8}
    (back : readValue (write entry.2 ++ rest) = some (entry.2, rest)) :
    readEntry readValue (writeEntry write entry ++ rest) = some (entry, rest) := by
  rw [readEntry, writeEntry, List.append_assoc, List.cons_append, readString_writeString]
  simp only [Option.bind_eq_bind, Option.bind_some, if_true, back]

/-- Values: **reading a written value gives it back**, whatever follows it. -/
theorem readValue_write (value : Json Int) : ∀ (fuel : Nat) (rest : List UInt8),
    (write value).length < fuel → Delimited rest →
      readValue fuel (write value ++ rest) = some (value, rest) := by
  have next : ∀ {length fuel : Nat}, length < fuel → ∃ fuel', fuel = fuel' + 1 := fun enough =>
    Nat.exists_eq_add_one_of_ne_zero (Nat.ne_zero_of_lt enough)
  induction value using Json.induct with
  | null =>
    intro fuel rest enough _
    obtain ⟨fuel, rfl⟩ := next enough
    rfl
  | bool value =>
    intro fuel rest enough _
    obtain ⟨fuel, rfl⟩ := next enough
    cases value <;> rfl
  | number n =>
    intro fuel rest enough delimited
    obtain ⟨fuel, rfl⟩ := next enough
    obtain ⟨byte, tail, same, start⟩ := writeInt_start n
    have back := readInt_writeInt n delimited
    rw [same, List.cons_append] at back
    rw [write, same, List.cons_append, readValue_number start, back, Option.map_some]
  | string text =>
    intro fuel rest enough _
    obtain ⟨fuel, rfl⟩ := next enough
    show (readString (writeString text ++ rest)).map _ = _
    rw [readString_writeString, Option.map_some]
  | array items ih =>
    intro fuel rest enough _
    obtain ⟨fuel, rfl⟩ := next enough
    rw [write_array, List.length_append, List.length_cons, List.length_singleton] at enough
    obtain ⟨number, each⟩ := length_writeParts write fun item (_ : item ∈ items) =>
      write_ne_nil item
    rw [write_array, List.append_assoc, List.cons_append, List.singleton_append]
    show (readSequence (readValue fuel) 0x5D fuel (writeParts write items ++ 0x5D :: rest)).map _ = _
    rw [readSequence_writeParts write (by decide) (by decide) (fun item _ => ?_)
      (fun item member rest delimited => ih item member fuel rest ?_ delimited) (by omega),
      Option.map_some]
    · obtain ⟨byte, tail, same, other, _⟩ := write_start item
      exact ⟨byte, tail, same, other⟩
    · have bound := each item member
      omega
  | object entries ih =>
    intro fuel rest enough _
    obtain ⟨fuel, rfl⟩ := next enough
    rw [write_object, List.length_append, List.length_cons, List.length_singleton] at enough
    obtain ⟨number, each⟩ := length_writeParts (writeEntry write)
      fun entry (_ : entry ∈ entries) => List.cons_ne_nil _ _
    rw [write_object, List.append_assoc, List.cons_append, List.singleton_append]
    show (readSequence (readEntry (readValue fuel)) 0x7D fuel
      (writeParts (writeEntry write) entries ++ 0x7D :: rest)).map _ = _
    rw [readSequence_writeParts (writeEntry write) (by decide) (by decide)
      (fun entry _ => ⟨_, _, rfl, by decide⟩)
      (fun entry member rest delimited => readEntry_writeEntry
        (ih entry member fuel rest ?_ delimited)) (by omega), Option.map_some]
    have bound := each entry member
    rw [writeEntry, List.length_append, List.length_cons] at bound
    omega

/-! ### The codec -/

/-- The text is ASCII. -/
def isAscii (text : List UInt8) : Bool := text.all fun byte => byte < 0x80

/-- The value of a whole text. -/
def parse (text : List UInt8) : Option (Json Int) :=
  match readValue (text.length + 1) text with
  | some (value, []) => if value.ordered && value.stringsAre isAscii then some value else none
  | _ => none

def dump (value : Json Int) : Option (List UInt8) :=
  if value.stringsAre isAscii then some (write value) else none

theorem parse_dump {value : Json Int} {text : List UInt8} (ordered : value.ordered = true)
    (written : dump value = some text) : parse text = some value := by
  unfold dump at written
  split at written
  · rename_i strings
    cases written
    have back := readValue_write value ((write value).length + 1) [] (Nat.lt_succ_self _)
      delimited_nil
    rw [List.append_nil] at back
    rw [parse, back]
    simp only [ordered, strings, Bool.and_self, if_true]
  · cases written

theorem clean_of_parse {text : List UInt8} {value : Json Int} (read : parse text = some value) :
    value.ordered = true ∧ value.stringsAre isAscii = true := by
  unfold parse at read
  split at read
  · split at read
    · rename_i clean
      cases read
      exact Bool.and_eq_true_iff.mp clean
    · cases read
  · cases read

/-- A text without a value is no text of a value. -/
theorem parse_of_readValue_eq_none {text : List UInt8}
    (unread : readValue (text.length + 1) text = none) : parse text = none := by
  rw [parse, unread]

/-- An object with neither a key nor a closing brace behind its opening one is not read. -/
theorem readValue_object_start {byte : UInt8} (noQuote : byte ≠ quote) (noClose : byte ≠ 0x7D)
    (fuel : Nat) (rest : List UInt8) : readValue (fuel + 1) (0x7B :: byte :: rest) = none := by
  show (readSequence (readEntry _) 0x7D fuel (byte :: rest)).map _ = none
  rw [readSequence, if_neg noClose]
  cases fuel with
  | zero => rfl
  | succ fuel =>
    rw [readParts, if_neg (by decide), if_pos rfl, readEntry, readString, if_neg noQuote]
    rfl

theorem readValue_null_start {byte : UInt8} (other : byte ≠ 0x75) (fuel : Nat)
    (rest : List UInt8) : readValue (fuel + 1) (0x6E :: byte :: rest) = none := by
  show readLiteral [0x75, 0x6C, 0x6C] .null (byte :: rest) = none
  rw [readLiteral, List.isPrefixOf, if_neg]
  simp [other.symm]

theorem parse_object_start {byte : UInt8} (noQuote : byte ≠ quote)
    (noClose : byte ≠ 0x7D)
    (rest : List UInt8) : parse (0x7B :: byte :: rest) = none :=
  parse_of_readValue_eq_none (readValue_object_start noQuote noClose _ rest)

theorem parse_null_start {byte : UInt8} (other : byte ≠ 0x75) (rest : List UInt8) :
    parse (0x6E :: byte :: rest) = none :=
  parse_of_readValue_eq_none (readValue_null_start other _ rest)

end JsonText

/-- ASCII strings, integers and compact texts. -/
def jsonText : JsonCodec Int where
  ofInt n := n
  utf8 := JsonText.isAscii
  parse := JsonText.parse
  dump := JsonText.dump
  utf8_of_ascii text bytes := by simpa [JsonText.isAscii] using bytes
  dump_isSome value := by
    unfold JsonText.dump
    split <;> simp [*]
  parse_of_dump _ _ := JsonText.parse_dump
  clean_of_parse _ _ := JsonText.clean_of_parse
  object_start _ rest noQuote noClose _ := JsonText.parse_object_start noQuote noClose rest
  null_start _ rest other := JsonText.parse_null_start other rest
