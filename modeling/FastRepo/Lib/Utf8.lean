/-
UTF-8 by ranges of bytes.

The first byte of a character says how many bytes follow it and in which range each of them lies
(`tails`, the table of the well-formed byte sequences). `run` reads a text by these ranges: what it
holds are the ranges of the bytes that are still due.

* `exists_char`, `ranges_of_char`: the table is the encoding of the characters.
* `run_eq_nil_iff`: nothing is due after a text exactly when it is the encoding of characters.
* `run_eq_none_iff`: a text is refused exactly when no encoding of characters starts with it.
-/

import Mathlib.Data.List.Forall2

namespace Utf8

/-! ### The table -/

/-- The least and the greatest value of a byte. -/
abbrev Range := Nat × Nat

def Range.Has (range : Range) (byte : UInt8) : Prop :=
  range.1 ≤ byte.toNat ∧ byte.toNat ≤ range.2

instance (range : Range) (byte : UInt8) : Decidable (range.Has byte) :=
  inferInstanceAs (Decidable (_ ∧ _))

/-- A byte that follows another one, where nothing more is known of it. -/
def tail : Range := (0x80, 0xBF)

/-- The ranges of the bytes that follow a byte that starts a character. -/
def tails (first : UInt8) : Option (List Range) :=
  if first.toNat ≤ 0x7F then some []
  else if first.toNat < 0xC2 then none
  else if first.toNat ≤ 0xDF then some [tail]
  else if first.toNat = 0xE0 then some [(0xA0, 0xBF), tail]
  else if first.toNat = 0xED then some [(0x80, 0x9F), tail]
  else if first.toNat ≤ 0xEF then some [tail, tail]
  else if first.toNat = 0xF0 then some [(0x90, 0xBF), tail, tail]
  else if first.toNat ≤ 0xF3 then some [tail, tail, tail]
  else if first.toNat = 0xF4 then some [(0x80, 0x8F), tail, tail]
  else none

/-- What the first byte of a character says of its number. -/
def lead (first : UInt8) : Nat :=
  if first.toNat ≤ 0x7F then first.toNat
  else if first.toNat ≤ 0xDF then first.toNat - 0xC0
  else if first.toNat ≤ 0xEF then first.toNat - 0xE0
  else first.toNat - 0xF0

/-- Six bits more of a number. -/
def shiftIn (n : Nat) (byte : UInt8) : Nat := n * 64 + byte.toNat % 64

/-! ### Characters -/

/-- The number of a character is no surrogate and below `0x110000`. -/
theorem isValidChar_toNat (c : Char) : c.toNat.isValidChar := c.valid

theorem toNat_lt (c : Char) : c.toNat < 0x110000 := by
  rcases isValidChar_toNat c with small | ⟨_, small⟩ <;> omega

theorem exists_toNat {n : Nat} (valid : n.isValidChar) : ∃ c : Char, c.toNat = n :=
  ⟨Char.ofNatAux n valid, rfl⟩

section Encode

variable {c : Char} {a b d e : UInt8}

theorem encode_one (small : c.toNat ≤ 0x7F) (first : a.toNat = c.toNat) :
    String.utf8EncodeChar c = [a] := by
  have same : UInt8.ofNat c.toNat = a := by
    rw [← first, UInt8.ofNat_toNat]
  show (if c.toNat ≤ 0x7F then [UInt8.ofNat c.toNat] else _) = _
  rw [if_pos small, same]

theorem encode_two (large : 0x80 ≤ c.toNat) (small : c.toNat ≤ 0x7FF)
    (first : a.toNat = c.toNat / 64 + 0xC0) (second : b.toNat = c.toNat % 64 + 0x80) :
    String.utf8EncodeChar c = [a, b] := by
  have one : UInt8.ofNat (c.toNat / 64 % 0x20 + 0xC0) = a := by
    rw [← UInt8.ofNat_toNat (x := a), first]
    congr 1
    omega
  have two : UInt8.ofNat (c.toNat % 0x40 + 0x80) = b := by
    rw [← UInt8.ofNat_toNat (x := b), second]
  show (if c.toNat ≤ 0x7F then _ else if c.toNat ≤ 0x7FF then
    [UInt8.ofNat (c.toNat / 64 % 0x20 + 0xC0), UInt8.ofNat (c.toNat % 0x40 + 0x80)] else _) = _
  rw [if_neg (by omega), if_pos small, one, two]

theorem encode_three (large : 0x800 ≤ c.toNat) (small : c.toNat ≤ 0xFFFF)
    (first : a.toNat = c.toNat / 4096 + 0xE0) (second : b.toNat = c.toNat / 64 % 64 + 0x80)
    (third : d.toNat = c.toNat % 64 + 0x80) : String.utf8EncodeChar c = [a, b, d] := by
  have one : UInt8.ofNat (c.toNat / 4096 % 0x10 + 0xE0) = a := by
    rw [← UInt8.ofNat_toNat (x := a), first]
    congr 1
    omega
  have two : UInt8.ofNat (c.toNat / 64 % 0x40 + 0x80) = b := by
    rw [← UInt8.ofNat_toNat (x := b), second]
  have three : UInt8.ofNat (c.toNat % 0x40 + 0x80) = d := by
    rw [← UInt8.ofNat_toNat (x := d), third]
  show (if c.toNat ≤ 0x7F then _ else if c.toNat ≤ 0x7FF then _ else if c.toNat ≤ 0xFFFF then
    [UInt8.ofNat (c.toNat / 4096 % 0x10 + 0xE0), UInt8.ofNat (c.toNat / 64 % 0x40 + 0x80),
      UInt8.ofNat (c.toNat % 0x40 + 0x80)] else _) = _
  rw [if_neg (by omega), if_neg (by omega), if_pos small, one, two, three]

theorem encode_four (large : 0x10000 ≤ c.toNat) (first : a.toNat = c.toNat / 262144 + 0xF0)
    (second : b.toNat = c.toNat / 4096 % 64 + 0x80) (third : d.toNat = c.toNat / 64 % 64 + 0x80)
    (fourth : e.toNat = c.toNat % 64 + 0x80) : String.utf8EncodeChar c = [a, b, d, e] := by
  have bound := toNat_lt c
  have one : UInt8.ofNat (c.toNat / 262144 % 0x08 + 0xF0) = a := by
    rw [← UInt8.ofNat_toNat (x := a), first]
    congr 1
    omega
  have two : UInt8.ofNat (c.toNat / 4096 % 0x40 + 0x80) = b := by
    rw [← UInt8.ofNat_toNat (x := b), second]
  have three : UInt8.ofNat (c.toNat / 64 % 0x40 + 0x80) = d := by
    rw [← UInt8.ofNat_toNat (x := d), third]
  have four : UInt8.ofNat (c.toNat % 0x40 + 0x80) = e := by
    rw [← UInt8.ofNat_toNat (x := e), fourth]
  show (if c.toNat ≤ 0x7F then _ else if c.toNat ≤ 0x7FF then _ else if c.toNat ≤ 0xFFFF then _ else
    [UInt8.ofNat (c.toNat / 262144 % 0x08 + 0xF0), UInt8.ofNat (c.toNat / 4096 % 0x40 + 0x80),
      UInt8.ofNat (c.toNat / 64 % 0x40 + 0x80), UInt8.ofNat (c.toNat % 0x40 + 0x80)]) = _
  rw [if_neg (by omega), if_neg (by omega), if_neg (by omega), one, two, three, four]

end Encode

section Exists

variable {a b d e : UInt8}

theorem exists_two (first : 0xC2 ≤ a.toNat ∧ a.toNat ≤ 0xDF)
    (second : 0x80 ≤ b.toNat ∧ b.toNat ≤ 0xBF) :
    ∃ c : Char, c.toNat = (a.toNat - 0xC0) * 64 + b.toNat % 64 ∧
      String.utf8EncodeChar c = [a, b] := by
  obtain ⟨c, same⟩ := exists_toNat (n := (a.toNat - 0xC0) * 64 + b.toNat % 64)
    (Or.inl (by omega))
  exact ⟨c, same, encode_two (by omega) (by omega) (by omega) (by omega)⟩

theorem exists_three (first : 0xE0 ≤ a.toNat ∧ a.toNat ≤ 0xEF)
    (second : 0x80 ≤ b.toNat ∧ b.toNat ≤ 0xBF) (third : 0x80 ≤ d.toNat ∧ d.toNat ≤ 0xBF)
    (notShorter : a.toNat = 0xE0 → 0xA0 ≤ b.toNat)
    (noSurrogate : a.toNat = 0xED → b.toNat ≤ 0x9F) :
    ∃ c : Char, c.toNat = ((a.toNat - 0xE0) * 64 + b.toNat % 64) * 64 + d.toNat % 64 ∧
      String.utf8EncodeChar c = [a, b, d] := by
  have valid : (((a.toNat - 0xE0) * 64 + b.toNat % 64) * 64 + d.toNat % 64).isValidChar := by
    unfold Nat.isValidChar
    omega
  obtain ⟨c, same⟩ := exists_toNat valid
  exact ⟨c, same, encode_three (by omega) (by omega) (by omega) (by omega) (by omega)⟩

theorem exists_four (first : 0xF0 ≤ a.toNat ∧ a.toNat ≤ 0xF4)
    (second : 0x80 ≤ b.toNat ∧ b.toNat ≤ 0xBF) (third : 0x80 ≤ d.toNat ∧ d.toNat ≤ 0xBF)
    (fourth : 0x80 ≤ e.toNat ∧ e.toNat ≤ 0xBF) (notShorter : a.toNat = 0xF0 → 0x90 ≤ b.toNat)
    (notBeyond : a.toNat = 0xF4 → b.toNat ≤ 0x8F) :
    ∃ c : Char, c.toNat =
        (((a.toNat - 0xF0) * 64 + b.toNat % 64) * 64 + d.toNat % 64) * 64 + e.toNat % 64 ∧
      String.utf8EncodeChar c = [a, b, d, e] := by
  have valid : ((((a.toNat - 0xF0) * 64 + b.toNat % 64) * 64 + d.toNat % 64) * 64 +
      e.toNat % 64).isValidChar := by
    unfold Nat.isValidChar
    omega
  obtain ⟨c, same⟩ := exists_toNat valid
  exact ⟨c, same, encode_four (by omega) (by omega) (by omega) (by omega) (by omega)⟩

end Exists

/-- The bytes of the ranges of a first byte are those of a character. -/
theorem exists_char {first : UInt8} {ranges : List Range} {rest : List UInt8}
    (starts : tails first = some ranges) (within : List.Forall₂ Range.Has ranges rest) :
    ∃ c : Char, c.toNat = rest.foldl shiftIn (lead first) ∧
      String.utf8EncodeChar c = first :: rest := by
  unfold tails at starts
  unfold lead
  split_ifs at starts with one notFirst two e0 ed three f0 four f4
  all_goals
    cases starts
    simp only [List.forall₂_cons_left_iff, List.forall₂_nil_left_iff, Range.Has, tail] at within
  · subst within
    obtain ⟨c, same⟩ := exists_toNat (n := first.toNat) (Or.inl (by omega))
    refine ⟨c, ?_, encode_one (by omega) same.symm⟩
    rw [List.foldl_nil, if_pos one, same]
  · obtain ⟨b, _, second, rfl, rfl⟩ := within
    rw [if_neg one, if_pos two]
    exact exists_two (by omega) second
  · obtain ⟨b, _, second, ⟨d, _, third, rfl, rfl⟩, rfl⟩ := within
    rw [if_neg one, if_neg two, if_pos (by omega)]
    exact exists_three (by omega) (by omega) third (by omega) (by omega)
  · obtain ⟨b, _, second, ⟨d, _, third, rfl, rfl⟩, rfl⟩ := within
    rw [if_neg one, if_neg two, if_pos (by omega)]
    exact exists_three (by omega) (by omega) third (by omega) (by omega)
  · obtain ⟨b, _, second, ⟨d, _, third, rfl, rfl⟩, rfl⟩ := within
    rw [if_neg one, if_neg two, if_pos three]
    exact exists_three (by omega) second third (by omega) (by omega)
  · obtain ⟨b, _, second, ⟨d, _, third, ⟨e, _, fourth, rfl, rfl⟩, rfl⟩, rfl⟩ := within
    rw [if_neg one, if_neg two, if_neg three]
    exact exists_four (by omega) (by omega) third fourth (by omega) (by omega)
  · obtain ⟨b, _, second, ⟨d, _, third, ⟨e, _, fourth, rfl, rfl⟩, rfl⟩, rfl⟩ := within
    rw [if_neg one, if_neg two, if_neg three]
    exact exists_four (by omega) second third fourth (by omega) (by omega)
  · obtain ⟨b, _, second, ⟨d, _, third, ⟨e, _, fourth, rfl, rfl⟩, rfl⟩, rfl⟩ := within
    rw [if_neg one, if_neg two, if_neg three]
    exact exists_four (by omega) (by omega) third fourth (by omega) (by omega)

theorem toNat_ofNat {n : Nat} (small : n < 256) : (UInt8.ofNat n).toNat = n := by
  rw [UInt8.toNat_ofNat', Nat.mod_eq_of_lt small]

/-- A byte with six bits of a number. -/
theorem has_tail {byte : UInt8} {n : Nat} (same : byte.toNat = n % 64 + 0x80) : tail.Has byte := by
  have bound : n % 64 < 64 := Nat.mod_lt n (by decide)
  rw [Range.Has, same]
  simp only [tail]
  omega

theorem tails_two {a : UInt8} (first : 0xC2 ≤ a.toNat ∧ a.toNat ≤ 0xDF) :
    tails a = some [tail] := by
  rw [tails, if_neg (by omega), if_neg (by omega), if_pos first.2]

theorem tails_three {a b : UInt8} (first : 0xE0 ≤ a.toNat ∧ a.toNat ≤ 0xEF)
    (second : tail.Has b) (notShorter : a.toNat = 0xE0 → 0xA0 ≤ b.toNat)
    (noSurrogate : a.toNat = 0xED → b.toNat ≤ 0x9F) :
    ∃ range, tails a = some [range, tail] ∧ range.Has b := by
  have within : 0x80 ≤ b.toNat ∧ b.toNat ≤ 0xBF := second
  unfold tails
  rw [if_neg (by omega), if_neg (by omega), if_neg (by omega)]
  by_cases e0 : a.toNat = 0xE0
  · rw [if_pos e0]
    exact ⟨_, rfl, notShorter e0, within.2⟩
  · rw [if_neg e0]
    by_cases ed : a.toNat = 0xED
    · rw [if_pos ed]
      exact ⟨_, rfl, within.1, noSurrogate ed⟩
    · rw [if_neg ed, if_pos first.2]
      exact ⟨_, rfl, second⟩

theorem tails_four {a b : UInt8} (first : 0xF0 ≤ a.toNat ∧ a.toNat ≤ 0xF4)
    (second : tail.Has b) (notShorter : a.toNat = 0xF0 → 0x90 ≤ b.toNat)
    (notBeyond : a.toNat = 0xF4 → b.toNat ≤ 0x8F) :
    ∃ range, tails a = some [range, tail, tail] ∧ range.Has b := by
  have within : 0x80 ≤ b.toNat ∧ b.toNat ≤ 0xBF := second
  unfold tails
  rw [if_neg (by omega), if_neg (by omega), if_neg (by omega), if_neg (by omega),
    if_neg (by omega), if_neg (by omega)]
  by_cases f0 : a.toNat = 0xF0
  · rw [if_pos f0]
    exact ⟨_, rfl, notShorter f0, within.2⟩
  · rw [if_neg f0]
    by_cases f3 : a.toNat ≤ 0xF3
    · rw [if_pos f3]
      exact ⟨_, rfl, second⟩
    · rw [if_neg f3, if_pos (by omega)]
      exact ⟨_, rfl, within.1, notBeyond (by omega)⟩

/-- The bytes of a character are a first byte and bytes of its ranges. -/
theorem ranges_of_char (c : Char) : ∃ first ranges rest, String.utf8EncodeChar c = first :: rest ∧
    tails first = some ranges ∧ List.Forall₂ Range.Has ranges rest := by
  have valid := isValidChar_toNat c
  unfold Nat.isValidChar at valid
  have lowest : (UInt8.ofNat (c.toNat % 64 + 0x80)).toNat = c.toNat % 64 + 0x80 :=
    toNat_ofNat (by omega)
  have middle : (UInt8.ofNat (c.toNat / 64 % 64 + 0x80)).toNat = c.toNat / 64 % 64 + 0x80 :=
    toNat_ofNat (by omega)
  by_cases one : c.toNat ≤ 0x7F
  · refine ⟨UInt8.ofNat c.toNat, [], [], encode_one one (toNat_ofNat (by omega)), ?_, .nil⟩
    rw [tails, toNat_ofNat (by omega), if_pos one]
  by_cases two : c.toNat ≤ 0x7FF
  · have first : (UInt8.ofNat (c.toNat / 64 + 0xC0)).toNat = c.toNat / 64 + 0xC0 :=
      toNat_ofNat (by omega)
    exact ⟨_, [tail], _, encode_two (by omega) two first lowest, tails_two (by omega),
      .cons (has_tail lowest) .nil⟩
  by_cases three : c.toNat ≤ 0xFFFF
  · have first : (UInt8.ofNat (c.toNat / 4096 + 0xE0)).toNat = c.toNat / 4096 + 0xE0 :=
      toNat_ofNat (by omega)
    obtain ⟨range, starts, second⟩ := tails_three (a := UInt8.ofNat (c.toNat / 4096 + 0xE0))
      (by omega) (has_tail middle) (by omega) (by omega)
    exact ⟨_, _, _, encode_three (by omega) three first middle lowest, starts,
      .cons second (.cons (has_tail lowest) .nil)⟩
  · have first : (UInt8.ofNat (c.toNat / 262144 + 0xF0)).toNat = c.toNat / 262144 + 0xF0 :=
      toNat_ofNat (by omega)
    have second : (UInt8.ofNat (c.toNat / 4096 % 64 + 0x80)).toNat =
        c.toNat / 4096 % 64 + 0x80 := toNat_ofNat (by omega)
    obtain ⟨range, starts, within⟩ := tails_four (a := UInt8.ofNat (c.toNat / 262144 + 0xF0))
      (by omega) (has_tail second) (by omega) (by omega)
    exact ⟨_, _, _, encode_four (by omega) first second middle lowest, starts,
      .cons within (.cons (has_tail middle) (.cons (has_tail lowest) .nil))⟩

/-! ### Texts -/

/-- The text is the encoding of characters. -/
def WellFormed (text : List UInt8) : Prop :=
  ∃ chars : List Char, text = chars.flatMap String.utf8EncodeChar

/-- One byte more: the ranges of the bytes that are due after it. -/
def step (due : List Range) (byte : UInt8) : Option (List Range) :=
  match due with
  | [] => tails byte
  | range :: due => if range.Has byte then some due else none

def run (due : List Range) (text : List UInt8) : Option (List Range) := text.foldlM step due

theorem run_nil (due : List Range) : run due [] = some due := rfl

theorem run_cons (due : List Range) (byte : UInt8) (text : List UInt8) :
    run due (byte :: text) = (step due byte).bind fun due => run due text := rfl

theorem run_append (due : List Range) (text more : List UInt8) :
    run due (text ++ more) = (run due text).bind fun due => run due more :=
  List.foldlM_append

/-- What follows where bytes are due: bytes of their ranges, and then characters. -/
theorem run_eq_some_nil {text : List UInt8} {due : List Range} : run due text = some [] ↔
    ∃ rest chars, text = rest ++ List.flatMap String.utf8EncodeChar chars ∧
      List.Forall₂ Range.Has due rest := by
  induction text generalizing due with
  | nil =>
    rw [run_nil]
    constructor
    · intro same
      cases same
      exact ⟨[], [], rfl, .nil⟩
    · rintro ⟨rest, chars, same, within⟩
      cases (List.append_eq_nil_iff.mp same.symm).1
      cases within
      rfl
  | cons byte text ih =>
    rw [run_cons, Option.bind_eq_some_iff]
    cases due with
    | nil =>
      constructor
      · rintro ⟨ranges, starts, ends⟩
        obtain ⟨rest, chars, rfl, within⟩ := ih.mp ends
        obtain ⟨c, _, encodes⟩ := exists_char starts within
        refine ⟨[], c :: chars, ?_, .nil⟩
        rw [List.nil_append, List.flatMap_cons, encodes, List.cons_append]
      · rintro ⟨rest, chars, same, within⟩
        cases within
        cases chars with
        | nil => cases same
        | cons c chars =>
          obtain ⟨first, ranges, rest, encodes, starts, within⟩ := ranges_of_char c
          rw [List.nil_append, List.flatMap_cons, encodes, List.cons_append] at same
          obtain ⟨rfl, rfl⟩ := List.cons.inj same
          exact ⟨ranges, starts, ih.mpr ⟨rest, chars, rfl, within⟩⟩
    | cons range due =>
      constructor
      · rintro ⟨left, took, ends⟩
        rw [step] at took
        split at took
        · rename_i has
          cases took
          obtain ⟨rest, chars, rfl, within⟩ := ih.mp ends
          exact ⟨byte :: rest, chars, rfl, .cons has within⟩
        · cases took
      · rintro ⟨rest, chars, same, within⟩
        cases within with
        | cons has within =>
          obtain ⟨rfl, rfl⟩ := List.cons.inj same
          exact ⟨due, if_pos has, ih.mpr ⟨_, chars, rfl, within⟩⟩

/-- Texts: **nothing is due after a text exactly when it is the encoding of characters**. -/
theorem run_eq_nil_iff {text : List UInt8} : run [] text = some [] ↔ WellFormed text := by
  rw [run_eq_some_nil]
  constructor
  · rintro ⟨rest, chars, rfl, within⟩
    cases within
    exact ⟨chars, rfl⟩
  · rintro ⟨chars, rfl⟩
    exact ⟨[], chars, rfl, .nil⟩

instance : DecidablePred WellFormed := fun _ => decidable_of_iff _ run_eq_nil_iff

theorem wellFormed_append {text more : List UInt8} (first : WellFormed text)
    (second : WellFormed more) : WellFormed (text ++ more) := by
  rw [← run_eq_nil_iff] at first second ⊢
  rw [run_append, first, Option.bind_some, second]

theorem wellFormed_ascii {text : List UInt8} (ascii : ∀ byte ∈ text, byte.toNat < 0x80) :
    WellFormed text := by
  rw [← run_eq_nil_iff]
  induction text with
  | nil => rfl
  | cons byte text ih =>
    obtain ⟨first, others⟩ := List.forall_mem_cons.mp ascii
    rw [run_cons, step, tails, if_pos (Nat.le_of_lt_succ first), Option.bind_some, ih others]

/-- All bytes are ASCII, for texts that are written out. -/
def allAscii (text : List UInt8) : Bool := text.all fun byte => decide (byte.toNat < 0x80)

theorem wellFormed_of_all {text : List UInt8} (ascii : allAscii text = true) : WellFormed text :=
  wellFormed_ascii fun byte member => of_decide_eq_true (List.all_eq_true.mp ascii byte member)

theorem wellFormed_flatMap {α : Type} {items : List α} {text : α → List UInt8}
    (each : ∀ item ∈ items, WellFormed (text item)) : WellFormed (items.flatMap text) := by
  induction items with
  | nil => exact ⟨[], rfl⟩
  | cons item items ih =>
    obtain ⟨first, others⟩ := List.forall_mem_cons.mp each
    rw [List.flatMap_cons]
    exact wellFormed_append first (ih others)

theorem wellFormed_char (c : Char) : WellFormed (String.utf8EncodeChar c) :=
  ⟨[c], by rw [List.flatMap_singleton]⟩

theorem exists_of_forall₂ {ranges : List Range} {rest : List UInt8} {byte : UInt8}
    (within : List.Forall₂ Range.Has ranges rest) (member : byte ∈ rest) :
    ∃ range ∈ ranges, range.Has byte := by
  induction within with
  | nil => cases member
  | cons has _ ih =>
    rcases List.mem_cons.mp member with rfl | later
    · exact ⟨_, List.mem_cons_self, has⟩
    · obtain ⟨range, inRanges, both⟩ := ih later
      exact ⟨range, List.mem_cons_of_mem _ inRanges, both⟩

/-- The first byte of a character of several bytes is not ASCII, and nor are the others. -/
theorem large_of_tails {first : UInt8} {ranges : List Range} (starts : tails first = some ranges)
    (large : ¬ first.toNat ≤ 0x7F) :
    0x80 ≤ first.toNat ∧ ∀ range ∈ ranges, 0x80 ≤ range.1 := by
  rw [tails, if_neg large] at starts
  constructor
  · exact Nat.lt_of_not_le large
  · split_ifs at starts <;> cases starts <;> simp [tail]

/-- A character is one ASCII byte, or none of its bytes is ASCII. -/
theorem ascii_or_large (c : Char) :
    (∃ byte : UInt8, byte.toNat < 0x80 ∧ String.utf8EncodeChar c = [byte]) ∨
      ∀ byte ∈ String.utf8EncodeChar c, 0x80 ≤ byte.toNat := by
  obtain ⟨first, ranges, rest, encodes, starts, within⟩ := ranges_of_char c
  rw [encodes]
  by_cases small : first.toNat ≤ 0x7F
  · rw [tails, if_pos small] at starts
    cases starts
    cases within
    exact Or.inl ⟨first, Nat.lt_succ_of_le small, rfl⟩
  · obtain ⟨large, others⟩ := large_of_tails starts small
    refine Or.inr (List.forall_mem_cons.mpr ⟨large, fun byte member => ?_⟩)
    obtain ⟨range, inRanges, has⟩ := exists_of_forall₂ within member
    exact Nat.le_trans (others range inRanges) has.1

/-- Every range that is due has a byte. -/
def Proper (due : List Range) : Prop := ∀ range ∈ due, range.1 ≤ range.2 ∧ range.2 < 256

theorem proper_tail : tail.1 ≤ tail.2 ∧ tail.2 < 256 := by decide

theorem proper_tails {first : UInt8} {ranges : List Range} (starts : tails first = some ranges) :
    Proper ranges := by
  have two : Proper [tail] := fun _ member => by
    cases List.mem_singleton.mp member
    exact proper_tail
  have more : ∀ {range : Range} {due : List Range}, range.1 ≤ range.2 ∧ range.2 < 256 → Proper due →
      Proper (range :: due) := fun nonempty proper => List.forall_mem_cons.mpr ⟨nonempty, proper⟩
  unfold tails at starts
  split_ifs at starts <;> cases starts
  · exact fun _ member => absurd member List.not_mem_nil
  · exact two
  · exact more (by decide) two
  · exact more (by decide) two
  · exact more proper_tail two
  · exact more (by decide) (more proper_tail two)
  · exact more proper_tail (more proper_tail two)
  · exact more (by decide) (more proper_tail two)

theorem proper_step {due left : List Range} {byte : UInt8} (proper : Proper due)
    (took : step due byte = some left) : Proper left := by
  cases due with
  | nil => exact proper_tails took
  | cons range due =>
    rw [step] at took
    split at took
    · cases took
      exact fun other member => proper other (List.mem_cons_of_mem _ member)
    · cases took

theorem proper_run {text : List UInt8} {due left : List Range} (proper : Proper due)
    (ran : run due text = some left) : Proper left := by
  induction text generalizing due with
  | nil =>
    cases ran
    exact proper
  | cons byte text ih =>
    obtain ⟨next, took, rest⟩ := Option.bind_eq_some_iff.mp ran
    exact ih (proper_step proper took) rest

/-- The least byte of each range. -/
def least (due : List Range) : List UInt8 := due.map fun range => UInt8.ofNat range.1

theorem has_least {due : List Range} (proper : Proper due) :
    List.Forall₂ Range.Has due (least due) := by
  induction due with
  | nil => exact .nil
  | cons range due ih =>
    obtain ⟨first, others⟩ := List.forall_mem_cons.mp proper
    refine .cons ?_ (ih others)
    rw [Range.Has, toNat_ofNat (by omega)]
    exact ⟨Nat.le_refl _, first.1⟩

/-- Refusals: **a text is refused exactly when no encoding of characters starts with it**. -/
theorem run_eq_none_iff {text : List UInt8} :
    run [] text = none ↔ ¬ ∃ more, WellFormed (text ++ more) := by
  constructor
  · rintro refused ⟨more, wellFormed⟩
    rw [← run_eq_nil_iff, run_append, refused] at wellFormed
    cases wellFormed
  · intro never
    cases ran : run [] text with
    | none => rfl
    | some due =>
      have proper : Proper due := proper_run (fun _ member => absurd member List.not_mem_nil) ran
      refine absurd ⟨least due, ?_⟩ never
      rw [← run_eq_nil_iff, run_append, ran, Option.bind_some, run_eq_some_nil]
      exact ⟨_, [], (List.append_nil _).symm, has_least proper⟩

end Utf8
