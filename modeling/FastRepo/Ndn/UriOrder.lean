/-
The bytewise order of URI texts.

Escaping does not keep the order of the bytes: an escaped byte begins with `%`, which is below every
byte that stands for itself, and the slash that ends a component is above `%`, `+`, `-` and `.` and
below the digits and the letters. `uriRank` gives the place of each byte and `uriCode` shows that
these places decide the order of the texts. `compare_escape` compares two whole components.
-/

import FastRepo.Lib.RankedCode
import FastRepo.Ndn.UriText

namespace FastRepo

open UriText

/-- The place of a byte in the order of the escaped texts: the escaped bytes by value, and above
them the bytes that stand for themselves, by value. -/
def uriRank (b : UInt8) : Nat := if isUnescaped b then 256 + b.toNat else b.toNat

/-- The place of a symbol: a byte, or the slash at the end of the component. -/
def symbolRank : Option UInt8 → Nat
  | some b => uriRank b
  | none => 256 + slash.toNat

/-- The text of a symbol. -/
def symbolText : Option UInt8 → Bytes
  | some b => escapeByte b
  | none => [slash]

theorem percent_lt_of_isUnescaped {b : UInt8} (unescaped : isUnescaped b = true) : percent < b := by
  simp only [isUnescaped, Decimal.isDigit, Bool.or_eq_true, Bool.and_eq_true, decide_eq_true_eq,
    beq_iff_eq] at unescaped
  rcases unescaped with (((((upper | lower) | digit) | rfl) | rfl) | rfl) | rfl
  · exact UInt8.lt_of_lt_of_le (by decide) upper.1
  · exact UInt8.lt_of_lt_of_le (by decide) lower.1
  · exact UInt8.lt_of_lt_of_le (by decide) digit.1
  all_goals decide

/-- A symbol is written as itself or as an escape. -/
theorem symbolText_cases (symbol : Option UInt8) :
    (∃ c, percent < c ∧ symbolText symbol = [c] ∧ symbolRank symbol = 256 + c.toNat) ∨
      ∃ b : UInt8, symbolText symbol =
          [percent, hexDigit (b.toNat / 16), hexDigit (b.toNat % 16)] ∧
        symbolRank symbol = b.toNat := by
  cases symbol with
  | none => exact .inl ⟨slash, by decide, rfl, rfl⟩
  | some b =>
    by_cases unescaped : isUnescaped b = true
    · exact .inl ⟨b, percent_lt_of_isUnescaped unescaped, if_pos unescaped, if_pos unescaped⟩
    · exact .inr ⟨b, if_neg unescaped, if_neg unescaped⟩

theorem symbolRank_ne_end (b : UInt8) : symbolRank (some b) ≠ symbolRank none := by
  intro same
  have small := b.toNat_lt
  have stop : symbolRank none = 256 + slash.toNat := rfl
  by_cases unescaped : isUnescaped b = true
  · rw [symbolRank, uriRank, if_pos unescaped] at same
    exact (isUnescaped_facts b unescaped).2.1 (UInt8.toNat_inj.mp (by omega))
  · rw [symbolRank, uriRank, if_neg unescaped] at same
    omega

/-! ### Comparing the texts of two symbols -/

theorem compare_bytes (b c : UInt8) : compare b c = compare b.toNat c.toNat := by
  show compareOfLessAndEq b c = compareOfLessAndEq b.toNat c.toNat
  simp only [compareOfLessAndEq, UInt8.lt_iff_toNat_lt, UInt8.toNat_inj]

theorem compare_hexDigit : ∀ m < 16, ∀ n < 16, compare (hexDigit m) (hexDigit n) = compare m n := by
  decide

/-- Numbers compare by their hexadecimal digits. -/
theorem compare_digits (m n : Nat) :
    (compare (m / 16) (n / 16)).then (compare (m % 16) (n % 16)) = compare m n := by
  rcases Nat.lt_trichotomy m n with below | same | above
  · rw [Nat.compare_eq_lt.mpr below, Ordering.then_eq_lt, Nat.compare_eq_lt, Nat.compare_eq_eq,
      Nat.compare_eq_lt]
    omega
  · rw [same, Nat.compare_eq_eq.mpr rfl, Nat.compare_eq_eq.mpr rfl, Nat.compare_eq_eq.mpr rfl]
    rfl
  · rw [Nat.compare_eq_gt.mpr above, Ordering.then_eq_gt, Nat.compare_eq_gt, Nat.compare_eq_eq,
      Nat.compare_eq_gt]
    omega

/-- An escape is below a byte that stands for itself, and so is its place. -/
theorem escape_below {c : UInt8} (above : percent < c) (b : UInt8) (s t : Bytes) :
    compare (percent :: s) (c :: t) = .lt ∧ compare b.toNat (256 + c.toNat) = .lt := by
  have small := b.toNat_lt
  have bytes : compare percent c = .lt := by
    rw [compare_bytes]
    exact Nat.compare_eq_lt.mpr (UInt8.lt_iff_toNat_lt.mp above)
  refine ⟨?_, Nat.compare_eq_lt.mpr (by omega)⟩
  rw [PrefixRun.compare_cons, bytes]
  rfl

/-- The texts of two symbols compare as their places do. -/
theorem compare_symbolText (first second : Option UInt8) (s t : Bytes) :
    compare (symbolText first ++ s) (symbolText second ++ t) =
      (compare (symbolRank first) (symbolRank second)).then (compare s t) := by
  obtain ⟨b, above, text, rank⟩ | ⟨b, text, rank⟩ := symbolText_cases first <;>
    obtain ⟨c, above', text', rank'⟩ | ⟨c, text', rank'⟩ := symbolText_cases second <;>
    rw [text, text', rank, rank']
  · have shifted : compare (256 + b.toNat) (256 + c.toNat) = compare b.toNat c.toNat := by
      simp only [Nat.compare_eq_ite_lt, Nat.add_lt_add_iff_left]
    rw [shifted, ← compare_bytes]
    exact PrefixRun.compare_cons b c s t
  · have below := escape_below above c
      (hexDigit (c.toNat / 16) :: hexDigit (c.toNat % 16) :: t) s
    rw [Std.OrientedOrd.eq_swap, Std.OrientedOrd.eq_swap (a := 256 + b.toNat), below.2]
    exact congrArg Ordering.swap below.1
  · have below := escape_below above' b
      (hexDigit (b.toNat / 16) :: hexDigit (b.toNat % 16) :: s) t
    rw [below.2]
    exact below.1
  · have high : b.toNat / 16 < 16 := by have := b.toNat_lt; omega
    have high' : c.toNat / 16 < 16 := by have := c.toNat_lt; omega
    have percents : compare percent percent = .eq := Std.ReflOrd.compare_self
    have low (d : UInt8) : d.toNat % 16 < 16 := Nat.mod_lt _ (by decide)
    simp only [List.cons_append, List.nil_append, PrefixRun.compare_cons]
    rw [percents, Ordering.eq_then, compare_hexDigit _ high _ high',
      compare_hexDigit _ (low b) _ (low c), ← Ordering.then_assoc, compare_digits]

/-- The code of the URI texts. -/
def uriCode : RankedCode (Option UInt8) UInt8 where
  code := symbolText
  rank := symbolRank
  compare_code := compare_symbolText

/-! ### Comparing components -/

/-- The places of the bytes of a value, and the place of the end of its component. -/
def uriRanks (value : Bytes) : List Nat := uriCode.ranks none (value.map some)

theorem encode_value (value : Bytes) :
    uriCode.encode none (value.map some) = value.flatMap escapeByte ++ [slash] := by
  rw [RankedCode.encode, List.flatMap_append, List.flatMap_map]
  rfl

/-- The library writes the value of a generic component byte by byte, unless it is made of periods
alone. -/
def UriScheme.EscapesBytes (uri : UriScheme) : Prop :=
  ∀ value : Bytes, (∃ b ∈ value, b ≠ period) →
    uri.escape (.generic value) = value.flatMap escapeByte

theorem escapesBytes_uriText : uriText.EscapesBytes := by
  intro value other
  obtain ⟨b, member, apart⟩ := other
  have mixed : ¬value.all (· == period) = true := fun periods =>
    apart (beq_iff_eq.mp (List.all_eq_true.mp periods b member))
  have generic : (Component.generic value).IsGeneric := rfl
  show escapeComponent (.generic value) = _
  rw [escapeComponent, if_pos generic]
  exact if_neg mixed

/-- Two components that are followed by more compare as the places of their bytes do. -/
theorem compare_escape {uri : UriScheme} (escapes : uri.EscapesBytes) {first second : Bytes}
    (firstOther : ∃ b ∈ first, b ≠ period) (secondOther : ∃ b ∈ second, b ≠ period)
    (s t : Bytes) :
    compare (uri.escape (.generic first) ++ slash :: s)
        (uri.escape (.generic second) ++ slash :: t) =
      (compare (uriRanks first) (uriRanks second)).then (compare s t) := by
  have inner (value : Bytes) : ∀ symbol ∈ value.map some,
      uriCode.rank symbol ≠ uriCode.rank none := by
    intro symbol member
    obtain ⟨b, _, rfl⟩ := List.mem_map.mp member
    exact symbolRank_ne_end b
  rw [escapes first firstOther, escapes second secondOther, uriRanks, uriRanks,
    ← uriCode.compare_encode (inner first) (inner second), encode_value, encode_value,
    List.append_assoc, List.append_assoc]
  rfl

end FastRepo
