/-
The URI text of the NDN library.

`uriText` is the `UriScheme` the library documents: letters, digits and `+ - . _` stand for
themselves, every other byte is written as `%` and two upper-case hexadecimal digits, and a value
made of `n` periods alone, the empty one included, is written as `n + 3` periods. A component that
is not a generic one has its type in front, as in `32=abc`.

* `unescapeValue_escapeValue`: the escaping of a value is inverted.
* `parseComponent_escape`: the text of a component, with its type, is inverted.
-/

import FastRepo.Lib.Decimal
import FastRepo.Ndn.Name

namespace FastRepo.UriText

/-! ### Bytes -/

def period : UInt8 := '.'.toUInt8
def percent : UInt8 := '%'.toUInt8
def equals : UInt8 := '='.toUInt8

/-- The bytes that stand for themselves. -/
def isUnescaped (b : UInt8) : Bool :=
  ('A'.toUInt8 ≤ b && b ≤ 'Z'.toUInt8) || ('a'.toUInt8 ≤ b && b ≤ 'z'.toUInt8) ||
    Decimal.isDigit b || b == '+'.toUInt8 || b == '-'.toUInt8 || b == period || b == '_'.toUInt8

/-- The upper-case hexadecimal digit of a number below 16. -/
def hexDigit (n : Nat) : UInt8 :=
  if n < 10 then UInt8.ofNat (48 + n) else UInt8.ofNat (55 + n)

/-- The number a hexadecimal digit stands for. -/
def hexValue (b : UInt8) : Nat :=
  if b.toNat < 58 then b.toNat - 48 else b.toNat - 55

theorem hexDigit_facts : ∀ n < 16, hexValue (hexDigit n) = n ∧ hexDigit n ≠ slash ∧
    hexDigit n ≠ equals ∧ hexDigit n ≠ period := by
  decide

def escapeByte (b : UInt8) : Bytes :=
  if isUnescaped b then [b] else [percent, hexDigit (b.toNat / 16), hexDigit (b.toNat % 16)]

/-! ### Values -/

/-- The escaped text of a component value. -/
def escapeValue (value : Bytes) : Bytes :=
  if value.all (· == period) then List.replicate 3 period ++ value else value.flatMap escapeByte

/-- The bytes a text stands for: each `%` takes the two digits that follow it. -/
def unescape : Bytes → Bytes
  | [] => []
  | [b] => [b]
  | [b, c] => [b, c]
  | b :: high :: low :: rest =>
    if b = percent then UInt8.ofNat (hexValue high * 16 + hexValue low) :: unescape rest
    else b :: unescape (high :: low :: rest)

/-- The value of an escaped text. -/
def unescapeValue (text : Bytes) : Bytes :=
  if text.all (· == period) then text.drop 3 else unescape text

theorem unescape_cons_of_ne {b : UInt8} (plain : b ≠ percent) (rest : Bytes) :
    unescape (b :: rest) = b :: unescape rest := by
  match rest with
  | [] => rfl
  | [_] => rfl
  | _ :: _ :: _ => rw [unescape, if_neg plain]

theorem isUnescaped_facts : ∀ b : UInt8, isUnescaped b = true →
    b ≠ percent ∧ b ≠ slash ∧ b ≠ equals := by
  intro b unescaped
  refine ⟨?_, ?_, ?_⟩ <;> · rintro rfl; revert unescaped; decide

theorem unescape_escapeByte (b : UInt8) (rest : Bytes) :
    unescape (escapeByte b ++ rest) = b :: unescape rest := by
  unfold escapeByte
  split
  · rename_i unescaped
    exact unescape_cons_of_ne (isUnescaped_facts b unescaped).1 rest
  · have high : b.toNat / 16 < 16 := by have := b.toNat_lt; omega
    have low : b.toNat % 16 < 16 := Nat.mod_lt _ (by decide)
    show unescape (percent :: hexDigit (b.toNat / 16) :: hexDigit (b.toNat % 16) :: rest) = _
    rw [unescape, if_pos rfl, (hexDigit_facts _ high).1, (hexDigit_facts _ low).1,
      show b.toNat / 16 * 16 + b.toNat % 16 = b.toNat by omega, UInt8.ofNat_toNat]

theorem unescape_flatMap (value : Bytes) : unescape (value.flatMap escapeByte) = value := by
  induction value with
  | nil => rfl
  | cons b value ih => rw [List.flatMap_cons, unescape_escapeByte, ih]

/-- The text of a value holds periods alone only if the value does. -/
theorem all_period_escape (value : Bytes)
    (periods : (value.flatMap escapeByte).all (· == period) = true) :
    value.all (· == period) = true := by
  rw [List.all_eq_true] at periods ⊢
  intro b member
  have inside : ∀ c ∈ escapeByte b, (c == period) = true := fun c mem =>
    periods c (List.mem_flatMap.mpr ⟨b, member, mem⟩)
  unfold escapeByte at inside
  split at inside
  · exact inside b List.mem_cons_self
  · exact absurd (inside percent List.mem_cons_self) (by decide)

/-- Values: **unescaping inverts escaping**. -/
theorem unescapeValue_escapeValue (value : Bytes) :
    unescapeValue (escapeValue value) = value := by
  unfold escapeValue unescapeValue
  split
  · rename_i periods
    rw [if_pos]
    · rfl
    · rw [List.all_append, periods]
      rfl
  · rename_i other
    rw [if_neg fun periods => other (all_period_escape value periods), unescape_flatMap]

theorem escapeValue_ne_nil (value : Bytes) : escapeValue value ≠ [] := by
  unfold escapeValue
  split
  · simp
  · rename_i other
    cases value with
    | nil => exact absurd rfl other
    | cons b value =>
      rw [List.flatMap_cons]
      unfold escapeByte
      split <;> simp

/-- The bytes of the text of a value: those that stand for themselves, `%` and digits. -/
theorem mem_escapeValue {value : Bytes} {b : UInt8} (member : b ∈ escapeValue value) :
    isUnescaped b = true ∨ b = percent ∨ ∃ n < 16, b = hexDigit n := by
  unfold escapeValue at member
  split at member
  · rename_i periods
    have isPeriod : b = period := by
      rcases List.mem_append.mp member with front | rest
      · exact List.eq_of_mem_replicate front
      · exact beq_iff_eq.mp (List.all_eq_true.mp periods b rest)
    subst isPeriod
    exact Or.inl (by decide)
  · obtain ⟨c, _, inText⟩ := List.mem_flatMap.mp member
    unfold escapeByte at inText
    split at inText
    · rename_i unescaped
      rw [List.mem_singleton.mp inText]
      exact Or.inl unescaped
    · have high : c.toNat / 16 < 16 := by have := c.toNat_lt; omega
      have low : c.toNat % 16 < 16 := Nat.mod_lt _ (by decide)
      simp only [List.mem_cons, List.not_mem_nil, or_false] at inText
      rcases inText with percentSign | first | second
      · exact Or.inr (Or.inl percentSign)
      · exact Or.inr (Or.inr ⟨_, high, first⟩)
      · exact Or.inr (Or.inr ⟨_, low, second⟩)

/-- No separator is left in the text of a value. -/
theorem separators_notMem_escapeValue (value : Bytes) :
    slash ∉ escapeValue value ∧ equals ∉ escapeValue value := by
  have bytes : ∀ b ∈ escapeValue value, b ≠ slash ∧ b ≠ equals := by
    intro b member
    rcases mem_escapeValue member with unescaped | rfl | ⟨n, small, rfl⟩
    · exact (isUnescaped_facts b unescaped).2
    · decide
    · exact ⟨(hexDigit_facts n small).2.1, (hexDigit_facts n small).2.2.1⟩
  exact ⟨fun member => (bytes _ member).1 rfl, fun member => (bytes _ member).2 rfl⟩

theorem ascii_of_isUnescaped {b : UInt8} (unescaped : isUnescaped b = true) : b < 0x80 := by
  simp only [isUnescaped, Decimal.isDigit, Bool.or_eq_true, Bool.and_eq_true, decide_eq_true_eq,
    beq_iff_eq] at unescaped
  rcases unescaped with (((((upper | lower) | digit) | rfl) | rfl) | rfl) | rfl
  · exact UInt8.lt_of_le_of_lt upper.2 (by decide)
  · exact UInt8.lt_of_le_of_lt lower.2 (by decide)
  · exact UInt8.lt_of_le_of_lt digit.2 (by decide)
  all_goals decide

/-- The text of a value is ASCII. -/
theorem ascii_escapeValue {value : Bytes} {b : UInt8} (member : b ∈ escapeValue value) :
    b < 0x80 := by
  have digits : ∀ n < 16, hexDigit n < 0x80 := by decide
  rcases mem_escapeValue member with unescaped | rfl | ⟨n, small, rfl⟩
  · exact ascii_of_isUnescaped unescaped
  · decide
  · exact digits n small

/-! ### Components -/

/-- The text of a component. -/
def escapeComponent (component : Component) : Bytes :=
  if component.IsGeneric then escapeValue component.value
  else Decimal.decimal component.type ++ equals :: escapeValue component.value

/-- The component of a text: what stands before the first `=` is the type. -/
def parseComponent (text : Bytes) : Component :=
  if equals ∈ text then
    ⟨Decimal.ofDecimal (text.takeWhile (· != equals)),
      unescapeValue ((text.dropWhile (· != equals)).drop 1)⟩
  else .generic (unescapeValue text)

theorem decimal_separators {n : Nat} {b : UInt8} (member : b ∈ Decimal.decimal n) :
    b ≠ slash ∧ b ≠ equals := by
  have digit := Decimal.isDigit_of_mem_decimal member
  refine ⟨?_, ?_⟩ <;> · rintro rfl; revert digit; decide

/-- Components: **parsing inverts escaping**. -/
theorem parseComponent_escape (component : Component) :
    parseComponent (escapeComponent component) = component := by
  obtain ⟨type, value⟩ := component
  unfold escapeComponent
  split
  · rename_i generic
    rw [parseComponent, if_neg (separators_notMem_escapeValue value).2,
      unescapeValue_escapeValue, Component.generic]
    exact congrArg (Component.mk · value) generic.symm
  · have before : ∀ b ∈ Decimal.decimal type, (b != equals) = true := fun b member =>
      bne_iff_ne.mpr (decimal_separators member).2
    rw [parseComponent, if_pos (by simp), List.takeWhile_append_of_pos before,
      List.dropWhile_append_of_pos before]
    simp [Decimal.ofDecimal_decimal, unescapeValue_escapeValue]

theorem escapeComponent_ne_nil (component : Component) : escapeComponent component ≠ [] := by
  unfold escapeComponent
  split
  · exact escapeValue_ne_nil _
  · simp

theorem slash_notMem_escapeComponent (component : Component) :
    slash ∉ escapeComponent component := by
  unfold escapeComponent
  split
  · exact (separators_notMem_escapeValue _).1
  · intro member
    rcases List.mem_append.mp member with digit | rest
    · exact (decimal_separators digit).1 rfl
    · rcases List.mem_cons.mp rest with same | inValue
      · exact absurd same (by decide)
      · exact (separators_notMem_escapeValue _).1 inValue

theorem ascii_escapeComponent {component : Component} {b : UInt8}
    (member : b ∈ escapeComponent component) : b < 0x80 := by
  unfold escapeComponent at member
  split at member
  · exact ascii_escapeValue member
  · rcases List.mem_append.mp member with digit | rest
    · have isDigit := Decimal.isDigit_of_mem_decimal digit
      rw [Decimal.isDigit, Bool.and_eq_true, decide_eq_true_eq, decide_eq_true_eq] at isDigit
      exact UInt8.lt_of_le_of_lt isDigit.2 (by decide)
    · rcases List.mem_cons.mp rest with rfl | inValue
      · decide
      · exact ascii_escapeValue inValue

/-- The name of a URI: its pieces, parsed. -/
def ofUri (text : Bytes) : Name := (pieces text).map parseComponent

theorem ofUri_writeUri (name : Name) : ofUri (writeUri escapeComponent name) = name := by
  rw [ofUri, pieces_writeUri escapeComponent_ne_nil slash_notMem_escapeComponent, List.map_map]
  exact (List.map_congr_left fun component _ => parseComponent_escape component).trans
    (List.map_id _)

/-- A piece without a slash is a name of one component. -/
theorem ofUri_escape (component : Component) :
    ofUri (escapeComponent component) = [component] := by
  have noSlash := slash_notMem_escapeComponent component
  have split : (escapeComponent component).splitOn slash = [escapeComponent component] := by
    have whole : ([slash].intercalate [escapeComponent component]).splitOn slash =
        [escapeComponent component] :=
      List.splitOn_intercalate slash (by simpa using noSlash) (List.cons_ne_nil _ _)
    simpa [List.intercalate] using whole
  rw [ofUri, pieces, split, List.filter_cons_of_pos (by simpa using escapeComponent_ne_nil _)]
  simp [parseComponent_escape]

end FastRepo.UriText

namespace FastRepo

/-- The documented URI conversion. -/
def uriText : UriScheme where
  escape := UriText.escapeComponent
  fromEscapedString text := .generic (UriText.unescapeValue text)
  ofUri := UriText.ofUri
  escape_ne_nil := UriText.escapeComponent_ne_nil
  slash_notMem_escape := UriText.slash_notMem_escapeComponent
  ascii_escape _ _ := UriText.ascii_escapeComponent
  ofUri_nil := rfl
  ofUri_writeUri := UriText.ofUri_writeUri
  ofUri_escape component _ := UriText.ofUri_escape component
  fromEscapedString_escape component generic := by
    rw [UriText.escapeComponent, if_pos generic, UriText.unescapeValue_escapeValue]
    exact congrArg (Component.mk · component.value) generic.symm

end FastRepo
