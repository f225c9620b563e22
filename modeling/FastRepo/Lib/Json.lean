/-
JSON values, and codecs for them.

A value holds strings as bytes, and an object as a list of entries in the order of their keys. A
codec writes values as text and reads text as values; `JsonCodec` says what may be relied on. A
codec may have numbers of its own, so the type of numbers is a parameter.

* `Json.induct`: the induction over values, with one case for each container.
* `every_ofMap`: what holds of all strings and keys of the object of a map.
* `getElem?_of_ofMap`: an object determines the map it was made of.
* `field_ofMap`: looking up a key of the object of a map is looking it up in the map.
-/

import Mathlib.Data.List.Basic

/-- A JSON value. -/
inductive Json (ν : Type) where
  | null
  | bool (value : Bool)
  | number (value : ν)
  | string (text : List UInt8)
  | array (items : List (Json ν))
  | object (entries : List (List UInt8 × Json ν))

namespace Json

variable {ν : Type}

/-! ### Induction -/

section Induction

variable {P : Json ν → Prop} (null : P .null) (bool : ∀ value, P (.bool value))
  (number : ∀ value, P (.number value)) (string : ∀ text, P (.string text))
  (array : ∀ items, (∀ item ∈ items, P item) → P (.array items))
  (object : ∀ entries, (∀ entry ∈ entries, P entry.2) → P (.object entries))
include null bool number string array object

/-- Induction over a value: a container may use its parts. -/
theorem induct (value : Json ν) : P value := by
  refine @Json.rec ν P (fun items => ∀ item ∈ items, P item)
    (fun entries => ∀ entry ∈ entries, P entry.2) (fun entry => P entry.2)
    null bool number string array object ?_ ?_ ?_ ?_ ?_ value
  · exact fun _ member => absurd member List.not_mem_nil
  · exact fun first rest head tail => List.forall_mem_cons.mpr ⟨head, tail⟩
  · exact fun _ member => absurd member List.not_mem_nil
  · exact fun first rest head tail => List.forall_mem_cons.mpr ⟨head, tail⟩
  · exact fun _ _ holds => holds

end Induction

/-! ### All strings and keys of a value -/

section Every

variable (string : List UInt8 → Bool) (keys : List (List UInt8) → Bool)

mutual

/-- Every string passes a check, and the keys of every object pass another. -/
def every : Json ν → Bool
  | .null | .bool _ | .number _ => true
  | .string text => string text
  | .array items => everyItem items
  | .object entries => keys (entries.map Prod.fst) && everyEntry entries

def everyItem : List (Json ν) → Bool
  | [] => true
  | item :: items => every item && everyItem items

def everyEntry : List (List UInt8 × Json ν) → Bool
  | [] => true
  | (_, value) :: entries => every value && everyEntry entries

end

@[simp] theorem every_array (items : List (Json ν)) :
    every string keys (.array items) = items.all (every string keys) := by
  rw [every]
  induction items with
  | nil => rfl
  | cons item items ih => rw [everyItem, ih, List.all_cons]

@[simp] theorem every_object (entries : List (List UInt8 × Json ν)) :
    every string keys (.object entries) =
      (keys (entries.map Prod.fst) && entries.all fun entry => every string keys entry.2) := by
  rw [every]
  congr 1
  induction entries with
  | nil => rfl
  | cons entry entries ih =>
    obtain ⟨key, value⟩ := entry
    rw [everyEntry, ih, List.all_cons]

end Every

/-- All strings and keys of the value are well formed. -/
def stringsAre (utf8 : List UInt8 → Bool) (value : Json ν) : Bool :=
  value.every utf8 fun keys => keys.all utf8

/-- The keys of every object of the value are in their order, each but once. -/
def ordered (value : Json ν) : Bool :=
  value.every (fun _ => true) fun keys => decide (keys.Pairwise fun a b => compare a b = .lt)

/-! ### The objects of maps -/

/-- The object of a map. -/
def ofMap (map : Std.TreeMap (List UInt8) (Json ν)) : Json ν := .object map.toList

/-- Objects of maps: **two maps with the same object have the same entries**. -/
theorem getElem?_of_ofMap {first second : Std.TreeMap (List UInt8) (Json ν)}
    (same : ofMap first = ofMap second) (key : List UInt8) : first[key]? = second[key]? := by
  have lists : first.toList = second.toList := by
    simpa [ofMap] using same
  have entries : ∀ value, first[key]? = some value ↔ second[key]? = some value := by
    intro value
    rw [← Std.TreeMap.mem_toList_iff_getElem?_eq_some, lists,
      Std.TreeMap.mem_toList_iff_getElem?_eq_some]
  exact Option.ext entries

theorem stringsAre_ofMap (utf8 : List UInt8 → Bool) (map : Std.TreeMap (List UInt8) (Json ν)) :
    (ofMap map).stringsAre utf8 = true ↔
      ∀ (key : List UInt8) (value : Json ν), map[key]? = some value →
        utf8 key = true ∧ value.stringsAre utf8 = true := by
  simp only [stringsAre, ofMap, every_object, Bool.and_eq_true, List.all_eq_true,
    List.forall_mem_map, Prod.forall, Std.TreeMap.mem_toList_iff_getElem?_eq_some]
  constructor
  · rintro ⟨keys, values⟩ key value found
    exact ⟨keys key value found, values key value found⟩
  · intro all
    exact ⟨fun key value found => (all key value found).1,
      fun key value found => (all key value found).2⟩

theorem ordered_ofMap {map : Std.TreeMap (List UInt8) (Json ν)}
    (values : ∀ (key : List UInt8) (value : Json ν), map[key]? = some value →
      value.ordered = true) : (ofMap map).ordered = true := by
  simp only [ordered, ofMap, every_object, Bool.and_eq_true, List.all_eq_true, decide_eq_true_eq,
    Prod.forall, Std.TreeMap.mem_toList_iff_getElem?_eq_some, List.pairwise_map]
  exact ⟨Std.TreeMap.ordered_keys_toList, values⟩

/-! ### Looking into a value -/

/-- The value of an object under a key. -/
def field (value : Json ν) (key : List UInt8) : Option (Json ν) :=
  match value with
  | .object entries => entries.lookup key
  | _ => none

/-- The value at a path of keys. -/
def find : Json ν → List (List UInt8) → Option (Json ν)
  | value, [] => some value
  | value, key :: path => (value.field key).bind fun inner => inner.find path

theorem field_ofMap (map : Std.TreeMap (List UInt8) (Json ν)) (key : List UInt8) :
    (ofMap map).field key = map[key]? := by
  have distinct : map.toList.Pairwise fun a b => a.1 ≠ b.1 :=
    Std.TreeMap.ordered_keys_toList.imp fun {a b} before same => by
      rw [same, Std.ReflOrd.compare_self] at before
      cases before
  refine Option.ext fun value => ?_
  rw [← Std.TreeMap.mem_toList_iff_getElem?_eq_some]
  show map.toList.lookup key = some value ↔ _
  rw [List.lookup_eq_some_iff]
  constructor
  · rintro ⟨before, rest, same, _⟩
    rw [same]
    simp
  · intro member
    obtain ⟨before, rest, same⟩ := List.append_of_mem member
    refine ⟨before, rest, same, fun entry earlier => bne_iff_ne.mpr fun equal => ?_⟩
    rw [same, List.pairwise_append] at distinct
    exact distinct.2.2 entry earlier (key, value) List.mem_cons_self equal.symm

end Json

/-! ### Codecs -/

/-- The white space of JSON. -/
def Json.isSpace (byte : UInt8) : Bool :=
  byte == 0x20 || byte == 0x09 || byte == 0x0A || byte == 0x0D

/-- What may be relied on of a codec that works with the strings `utf8` accepts. -/
structure JsonCodec (ν : Type) where
  ofInt : Int → ν
  utf8 : List UInt8 → Bool
  /-- The value a text stands for, if it is a JSON text. -/
  parse : List UInt8 → Option (Json ν)
  /-- The text of a value, if all of its strings are well formed. -/
  dump : Json ν → Option (List UInt8)
  utf8_of_ascii : ∀ text, (∀ byte ∈ text, byte < 0x80) → utf8 text = true
  dump_isSome : ∀ value, (dump value).isSome = value.stringsAre utf8
  parse_of_dump : ∀ value text, value.ordered = true → dump value = some text →
    parse text = some value
  clean_of_parse : ∀ text value, parse text = some value →
    value.ordered = true ∧ value.stringsAre utf8 = true
  /-- An object starts with a key in double quotes, or is empty. -/
  object_start : ∀ byte rest, byte ≠ 0x22 → byte ≠ 0x7D → Json.isSpace byte = false →
    parse (0x7B :: byte :: rest) = none
  /-- A text that starts with `n` goes on as in `null`. -/
  null_start : ∀ byte rest, byte ≠ 0x75 → parse (0x6E :: byte :: rest) = none

namespace JsonCodec

variable {ν : Type} (codec : JsonCodec ν)

/-- A value the codec writes and reads back. -/
structure Clean (value : Json ν) : Prop where
  ordered : value.ordered = true
  strings : value.stringsAre codec.utf8 = true

/-- A clean value is written, and reads back. -/
theorem exists_dump {value : Json ν} (clean : codec.Clean value) :
    ∃ text, codec.dump value = some text ∧ codec.parse text = some value := by
  obtain ⟨text, written⟩ : ∃ text, codec.dump value = some text := by
    rw [← Option.isSome_iff_exists, codec.dump_isSome]
    exact clean.strings
  exact ⟨text, written, codec.parse_of_dump value text clean.ordered written⟩

theorem clean_parsed {text : List UInt8} {value : Json ν} (read : codec.parse text = some value) :
    codec.Clean value :=
  ⟨(codec.clean_of_parse text value read).1, (codec.clean_of_parse text value read).2⟩

theorem clean_null : codec.Clean .null := ⟨rfl, rfl⟩

theorem clean_number (value : ν) : codec.Clean (.number value) := ⟨rfl, rfl⟩

theorem clean_string {text : List UInt8} (wellFormed : codec.utf8 text = true) :
    codec.Clean (.string text) := ⟨rfl, wellFormed⟩

theorem clean_array {items : List (Json ν)} (each : ∀ item ∈ items, codec.Clean item) :
    codec.Clean (.array items) := by
  constructor
  · rw [Json.ordered, Json.every_array, List.all_eq_true]
    exact fun item member => (each item member).ordered
  · rw [Json.stringsAre, Json.every_array, List.all_eq_true]
    exact fun item member => (each item member).strings

/-- A map of clean values under well-formed keys. -/
def CleanMap (map : Std.TreeMap (List UInt8) (Json ν)) : Prop :=
  ∀ (key : List UInt8) (value : Json ν), map[key]? = some value →
    codec.utf8 key = true ∧ codec.Clean value

theorem clean_ofMap {map : Std.TreeMap (List UInt8) (Json ν)} (entries : codec.CleanMap map) :
    codec.Clean (.ofMap map) :=
  ⟨Json.ordered_ofMap fun key value found => (entries key value found).2.ordered,
    (Json.stringsAre_ofMap codec.utf8 map).mpr fun key value found =>
      ⟨(entries key value found).1, (entries key value found).2.strings⟩⟩

end JsonCodec
