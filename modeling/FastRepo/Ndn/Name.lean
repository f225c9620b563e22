/-
Names and their URIs.

An NDN name is a list of components. The database of the repository does not see components: its
keys are the URIs of the names. The NDN library itself is not part of the repository, so its URI
conversion enters as a parameter, `UriScheme`, with the facts the storage engine relies on.

* `UriScheme.toUri_injective`: distinct names have distinct keys.
* `UriScheme.toUri_extends`: a component-wise prefix is a prefix of the URI text. The converse does
  not hold, and much of the development is about that.
-/

import Mathlib.Data.List.Basic
import Mathlib.Data.List.Infix
import Mathlib.Logic.Function.Basic

namespace FastRepo

/-- A `std::string`, or the bytes of a `Blob`. -/
abbrev Bytes := List UInt8

/-- The bytes of an ASCII literal. -/
def ascii (text : String) : Bytes := text.toList.map Char.toUInt8

/-- The separator of a URI. -/
def slash : UInt8 := '/'.toUInt8

/-! ### Names -/

/-- The TLV type of a generic component. -/
def genericType : Nat := 8

/-- A name component: its type and its value. -/
structure Component where
  type : Nat
  value : Bytes
deriving DecidableEq, Repr

/-- The component `Name::append` makes of a string or a blob. -/
def Component.generic (value : Bytes) : Component := ⟨genericType, value⟩

/-- The component is a generic one. -/
def Component.IsGeneric (component : Component) : Prop := component.type = genericType

instance (component : Component) : Decidable component.IsGeneric :=
  inferInstanceAs (Decidable (component.type = genericType))

/-- The canonical order of components, `Component::compare`: by type, then by length, then by the
bytes of the value. -/
def Component.compare : Component → Component → Ordering :=
  compareLex (compareOn Component.type)
    (compareLex (compareOn fun component => component.value.length) (compareOn Component.value))

instance : Ord Component := ⟨Component.compare⟩

instance : Std.TransOrd Component :=
  inferInstanceAs (Std.TransCmp (compareLex (compareOn Component.type)
    (compareLex (compareOn fun component => component.value.length) (compareOn Component.value))))

instance : Std.LawfulEqOrd Component where
  eq_of_compare {first second} same := by
    have parts : Component.compare first second = .eq := same
    simp only [Component.compare, compareLex, Ordering.then_eq_eq, compareOn] at parts
    obtain ⟨types, _, values⟩ := parts
    cases first
    cases second
    rw [Component.mk.injEq]
    exact ⟨Std.LawfulEqOrd.eq_of_compare types, Std.LawfulEqOrd.eq_of_compare values⟩

/-- A name, ordered component by component. `Name::append` is `++`, `Name::size` is `length` and
`p.isPrefixOf(n)` is `p <+: n`. -/
abbrev Name := List Component

/-- The name of the given generic components. -/
def nameOf (components : List String) : Name :=
  components.map fun component => .generic (ascii component)

/-! ### The URI of a name -/

/-- The text `toUri` writes when the components are escaped by `escape`: a slash and the escaped
text for each component, and a lone slash for the empty name. -/
def writeUri (escape : Component → Bytes) : Name → Bytes
  | [] => [slash]
  | first :: rest => (first :: rest).flatMap fun component => slash :: escape component

/-- The pieces of a text between its slashes, without the empty ones. -/
def pieces (text : Bytes) : List Bytes :=
  (text.splitOn slash).filter fun piece => piece.length ≠ 0

theorem writeUri_eq_intercalate (escape : Component → Bytes) (component : Component)
    (rest : Name) : writeUri escape (component :: rest) =
      [slash].intercalate ([] :: (component :: rest).map escape) := by
  induction rest generalizing component with
  | nil => simp [writeUri, List.intercalate]
  | cons other rest ih =>
    have tail := ih other
    simp only [writeUri, List.intercalate, List.flatMap_cons, List.map_cons] at tail ⊢
    simp [tail]

/-- Splitting: **the pieces of a URI are the escaped components of the name**. -/
theorem pieces_writeUri {escape : Component → Bytes} (nonempty : ∀ component, escape component ≠ [])
    (noSlash : ∀ component, slash ∉ escape component) (name : Name) :
    pieces (writeUri escape name) = name.map escape := by
  cases name with
  | nil =>
    show pieces [slash] = []
    decide
  | cons component rest =>
    have separated : ∀ piece ∈ [] :: (component :: rest).map escape, slash ∉ piece := by
      intro piece member
      rcases List.mem_cons.mp member with rfl | member
      · exact List.not_mem_nil
      · obtain ⟨other, _, rfl⟩ := List.mem_map.mp member
        exact noSlash other
    have kept : ∀ piece ∈ (component :: rest).map escape,
        decide (piece.length ≠ 0) = true := by
      intro piece member
      obtain ⟨other, _, rfl⟩ := List.mem_map.mp member
      simpa using nonempty other
    rw [pieces, writeUri_eq_intercalate,
      List.splitOn_intercalate slash separated (List.cons_ne_nil _ _),
      List.filter_cons_of_neg (by simp), List.filter_eq_self.mpr kept]

/-- The URI conversion of the NDN library: `Component::toEscapedString`, `Name::fromEscapedString`
and the constructor `Name(uri)`, with what the storage engine relies on. -/
structure UriScheme where
  escape : Component → Bytes
  fromEscapedString : Bytes → Component
  ofUri : Bytes → Name
  escape_ne_nil : ∀ component, escape component ≠ []
  slash_notMem_escape : ∀ component, slash ∉ escape component
  ascii_escape : ∀ component, ∀ byte ∈ escape component, byte < 0x80
  ofUri_nil : ofUri [] = []
  ofUri_writeUri : ∀ name, ofUri (writeUri escape name) = name
  ofUri_escape : ∀ component, component.IsGeneric → ofUri (escape component) = [component]
  fromEscapedString_escape : ∀ component, component.IsGeneric →
    fromEscapedString (escape component) = component

namespace UriScheme

variable (uri : UriScheme)

/-- The URI of a name, `Name::toUri`. -/
def toUri (name : Name) : Bytes := writeUri uri.escape name

@[simp] theorem toUri_nil : uri.toUri [] = [slash] := rfl

theorem toUri_cons (component : Component) (rest : Name) :
    uri.toUri (component :: rest) =
      slash :: uri.escape component ++ rest.flatMap fun other => slash :: uri.escape other := by
  simp [toUri, writeUri]

@[simp] theorem ofUri_toUri (name : Name) : uri.ofUri (uri.toUri name) = name :=
  uri.ofUri_writeUri name

theorem pieces_toUri (name : Name) : pieces (uri.toUri name) = name.map uri.escape :=
  pieces_writeUri uri.escape_ne_nil uri.slash_notMem_escape name

/-- Injectivity: **distinct names have distinct URIs**. -/
theorem toUri_injective : Function.Injective uri.toUri :=
  Function.LeftInverse.injective uri.ofUri_toUri

theorem escape_injective : Function.Injective uri.escape := by
  intro first second same
  have names : uri.toUri [first] = uri.toUri [second] := by
    simp [toUri_cons, same]
  exact List.head_eq_of_cons_eq (uri.toUri_injective names)

theorem toUri_ne_nil (name : Name) : uri.toUri name ≠ [] := by
  cases name with
  | nil => simp
  | cons component rest => simp [toUri_cons]

theorem ascii_toUri (name : Name) : ∀ byte ∈ uri.toUri name, byte < 0x80 := by
  intro byte member
  cases name with
  | nil =>
    rw [toUri_nil, List.mem_singleton] at member
    rw [member]
    decide
  | cons component rest =>
    obtain ⟨other, _, inside⟩ := List.mem_flatMap.mp member
    rcases List.mem_cons.mp inside with rfl | escaped
    · decide
    · exact uri.ascii_escape other byte escaped

/-- Prefixes: **a component-wise prefix is a prefix of the text**. -/
theorem toUri_extends {p name : Name} (extension : p <+: name) :
    uri.toUri p <+: uri.toUri name := by
  obtain ⟨rest, rfl⟩ := extension
  cases p with
  | nil =>
    cases rest with
    | nil => exact List.prefix_rfl
    | cons component rest => exact ⟨_, by rw [toUri_nil, List.nil_append, toUri_cons]; rfl⟩
  | cons component p =>
    refine ⟨rest.flatMap fun other => slash :: uri.escape other, ?_⟩
    rw [List.cons_append, toUri_cons, toUri_cons, List.flatMap_append, List.append_assoc]

end UriScheme

end FastRepo
