/-
A protobuf codec for the commands.

Protobuf messages travel as TLV elements, with the field numbers of the message definitions as
element types. `tlvPlatform` is a `Platform` with this codec, the URI text and the wire format
of `ndnTlv`.
-/

import FastRepo.Handles.Command
import FastRepo.Ndn.WireTlv

namespace FastRepo

namespace CommandTlv

open Tlv

/-! ### The field numbers -/

def nameType : Nat := 7
def componentType : Nat := 8
def repoCommandParameterType : Nat := 201
def processIdType : Nat := 206
def repoCommandResponseType : Nat := 207
def statusCodeType : Nat := 208
def insertNumType : Nat := 209

/-! ### Names and parameters -/

def encodeName (components : List Bytes) : Bytes :=
  writeElements (components.map fun component => (componentType, component))

def decodeName (text : Bytes) : Except Exn (List Bytes) :=
  match readElements text with
  | none => .error (.runtimeError "TLV: truncated element")
  | some elements =>
    .ok ((elements.filter fun element => element.1 = componentType).map Prod.snd)

def encodeParameter (parameter : RepoCommandParameter) : Bytes :=
  writeElement (repoCommandParameterType, writeElement (nameType, encodeName parameter.name))

/-- The value of the first element of a type, empty when there is none. -/
def nested (type : Nat) (text : Bytes) : Except Exn Bytes :=
  match readElements text with
  | none => .error (.runtimeError "TLV: truncated element")
  | some elements => .ok ((elements.lookup type).getD [])

def decodeParameter (text : Bytes) : Except Exn RepoCommandParameter :=
  match nested repoCommandParameterType text with
  | .error exn => .error exn
  | .ok parameter =>
    match nested nameType parameter with
    | .error exn => .error exn
    | .ok name => (decodeName name).map fun components => ⟨components⟩

/-- Round trip: **decoding a name inverts encoding it**. -/
theorem decodeName_encodeName (components : List Bytes) :
    decodeName (encodeName components) = .ok components := by
  have kept : (components.map fun component => (componentType, component)).filter
      (fun element => element.1 = componentType) =
      components.map fun component => (componentType, component) := by
    rw [List.filter_eq_self]
    intro element member
    obtain ⟨component, _, rfl⟩ := List.mem_map.mp member
    exact decide_eq_true rfl
  rw [decodeName, encodeName, readElements_writeElements]
  show Except.ok _ = _
  rw [kept, List.map_map]
  congr 1
  exact List.map_id components

theorem nested_writeElement (type : Nat) (value : Bytes) :
    nested type (writeElement (type, value)) = .ok value := by
  have alone : readElements (writeElement (type, value)) = some [(type, value)] := by
    have whole := readElements_writeElements [(type, value)]
    rwa [writeElements, List.flatMap_singleton] at whole
  rw [nested, alone]
  simp

/-- Round trip: **decoding a parameter inverts encoding it**. -/
theorem decodeParameter_encodeParameter (parameter : RepoCommandParameter) :
    decodeParameter (encodeParameter parameter) = .ok parameter := by
  simp only [decodeParameter, encodeParameter, nested_writeElement, decodeName_encodeName]
  rfl

/-! ### Responses -/

/-- A field that is zero is not written. -/
def encodeField (type : Nat) (value : UInt64) : List Element :=
  if value = 0 then [] else [(type, writeNumber value.toNat)]

def encodeResponse (response : RepoCommandResponse) : Bytes :=
  writeElement (repoCommandResponseType, writeElements
    (encodeField processIdType response.processId ++
      encodeField statusCodeType response.statusCode ++
      encodeField insertNumType response.insertNum))

/-- The value of a field, zero when it is not there. -/
def decodeField (type : Nat) (elements : List Element) : UInt64 :=
  (((elements.lookup type).bind readNumber).map fun read => UInt64.ofNat read.1).getD 0

/-- What a response message holds once a text was decoded into it, and the exception that ended the
decoding. -/
def decodeResponse (text : Bytes) : RepoCommandResponse × Option Exn :=
  match nested repoCommandResponseType text with
  | .error exn => ({}, some exn)
  | .ok response =>
    match readElements response with
    | none => ({}, some (.runtimeError "TLV: truncated element"))
    | some elements =>
      (⟨decodeField processIdType elements, decodeField statusCodeType elements,
        decodeField insertNumType elements⟩, none)

theorem decodeField_encodeField (type : Nat) (value : UInt64) (rest : List Element)
    (absent : rest.lookup type = none) :
    decodeField type (encodeField type value ++ rest) = value := by
  unfold encodeField decodeField
  by_cases zero : value = 0
  · simp [zero, absent]
  · have read : readNumber (writeNumber value.toNat) = some (value.toNat, []) := by
      simpa using readNumber_writeNumber value.toNat []
    simp [zero, read]

theorem lookup_encodeField {type other : Nat} (different : type ≠ other) (value : UInt64)
    (rest : List Element) : (encodeField other value ++ rest).lookup type = rest.lookup type := by
  unfold encodeField
  split
  · rfl
  · have apart : (type == other) = false := beq_false_of_ne different
    simp only [List.cons_append, List.nil_append, List.lookup_cons, apart]

theorem decodeField_skip {type other : Nat} (different : type ≠ other) (value : UInt64)
    (rest : List Element) :
    decodeField type (encodeField other value ++ rest) = decodeField type rest := by
  rw [decodeField, lookup_encodeField different, decodeField]

/-- Round trip: **decoding a response inverts encoding it**, and throws nothing. -/
theorem decodeResponse_encodeResponse (response : RepoCommandResponse) :
    decodeResponse (encodeResponse response) = (response, none) := by
  have processId := decodeField_encodeField processIdType response.processId
    (encodeField statusCodeType response.statusCode ++
      (encodeField insertNumType response.insertNum ++ []))
    (by rw [lookup_encodeField (by decide), lookup_encodeField (by decide)]; rfl)
  have statusCode := decodeField_encodeField statusCodeType response.statusCode
    (encodeField insertNumType response.insertNum ++ [])
    (by rw [lookup_encodeField (by decide)]; rfl)
  have insertNum := decodeField_encodeField insertNumType response.insertNum [] rfl
  simp only [decodeResponse, encodeResponse, nested_writeElement, readElements_writeElements]
  rw [← List.append_nil (encodeField insertNumType response.insertNum), List.append_assoc, processId,
    decodeField_skip (by decide), statusCode, decodeField_skip (by decide),
    decodeField_skip (by decide), insertNum]

end CommandTlv

/-- A build with this codec, with or without the optional libraries. A stream name has a component
`ndnrtc`. -/
def tlvPlatform (haveLibNdnrtc haveLibCnlCpp : Bool) : Platform where
  ndn := ndnTlv
  decodeParameter := CommandTlv.decodeParameter
  decodeName := CommandTlv.decodeName
  encodeResponse := CommandTlv.encodeResponse
  sign := fun _ => digestSha256Signature []
  haveLibNdnrtc := haveLibNdnrtc
  haveLibCnlCpp := haveLibCnlCpp
  nameApiVersion := 3
  extractInfo := fun name => decide (Component.generic (ascii "ndnrtc") ∈ name)

/-- A command Interest: the command prefix, the verb, and the encoded parameter. -/
def commandInterest (cmdPrefix : Name) (parameter : RepoCommandParameter) : Interest :=
  { name := cmdPrefix ++ [.generic (CommandTlv.encodeParameter parameter)] }

/-- The parameter of a pattern command: its two components are names of their own, the keyword of
the pattern and the fetch prefix. -/
def patternParameter (keyword : Bytes) (fetchPrefix : List Bytes) : RepoCommandParameter :=
  ⟨[CommandTlv.encodeName [keyword], CommandTlv.encodeName fetchPrefix]⟩

end FastRepo
