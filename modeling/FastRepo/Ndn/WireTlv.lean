/-
A wire format of Data packets.

`wireTlv` is a `WireFormat` in the layout of the NDN packet format: a `Data` element that holds the
name, the meta info, the content, the signature info and the signature bits, each as an element.
-/

import FastRepo.Lib.Tlv
import FastRepo.Ndn.Packet
import FastRepo.Ndn.UriText

namespace FastRepo.WireTlv

open Tlv

/-! ### The element types -/

def dataType : Nat := 6
def nameType : Nat := 7
def metaInfoType : Nat := 20
def contentType : Nat := 21
def signatureInfoType : Nat := 22
def signatureValueType : Nat := 23
def contentTypeType : Nat := 24
def freshnessPeriodType : Nat := 25
def finalBlockIdType : Nat := 26

/-! ### Names -/

def nameElements (name : Name) : List Element :=
  name.map fun component => (component.type, component.value)

def nameOfElements (elements : List Element) : Name :=
  elements.map fun element => ⟨element.1, element.2⟩

theorem nameOfElements_nameElements (name : Name) :
    nameOfElements (nameElements name) = name := by
  rw [nameOfElements, nameElements, List.map_map]
  exact List.map_id name

/-! ### Meta info -/

def metaInfoElements (metaInfo : MetaInfo) : List Element :=
  (if metaInfo.contentType = 0 then []
    else [(contentTypeType, writeNumber metaInfo.contentType)]) ++
  (metaInfo.freshnessPeriod.toList.map fun period => (freshnessPeriodType, writeNumber period)) ++
  metaInfo.finalBlockId.toList.map fun component =>
    (finalBlockIdType, writeElement (component.type, component.value))

/-- The number in the first element of a type. -/
def numberAt (type : Nat) (elements : List Element) : Option Nat :=
  ((elements.lookup type).bind readNumber).map Prod.fst

def metaInfoOfElements (elements : List Element) : MetaInfo where
  contentType := (numberAt contentTypeType elements).getD 0
  freshnessPeriod := numberAt freshnessPeriodType elements
  finalBlockId := ((elements.lookup finalBlockIdType).bind readElement).map fun result =>
    ⟨result.1.1, result.1.2⟩

theorem readNumber_alone (n : Nat) : readNumber (writeNumber n) = some (n, []) := by
  have whole := readNumber_writeNumber n []
  rwa [List.append_nil] at whole

theorem readElement_alone (element : Element) :
    readElement (writeElement element) = some (element, []) := by
  have whole := readElement_writeElement element []
  rwa [List.append_nil] at whole

theorem metaInfoOfElements_metaInfoElements (metaInfo : MetaInfo) :
    metaInfoOfElements (metaInfoElements metaInfo) = metaInfo := by
  obtain ⟨type, freshness, final⟩ := metaInfo
  by_cases blob : type = 0 <;> cases freshness <;> cases final <;>
    simp [metaInfoElements, metaInfoOfElements, numberAt, contentTypeType, freshnessPeriodType,
      finalBlockIdType, List.lookup_cons, blob, readNumber_alone, readElement_alone]

/-! ### Data -/

def dataElements (data : Data) : List Element :=
  [(nameType, writeElements (nameElements data.name)),
    (metaInfoType, writeElements (metaInfoElements data.metaInfo)),
    (contentType, data.content),
    (signatureInfoType, data.signature.info),
    (signatureValueType, data.signature.bits)]

def dataOfElements : List Element → Option Data
  | [(_, name), (_, metaInfo), (_, content), (_, info), (_, bits)] =>
    (readElements name).bind fun nameParts =>
      (readElements metaInfo).map fun metaParts =>
        ⟨nameOfElements nameParts, metaInfoOfElements metaParts, content, ⟨info, bits⟩⟩
  | _ => none

def encode (data : Data) : Bytes := writeElement (dataType, writeElements (dataElements data))

def decode (text : Bytes) : Option Data :=
  (readElement text).bind fun result =>
    if result.1.1 = dataType then (readElements result.1.2).bind dataOfElements else none

theorem dataOfElements_dataElements (data : Data) :
    dataOfElements (dataElements data) = some data := by
  simp only [dataElements, dataOfElements, readElements_writeElements, Option.bind_some,
    Option.map_some, nameOfElements_nameElements, metaInfoOfElements_metaInfoElements]

/-- Round trip: **decoding inverts encoding**. -/
theorem decode_encode (data : Data) : decode (encode data) = some data := by
  rw [decode, encode, readElement_alone, Option.bind_some, if_pos rfl,
    readElements_writeElements, Option.bind_some, dataOfElements_dataElements]

end FastRepo.WireTlv

namespace FastRepo

/-- The wire format in the layout of the NDN packet format. -/
def wireTlv : WireFormat where
  wireEncode := WireTlv.encode
  wireDecode := WireTlv.decode
  wireDecode_wireEncode := WireTlv.decode_encode

/-- The NDN library with the documented URI text and this wire layout. -/
def ndnTlv : NdnCpp := ⟨uriText, wireTlv⟩

end FastRepo
