/-
Packets, and what a call can raise.

`Data` and `Interest` carry the fields the repository reads or sets. The wire format of the NDN
library enters as a parameter, `WireFormat`; the storage engine relies on `wireDecode` inverting
`wireEncode` and on nothing else of it.
-/

import FastRepo.Ndn.Name

namespace FastRepo

/-- What can end a call. All but the last are a `std::exception`, and only the first kind is a
`std::runtime_error`; a null pointer that is followed ends the process. -/
inductive Exn where
  | runtimeError (what : String)
  | parseError
  | typeError
  | other (what : String)
  | nullPointer
deriving DecidableEq, Repr

/-- `catch (std::runtime_error&)` takes the exception. -/
def Exn.isRuntimeError : Exn → Bool
  | .runtimeError _ => true
  | _ => false

/-! ### Data -/

/-- The meta info of a Data packet. -/
structure MetaInfo where
  contentType : Nat := 0
  freshnessPeriod : Option Nat := none
  finalBlockId : Option Component := none
deriving DecidableEq, Repr

/-- A signature: the content of its `SignatureInfo` element and the signature bits. -/
structure Signature where
  info : Bytes
  bits : Bytes
deriving DecidableEq, Repr

/-- A Data packet. -/
structure Data where
  name : Name
  metaInfo : MetaInfo := {}
  content : Bytes := []
  signature : Signature := ⟨[], []⟩
deriving DecidableEq, Repr

/-- `ndn_SHA256_DIGEST_SIZE`. -/
def sha256DigestSize : Nat := 32

/-- A `DigestSha256Signature` with the given bits: its `SignatureInfo` holds the signature type 0
alone. -/
def digestSha256Signature (bits : Bytes) : Signature := ⟨[0x1B, 0x01, 0x00], bits⟩

/-- The wire format of Data packets, `Data::wireEncode` and `Data::wireDecode`. A decoding that
fails raises an exception. -/
structure WireFormat where
  wireEncode : Data → Bytes
  wireDecode : Bytes → Option Data
  wireDecode_wireEncode : ∀ data, wireDecode (wireEncode data) = some data

theorem WireFormat.wireEncode_injective (wire : WireFormat) :
    Function.Injective wire.wireEncode := by
  intro first second same
  have decoded := wire.wireDecode_wireEncode first
  rw [same, wire.wireDecode_wireEncode second] at decoded
  exact (Option.some.inj decoded).symm

/-- The parts of the NDN library the storage engine calls. -/
structure NdnCpp where
  uri : UriScheme
  wire : WireFormat

/-! ### Interests -/

/-- An incoming Interest. A suffix selector is unset when it is `-1`. -/
structure Interest where
  name : Name
  canBePrefix : Bool := true
  mustBeFresh : Bool := false
  minSuffixComponents : Int := -1
  maxSuffixComponents : Int := -1
deriving DecidableEq, Repr

end FastRepo
