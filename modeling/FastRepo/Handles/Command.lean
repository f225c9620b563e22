/-
Command Interests and their replies.

A command carries its parameter in the name component after the command prefix, as a protobuf
message in TLV encoding. The codec comes from the NDN library and from the message definitions; it
enters here through `Platform`, with everything else a build of the repository links.
-/

import FastRepo.Ndn.Packet
import FastRepo.Storage.Engine

namespace FastRepo

/-! ### Messages -/

/-- `RepoCommandParameter`: the components of its name. The commands that are handled read no other
field. -/
structure RepoCommandParameter where
  name : List Bytes := []
deriving DecidableEq, Repr

/-- `RepoCommandResponse`: the fields the handles set. -/
structure RepoCommandResponse where
  processId : UInt64 := 0
  statusCode : UInt64 := 0
  insertNum : UInt64 := 0
deriving DecidableEq, Repr

/-- The libraries a build of the repository links. -/
structure Platform where
  ndn : NdnCpp
  /-- `ProtobufTlv::decode` of a `RepoCommandParameterMessage`. -/
  decodeParameter : Bytes → Except Exn RepoCommandParameter
  /-- `ProtobufTlv::decode` of a `RepoCommandParameterMessage_Name`. -/
  decodeName : Bytes → Except Exn (List Bytes)
  /-- `ProtobufTlv::encode` of a `RepoCommandResponseMessage`. -/
  encodeResponse : RepoCommandResponse → Bytes
  /-- The signature `KeyChain::sign` sets. -/
  sign : Data → Signature
  /-- `HAVE_LIBNDNRTC`. -/
  haveLibNdnrtc : Bool
  /-- `HAVE_LIBCNL_CPP`. -/
  haveLibCnlCpp : Bool
  /-- `NameComponents::nameApiVersion`. -/
  nameApiVersion : Nat
  /-- `NameComponents::extractInfo` recognises the name as the name of a stream. -/
  extractInfo : Name → Bool

/-! ### Reading commands and making replies -/

namespace BaseHandle

variable (platform : Platform)

/-- `BaseHandle::extractParameter`. `Name::get` throws when the component is missing. -/
def extractParameter (interest : Interest) (cmdPrefix : Name) :
    Except Exn RepoCommandParameter :=
  match interest.name[cmdPrefix.length]? with
  | none => .error (.runtimeError "Name.get: Index is out of bounds")
  | some component => platform.decodeParameter component.value

/-- The packet `BaseHandle::reply` makes, before it is signed. -/
def unsignedReply (interest : Interest) (response : RepoCommandResponse) : Data :=
  { name := interest.name, content := platform.encodeResponse response }

/-- The packet `BaseHandle::reply` sends. -/
def replyPacket (interest : Interest) (response : RepoCommandResponse) : Data :=
  { unsignedReply platform interest response with
    signature := platform.sign (unsignedReply platform interest response) }

/-- The response `negativeReply` sends: a status code and nothing else. -/
def statusOnly (statusCode : UInt64) : RepoCommandResponse := { statusCode := statusCode }

end BaseHandle

end FastRepo
