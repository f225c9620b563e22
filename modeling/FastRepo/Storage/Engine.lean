/-
The storage engine: put, get, read and the key scan.

`StorageEngineImpl` embeds the class of that name, `StorageEngine` its public wrapper. RocksDB is a
map from keys to values in bytewise key order: `Put` and `Get` are the map operations, and an
iterator runs through the ordered list of its entries.

The database handle is open from the constructor of the engine to its destructor, so the checks for
a closed database have no branch here.
-/

import FastRepo.Lib.PrefixRun
import FastRepo.Ndn.Packet
import FastRepo.Storage.NameTrie

namespace FastRepo

/-- A RocksDB database. -/
abbrev Db := Std.TreeMap Bytes Bytes

/-- `StorageEngineImpl::Stats`. -/
structure Stats where
  nKeys : Nat := 0
  valueSizeBytes : Nat := 0
deriving DecidableEq, Repr

/-- `StorageEngineImpl`. An empty `renamePrefix` means that packets keep their names. -/
structure StorageEngineImpl where
  db : Db := ∅
  renamePrefix : Bytes := []
  keysTrie : NameTrie := {}
  stats : Stats := {}

namespace StorageEngineImpl

variable (ndn : NdnCpp)

/-! ### Writing -/

/-- The packet `put` makes of a packet under a rename prefix: the same meta info and content under
the longer name, with a phony signature. -/
def renamedData (engine : StorageEngineImpl) (data : Data) : Data where
  name := ndn.uri.ofUri engine.renamePrefix ++ data.name
  metaInfo := data.metaInfo
  content := data.content
  signature := digestSha256Signature (List.replicate sha256DigestSize 0)

/-- `StorageEngineImpl::put`. The flag says whether the write of the database succeeds; a failed
write changes nothing and is answered by the empty name. -/
def put (engine : StorageEngineImpl) (data : Data) (ok : Bool) : StorageEngineImpl × Name :=
  if engine.renamePrefix ≠ [] then
    let d := engine.renamedData ndn data
    if ok then
      ({ engine with db := engine.db.insert (ndn.uri.toUri d.name) (ndn.wire.wireEncode d) },
        d.name)
    else (engine, [])
  else
    if ok then
      ({ engine with
          db := engine.db.insert (ndn.uri.toUri data.name) (ndn.wire.wireEncode data) },
        data.name)
    else (engine, [])

/-! ### Reading -/

/-- `StorageEngineImpl::get`: the packet stored under the URI of a name, if there is one. -/
def get (engine : StorageEngineImpl) (dataName : Name) : Except Exn (Option Data) :=
  match engine.db[ndn.uri.toUri dataName]? with
  | none => .ok none
  | some value =>
    match ndn.wire.wireDecode value with
    | some data => .ok (some data)
    | none => .error (.other "wireDecode")

/-- The number of components of a key beyond the Interest name. The `size_t` difference is stored
in an `int`, which takes a wrapped difference back to the signed one. -/
def nSuffixComponents (keyName : Name) (interest : Interest) : Int :=
  keyName.length - interest.name.length

/-- The selector check of the read loop: with a selector set, a key passes when it meets the
maximum that is set or the minimum that is set. -/
def passCheck (interest : Interest) (keyName : Name) : Bool :=
  let checkMaxSuffixComponents := interest.maxSuffixComponents != -1
  let checkMinSuffixComponents := interest.minSuffixComponents != -1
  if checkMaxSuffixComponents || checkMinSuffixComponents then
    (checkMaxSuffixComponents &&
        nSuffixComponents keyName interest ≤ interest.maxSuffixComponents) ||
      (checkMinSuffixComponents &&
        interest.minSuffixComponents ≤ nSuffixComponents keyName interest)
  else true

/-- The loop of `read` from an iterator position: while the keys start with the URI of the Interest
name, keep the last one that passes the selector check. -/
def readLoop (interest : Interest) : List (Bytes × Bytes) → Bytes → Bytes
  | [], key => key
  | entry :: rest, key =>
    if PrefixRun.startsWith (ndn.uri.toUri interest.name) entry then
      readLoop interest rest
        (if passCheck interest (ndn.uri.ofUri entry.1) then entry.1 else key)
    else key

/-- `StorageEngineImpl::read`. -/
def read (engine : StorageEngineImpl) (interest : Interest) : Except Exn (Option Data) :=
  if interest.canBePrefix then
    let start := PrefixRun.seek (ndn.uri.toUri interest.name) engine.db.toList
    let key := readLoop ndn interest start []
    if key ≠ [] then engine.get ndn (ndn.uri.ofUri key) else .ok none
  else engine.get ndn interest.name

/-! ### The key scan -/

/-- `StorageEngineImpl::buildKeyTrie`: add every key to the trie and count keys and value bytes
from zero. -/
def buildKeyTrie (engine : StorageEngineImpl) : StorageEngineImpl :=
  { engine with
    keysTrie := engine.db.toList.foldl (fun trie entry => trie.insert entry.1) engine.keysTrie
    stats := engine.db.toList.foldl
      (fun stats entry => ⟨stats.nKeys + 1, stats.valueSizeBytes + entry.2.length⟩) {} }

/-- `StorageEngineImpl::getLongestPrefixes`: the engine after the scan, and the prefixes handed to
the completion callback. -/
def getLongestPrefixes (engine : StorageEngineImpl) : StorageEngineImpl × List Name :=
  (engine.buildKeyTrie, engine.buildKeyTrie.keysTrie.getLongestPrefixes ndn.uri)

end StorageEngineImpl

/-! ### The public wrapper -/

/-- `StorageEngine`: the implementation, and the names its `afterDataInsertion` signal was raised
with. -/
structure StorageEngine where
  pimpl : StorageEngineImpl := {}
  afterDataInsertion : List Name := []

namespace StorageEngine

variable (ndn : NdnCpp)

/-- A fresh engine on an empty database. -/
def opened (renamePrefix : Bytes) : StorageEngine := { pimpl := { renamePrefix := renamePrefix } }

/-- Both overloads of `StorageEngine::put`. -/
def put (engine : StorageEngine) (data : Data) (ok : Bool) : StorageEngine × Name :=
  let result := engine.pimpl.put ndn data ok
  ({ pimpl := result.1, afterDataInsertion := engine.afterDataInsertion ++ [data.name] }, result.2)

/-- `StorageEngine::get`. -/
def get (engine : StorageEngine) (dataName : Name) : Except Exn (Option Data) :=
  engine.pimpl.get ndn dataName

/-- `StorageEngine::read`. -/
def read (engine : StorageEngine) (interest : Interest) : Except Exn (Option Data) :=
  engine.pimpl.read ndn interest

/-- `StorageEngine::scanForLongestPrefixes`. -/
def scanForLongestPrefixes (engine : StorageEngine) : StorageEngine × List Name :=
  let result := engine.pimpl.getLongestPrefixes ndn
  ({ engine with pimpl := result.1 }, result.2)

/-- The engine after a sequence of successful puts. -/
def putAll (engine : StorageEngine) (packets : List Data) : StorageEngine :=
  packets.foldl (fun current data => (current.put ndn data true).1) engine

end StorageEngine

end FastRepo
