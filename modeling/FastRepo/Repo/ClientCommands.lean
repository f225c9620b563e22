/-
The commands of the example clients.

`pattern-fetch.cpp` asks the repo to fetch a name, `pattern-cancel.cpp` asks it to stop. The first
encodes the name as a message of its own and nests it, as a byte string, in the second component of
the parameter; the second places the components of the name in the parameter as they are.
`commandsAgree` says that the repo reads the same fetch prefix from both, for every name, so that a
cancel undoes the fetch of its name and touches no other.

`ProtobufTlv::encode` comes from the NDN library: `ClientCodec` holds it with the fact that decoding
inverts it.
-/

import FastRepo.Repo.PatternProtocol

namespace FastRepo

open Exits FastRepoImpl PatternHandle PatternProtocol

/-! ### The clients -/

/-- `ProtobufTlv::encode` of the two messages the clients build. -/
structure ClientCodec (platform : Platform) where
  encodeParameter : RepoCommandParameter → Bytes
  encodeName : List Bytes → Bytes
  decodeParameter_encodeParameter : ∀ parameter,
    platform.decodeParameter (encodeParameter parameter) = .ok parameter
  decodeName_encodeName : ∀ components, platform.decodeName (encodeName components) = .ok components

variable {platform : Platform}

namespace ClientCodec

variable (codec : ClientCodec platform)

/-- The parameter `pattern-fetch.cpp` makes: the pattern name and the fetch name, each a message of
its own. -/
def fetchParameter (patternName : Bytes) (fetchName : Name) : RepoCommandParameter where
  name := [codec.encodeName [patternName], codec.encodeName (fetchName.map Component.value)]

/-- The parameter `pattern-cancel.cpp` makes: the components of the fetch name. -/
def cancelParameter (fetchName : Name) : RepoCommandParameter where
  name := fetchName.map Component.value

/-- The command Interest: the verb and the parameter after the command prefix, and what
`makeCommandInterest` appends. -/
def commandInterest (repoCommandPrefix : Name) (verb : String) (parameter : RepoCommandParameter)
    (signature : Name) : Interest where
  name := repoCommandPrefix ++
    [.generic (ascii verb), .generic (codec.encodeParameter parameter)] ++ signature

/-- `requestInsert` of `pattern-fetch.cpp`. -/
def fetchInterest (repoCommandPrefix : Name) (patternName : Bytes) (fetchName signature : Name) :
    Interest :=
  codec.commandInterest repoCommandPrefix "pattern" (codec.fetchParameter patternName fetchName)
    signature

/-- `requestInsert` of `pattern-cancel.cpp`. -/
def cancelInterest (repoCommandPrefix fetchName signature : Name) : Interest :=
  codec.commandInterest repoCommandPrefix "cancel" (cancelParameter fetchName) signature

end ClientCodec

/-- The prefix of the filter the repo sets for a verb under a command prefix. -/
def filterPrefix (repoCommandPrefix : Name) (verb : String) : Name :=
  repoCommandPrefix ++ [.generic (ascii verb)]

/-- The fetch prefix the repo keeps for a name: the same values, as generic components. -/
def fetchPrefixOf (fetchName : Name) : Name := fetchName.map fun component => .generic component.value

theorem fetchPrefixOf_eq (fetchName : Name) :
    fetchPrefixOf fetchName = (fetchName.map Component.value).map .generic := by
  rw [List.map_map]
  rfl

theorem values_fetchPrefixOf (fetchName : Name) :
    (fetchPrefixOf fetchName).map Component.value = fetchName.map Component.value := by
  rw [fetchPrefixOf, List.map_map]
  rfl

/-- Names with different values have different fetch prefixes. -/
theorem fetchPrefixOf_ne {first second : Name}
    (differ : first.map Component.value ≠ second.map Component.value) :
    fetchPrefixOf first ≠ fetchPrefixOf second := by
  intro same
  rw [← values_fetchPrefixOf first, ← values_fetchPrefixOf second, same] at differ
  exact differ rfl

/-! ### What the repo reads -/

section Reads

variable (codec : ClientCodec platform)

theorem extractParameter_commandInterest (repoCommandPrefix : Name) (verb : String)
    (parameter : RepoCommandParameter) (signature : Name) :
    BaseHandle.extractParameter platform
        (codec.commandInterest repoCommandPrefix verb parameter signature)
        (filterPrefix repoCommandPrefix verb) = .ok parameter := by
  have component : (codec.commandInterest repoCommandPrefix verb parameter
      signature).name[(filterPrefix repoCommandPrefix verb).length]? =
        some (.generic (codec.encodeParameter parameter)) := by
    simp [ClientCodec.commandInterest, filterPrefix]
  rw [BaseHandle.extractParameter, component]
  exact codec.decodeParameter_encodeParameter parameter

theorem decodeString_encodeName (components : List Bytes) :
    decodeString platform (codec.encodeName components) = .ok (components.map .generic) := by
  rw [decodeString, codec.decodeName_encodeName]
  rfl

theorem decodeNames_fetchParameter (patternName : Bytes) (fetchName : Name) :
    decodeNames platform (codec.fetchParameter patternName fetchName).name =
      some ([.generic patternName], fetchPrefixOf fetchName) := by
  show decodeNames platform
    [codec.encodeName [patternName], codec.encodeName (fetchName.map Component.value)] = _
  simp only [decodeNames, decodeString_encodeName]
  rw [fetchPrefixOf_eq, List.map_singleton]

theorem asksFor_fetchInterest (repoCommandPrefix : Name) (patternName : Bytes)
    (fetchName signature : Name) :
    asksFor platform (codec.fetchInterest repoCommandPrefix patternName fetchName signature)
        (filterPrefix repoCommandPrefix "pattern") =
      some (fetchPrefixOf fetchName, PatternFactory.create platform [.generic patternName]) := by
  rw [asksFor, ClientCodec.fetchInterest, extractParameter_commandInterest codec]
  simp only [decodeNames_fetchParameter, Option.map_some]

theorem cancelsFor_cancelInterest (repoCommandPrefix fetchName signature : Name) :
    cancelsFor platform (codec.cancelInterest repoCommandPrefix fetchName signature)
        (filterPrefix repoCommandPrefix "cancel") = some (fetchPrefixOf fetchName) := by
  rw [cancelsFor, ClientCodec.cancelInterest, extractParameter_commandInterest codec]
  exact congrArg some (fetchPrefixOf_eq fetchName).symm

end Reads

/-! ### A fetch and its cancel -/

section Undo

variable (codec : ClientCodec platform) (repoCommandPrefix : Name)

/-- A fetch command for a supported pattern and a free fetch prefix is answered with 100. -/
theorem onInterest_fetchInterest {outcomes : Outcomes} (quiet : outcomes.Quiet)
    {patternName : Bytes} {kind : PatternKind}
    (known : PatternFactory.create platform [.generic patternName] = some kind)
    (fetchName signature : Name) {repo : FastRepoImpl}
    (absent : repo.patterns[fetchPrefixOf fetchName]? = none) :
    onInterest platform outcomes
        (codec.fetchInterest repoCommandPrefix patternName fetchName signature)
        (filterPrefix repoCommandPrefix "pattern") repo =
      .ok () ((PatternHandle.started platform outcomes repo kind (fetchPrefixOf fetchName)).replied
        platform (codec.fetchInterest repoCommandPrefix patternName fetchName signature)
        (BaseHandle.statusOnly 100)) := by
  have asks := asksFor_fetchInterest codec repoCommandPrefix patternName fetchName signature
  rw [known] at asks
  rw [onInterest_known platform outcomes asks absent, bind_apply,
    startPattern_quiet platform repo quiet]
  exact BaseHandle.reply_quiet platform quiet _ _ _

/-- A cancel command for a fetch prefix with an entry is answered with 101. -/
theorem onCancelRequest_cancelInterest {outcomes : Outcomes} (quiet : outcomes.Quiet)
    (fetchName signature : Name) {repo : FastRepoImpl} {instanceId : InstanceId}
    (found : repo.patterns[fetchPrefixOf fetchName]? = some instanceId) :
    onCancelRequest platform outcomes (codec.cancelInterest repoCommandPrefix fetchName signature)
        (filterPrefix repoCommandPrefix "cancel") repo =
      .ok () ((PatternHandle.ended repo (fetchPrefixOf fetchName) instanceId).replied platform
        (codec.cancelInterest repoCommandPrefix fetchName signature)
        (BaseHandle.statusOnly 101)) := by
  rw [onCancelRequest_found platform outcomes
      (cancelsFor_cancelInterest codec repoCommandPrefix fetchName signature) found, bind_apply,
    cancelPattern_quiet quiet]
  exact BaseHandle.reply_quiet platform quiet _ _ _

/-- A cancel command leaves the entries of the other fetch prefixes alone, whatever the libraries
do. -/
theorem patterns_cancelInterest (outcomes : Outcomes) (fetchName signature : Name)
    (repo : FastRepoImpl) {other : Name} (different : other ≠ fetchPrefixOf fetchName) :
    (final (onCancelRequest platform outcomes
        (codec.cancelInterest repoCommandPrefix fetchName signature)
        (filterPrefix repoCommandPrefix "cancel")) repo).patterns[other]? =
      repo.patterns[other]? := by
  have asks := cancelsFor_cancelInterest codec repoCommandPrefix fetchName signature
  have replies : ∀ code, Frames FastRepoImpl.patterns (BaseHandle.negativeReply platform outcomes
      (codec.cancelInterest repoCommandPrefix fetchName signature) code) := fun code =>
    frames_reply (fun _ _ => rfl) outcomes _ _
  rw [final_congr (onCancelRequest_apply platform outcomes asks)]
  split
  · rw [replies 402 repo]
  · rename_i instanceId found
    rw [part_final_bind _ (fun _ => replies 101)]
    rcases cancelPattern_cases outcomes repo (fetchPrefixOf fetchName) instanceId with
      returned | ⟨exn, stream, threw, _⟩
    · rw [final_of_ok returned, ended_patterns, Lookup.getElem?_erase, if_neg different]
    · rw [final_of_error threw]

/-- What the commands of the two clients have to do with each other. -/
structure CommandsAgree : Prop where
  /-- The repo reads the same fetch prefix from both commands. -/
  decoded : ∀ (patternName : Bytes) (fetchName fetchSignature cancelSignature : Name),
    ∃ fetchParameter cancelParameter patternName' fetchPrefix,
      BaseHandle.extractParameter platform
          (codec.fetchInterest repoCommandPrefix patternName fetchName fetchSignature)
          (filterPrefix repoCommandPrefix "pattern") = .ok fetchParameter ∧
        decodeNames platform fetchParameter.name = some (patternName', fetchPrefix) ∧
      BaseHandle.extractParameter platform
          (codec.cancelInterest repoCommandPrefix fetchName cancelSignature)
          (filterPrefix repoCommandPrefix "cancel") = .ok cancelParameter ∧
        cancelParameter.name.map .generic = fetchPrefix
  /-- A fetch and a cancel after it, with no callee throwing, are answered with 100 and 101, and
  leave the entries as they were. -/
  undone : ∀ (patternName : Bytes) (fetchName fetchSignature cancelSignature : Name)
    (first second : Outcomes) (repo : FastRepoImpl), first.Quiet → second.Quiet →
    [.generic patternName] ∈ PatternFactory.getSupportedPatterns platform →
    repo.patterns[fetchPrefixOf fetchName]? = none →
    ∃ fetching cancelled : FastRepoImpl,
      onInterest platform first
          (codec.fetchInterest repoCommandPrefix patternName fetchName fetchSignature)
          (filterPrefix repoCommandPrefix "pattern") repo = .ok () fetching ∧
        fetching.face.sent = repo.face.sent ++ [BaseHandle.replyPacket platform
          (codec.fetchInterest repoCommandPrefix patternName fetchName fetchSignature)
          (BaseHandle.statusOnly 100)] ∧
      onCancelRequest platform second
          (codec.cancelInterest repoCommandPrefix fetchName cancelSignature)
          (filterPrefix repoCommandPrefix "cancel") fetching = .ok () cancelled ∧
        cancelled.face.sent = fetching.face.sent ++ [BaseHandle.replyPacket platform
          (codec.cancelInterest repoCommandPrefix fetchName cancelSignature)
          (BaseHandle.statusOnly 101)] ∧
      ∀ fetchPrefix : Name, cancelled.patterns[fetchPrefix]? = repo.patterns[fetchPrefix]?
  /-- A cancel leaves the entry of a name with other values alone, whatever the libraries do. -/
  apart : ∀ (cancelledName otherName signature : Name) (outcomes : Outcomes) (repo : FastRepoImpl),
    cancelledName.map Component.value ≠ otherName.map Component.value →
    (final (onCancelRequest platform outcomes
        (codec.cancelInterest repoCommandPrefix cancelledName signature)
        (filterPrefix repoCommandPrefix "cancel")) repo).patterns[fetchPrefixOf otherName]? =
      repo.patterns[fetchPrefixOf otherName]?

/-- Agreement: **the repo reads the same fetch prefix from the fetch command and the cancel command
of a name, so the second undoes the first and touches no other name**. -/
theorem commandsAgree : CommandsAgree codec repoCommandPrefix := by
  refine ⟨?_, ?_, ?_⟩
  · intro patternName fetchName fetchSignature cancelSignature
    refine ⟨_, _, _, _, extractParameter_commandInterest codec repoCommandPrefix "pattern" _ _,
      decodeNames_fetchParameter codec patternName fetchName,
      extractParameter_commandInterest codec repoCommandPrefix "cancel" _ _, ?_⟩
    exact (fetchPrefixOf_eq fetchName).symm
  · intro patternName fetchName fetchSignature cancelSignature first second repo quietFirst
      quietSecond supported absent
    obtain ⟨kind, known⟩ := Option.isSome_iff_exists.mp
      ((create_isSome_iff platform _).mpr supported)
    obtain ⟨patterns, instances, sent⟩ :=
      patterns_started platform first repo kind (fetchPrefixOf fetchName)
    have started := onInterest_fetchInterest codec repoCommandPrefix quietFirst known fetchName
      fetchSignature absent
    generalize reached : FastRepoImpl.replied platform _ _ _ = fetching at started
    have entries : fetching.patterns =
        repo.patterns.insert (fetchPrefixOf fetchName) repo.instances.length := by
      rw [← reached]
      exact patterns
    have found : fetching.patterns[fetchPrefixOf fetchName]? = some repo.instances.length := by
      rw [entries, Lookup.getElem?_insert, if_pos rfl]
    have object : fetching.instances[repo.instances.length]? =
        some (FetchPattern.fetching platform kind (fetchPrefixOf fetchName)) := by
      rw [← reached]
      show (PatternHandle.started platform first repo kind _).instances[repo.instances.length]? = _
      rw [instances, List.getElem?_concat_length]
    obtain ⟨erased, _, sentBefore⟩ := patterns_ended (fetchPrefixOf fetchName) object
    refine ⟨fetching, _, started, ?_, onCancelRequest_cancelInterest codec repoCommandPrefix
      quietSecond fetchName cancelSignature found, congrArg (· ++ _) sentBefore,
      fun fetchPrefix => ?_⟩
    · rw [← reached]
      exact congrArg (· ++ _) sent
    · show (PatternHandle.ended fetching _ _).patterns[fetchPrefix]? = _
      rw [erased, entries, Lookup.getElem?_erase, Lookup.getElem?_insert]
      split
      · rename_i same
        rw [same, absent]
      · rfl
  · intro cancelledName otherName signature outcomes repo differ
    exact patterns_cancelInterest codec repoCommandPrefix outcomes cancelledName signature repo
      (fetchPrefixOf_ne (Ne.symm differ))

end Undo

/-- The clients with the codec of `tlvPlatform`. -/
def tlvCodec (haveLibNdnrtc haveLibCnlCpp : Bool) :
    ClientCodec (tlvPlatform haveLibNdnrtc haveLibCnlCpp) where
  encodeParameter := CommandTlv.encodeParameter
  encodeName := CommandTlv.encodeName
  decodeParameter_encodeParameter := CommandTlv.decodeParameter_encodeParameter
  decodeName_encodeName := CommandTlv.decodeName_encodeName

/-- A name with an empty component and a null byte. -/
example : asksFor (tlvPlatform false false)
    ((tlvCodec false false).fetchInterest (nameOf ["r"]) (ascii "counter")
      [.generic [], .generic [0]] []) (filterPrefix (nameOf ["r"]) "pattern") =
    some ([.generic [], .generic [0]], some .counter) := by decide

end FastRepo
