/-
What the comparison of URIs accepts.

The read loop compares texts where names are meant. `toUri_prefix_iff` says which names it takes for
extensions of an Interest name: those that agree with it up to its last component, and have in the
place of that component one whose escaped text begins with it. A name it accepts is therefore never
shorter than the Interest name, and the difference of the sizes, taken as a `size_t`, does not wrap:
`matches_and_sizes`.
-/

import FastRepo.Lib.SeparatedText
import FastRepo.Storage.PrefixLookup

namespace FastRepo

open StorageEngineImpl

/-! ### The names a text comparison accepts -/

/-- The name `k` goes on from `p` as far as the text of the URI shows: it is at least as long, has
the components of `p` but the last, and in the place of the last a component whose escaped text
begins with that of the last. -/
def UriMatches (escape : Component → Bytes) (p k : Name) : Prop :=
  p = [] ∨ p.length ≤ k.length ∧ p.dropLast = k.take (p.length - 1) ∧
    ∃ last ∈ p.getLast?, ∃ other ∈ k[p.length - 1]?, escape last <+: escape other

instance (escape : Component → Bytes) (p k : Name) : Decidable (UriMatches escape p k) :=
  inferInstanceAs (Decidable (_ ∨ _))

section Text

variable {escape : Component → Bytes}

theorem writeUri_eq_separated {n : Name} (nonempty : n ≠ []) :
    writeUri escape n = SeparatedText.separated slash escape n := by
  cases n with
  | nil => exact absurd rfl nonempty
  | cons component rest => rfl

/-- The same condition, read off a split of the two names. -/
theorem uriMatches_concat_iff (front : Name) (last : Component) (k : Name) :
    UriMatches escape (front ++ [last]) k ↔
      ∃ other rest, k = front ++ other :: rest ∧ escape last <+: escape other := by
  have length : (front ++ [last]).length - 1 = front.length := by simp
  constructor
  · rintro (empty | ⟨longer, same, first, isLast, other, found, extension⟩)
    · exact absurd empty (by simp)
    · rw [length] at same found
      rw [List.dropLast_concat] at same
      obtain rfl : last = first := Option.some.inj (List.getLast?_concat.symm.trans isLast)
      obtain ⟨inside, rfl⟩ := List.getElem?_eq_some_iff.mp found
      refine ⟨_, k.drop (front.length + 1), ?_, extension⟩
      calc k = k.take front.length ++ k.drop front.length := (List.take_append_drop _ k).symm
        _ = front ++ k.drop front.length := by rw [← same]
        _ = front ++ k[front.length] :: k.drop (front.length + 1) := by
          rw [List.drop_eq_getElem_cons inside]
  · rintro ⟨other, rest, rfl, extension⟩
    refine Or.inr ⟨?_, ?_, last, List.getLast?_concat, other, ?_, extension⟩
    · simp
    · rw [length, List.dropLast_concat, List.take_left]
    · rw [length, Option.mem_def, List.getElem?_append_right (Nat.le_refl _), Nat.sub_self]
      rfl

/-- A name that matches is not shorter. -/
theorem UriMatches.length_le {p k : Name} (matched : UriMatches escape p k) :
    p.length ≤ k.length := by
  rcases matched with rfl | ⟨longer, _⟩
  · exact Nat.zero_le _
  · exact longer

/-- Texts: **the URI of a name begins with that of another exactly when the names match**, for every
escaping that is injective, writes no slash and leaves no text empty. -/
theorem writeUri_prefix_iff (nonempty : ∀ component, escape component ≠ [])
    (noSlash : ∀ component, slash ∉ escape component) (injective : Function.Injective escape)
    (p k : Name) : writeUri escape p <+: writeUri escape k ↔ UriMatches escape p k := by
  rcases List.eq_nil_or_concat' p with rfl | ⟨front, last, rfl⟩
  · refine iff_of_true ?_ (Or.inl rfl)
    -- every URI begins with a slash, and the empty name has no more
    cases k with
    | nil => exact List.prefix_rfl
    | cons component rest => exact ⟨_, rfl⟩
  · rw [uriMatches_concat_iff, writeUri_eq_separated (by simp)]
    cases k with
    | nil =>
      refine iff_of_false (fun extension => ?_) (by simp)
      -- the lone slash is too short for a component, whose text is not empty
      have text : SeparatedText.separated slash escape (front ++ [last]) <+: [slash] := extension
      have length := text.length_le
      obtain ⟨byte, bytes, written⟩ := List.exists_cons_of_ne_nil (nonempty last)
      simp only [SeparatedText.separated, List.flatMap_append, List.length_append,
        List.flatMap_singleton, List.length_cons, written, List.length_nil] at length
      omega
    | cons component rest =>
      rw [writeUri_eq_separated (List.cons_ne_nil component rest),
        SeparatedText.separated_prefix_iff injective noSlash]

end Text

/-- The URI of `k` starts with the URI of `p` exactly when the names match. -/
theorem UriScheme.toUri_prefix_iff (uri : UriScheme) (p k : Name) :
    uri.toUri p <+: uri.toUri k ↔ UriMatches uri.escape p k :=
  writeUri_prefix_iff uri.escape_ne_nil uri.slash_notMem_escape uri.escape_injective p k

/-- An empty component is written as three periods and begins the text of a component of one period,
which is written as four. -/
example : UriMatches uriText.escape (nameOf ["a", ""]) (nameOf ["a", ".", "b"]) := by decide

/-! ### The keys the loop of `read` visits -/

namespace StorageEngineImpl

variable (ndn : NdnCpp)

/-- The entries the loop of `read` visits: those from the position `Seek` finds on, as long as their
keys start with the URI of the Interest name. -/
def visited (engine : StorageEngineImpl) (interest : Interest) : List (Bytes × Bytes) :=
  (PrefixRun.seek (ndn.uri.toUri interest.name) engine.db.toList).takeWhile
    (PrefixRun.startsWith (ndn.uri.toUri interest.name))

/-- `keyName.size() - prefix.size()`, as the `size_t` it is computed in. -/
def sizeDifference (keyName : Name) (interest : Interest) : UInt64 :=
  UInt64.ofNat keyName.length - UInt64.ofNat interest.name.length

/-- Every key of the database is the URI of a name. -/
def KeysAreUris (engine : StorageEngineImpl) : Prop :=
  ∀ key value, engine.db[key]? = some value → ∃ n, key = ndn.uri.toUri n

/-- A name at least as long as the Interest name: the difference of the sizes is what it should be,
as a `size_t` and as the `int` it is stored in. -/
structure SizesFit (keyName : Name) (interest : Interest) : Prop where
  notShorter : interest.name.length ≤ keyName.length
  unwrapped : sizeDifference keyName interest =
    UInt64.ofNat (keyName.length - interest.name.length)
  suffix : nSuffixComponents keyName interest = (keyName.length - interest.name.length : Nat)

variable {ndn}

/-- The result of the loop depends on the visited entries alone. -/
theorem readLoop_visited (engine : StorageEngineImpl) (interest : Interest) (key : Bytes) :
    readLoop ndn interest (PrefixRun.seek (ndn.uri.toUri interest.name) engine.db.toList) key =
      ((((engine.visited ndn interest).filter fun entry =>
        passCheck interest (ndn.uri.ofUri entry.1)).getLast?).map Prod.fst).getD key :=
  readLoop_eq ndn interest _ key

theorem mem_visited {engine : StorageEngineImpl} {interest : Interest} {entry : Bytes × Bytes} :
    entry ∈ engine.visited ndn interest ↔
      engine.db[entry.1]? = some entry.2 ∧ ndn.uri.toUri interest.name <+: entry.1 := by
  have ordered : PrefixRun.Ordered engine.db.toList := Std.TreeMap.ordered_keys_toList
  rw [visited, PrefixRun.takeWhile_seek _ _ ordered, List.mem_filter, PrefixRun.startsWith,
    List.isPrefixOf_iff_prefix, Std.TreeMap.mem_toList_iff_getElem?_eq_some]

theorem sizesFit_of_le {keyName : Name} {interest : Interest}
    (notShorter : interest.name.length ≤ keyName.length) : SizesFit keyName interest :=
  ⟨notShorter, (UInt64.ofNat_sub notShorter).symm, by unfold nSuffixComponents; omega⟩

/-- In a database of URIs the visited keys are not shorter than the Interest name. -/
theorem sizesFit_of_visited {engine : StorageEngineImpl} (keys : engine.KeysAreUris ndn)
    {interest : Interest} {entry : Bytes × Bytes} (member : entry ∈ engine.visited ndn interest) :
    SizesFit (ndn.uri.ofUri entry.1) interest := by
  obtain ⟨stored, extension⟩ := mem_visited.mp member
  obtain ⟨keyName, same⟩ := keys entry.1 entry.2 stored
  rw [same] at extension ⊢
  rw [ndn.uri.ofUri_toUri]
  exact sizesFit_of_le ((ndn.uri.toUri_prefix_iff _ _).mp extension).length_le

end StorageEngineImpl

namespace StorageEngine

variable (ndn : NdnCpp)

theorem keysAreUris_opened (renamePrefix : Bytes) :
    (opened renamePrefix).pimpl.KeysAreUris ndn := by
  intro key value found
  exact absurd found (by simp [opened])

theorem keysAreUris_put {engine : StorageEngine} (keys : engine.pimpl.KeysAreUris ndn)
    (data : Data) : (engine.put ndn data true).1.pimpl.KeysAreUris ndn := by
  intro key value found
  rw [db_put] at found
  split at found
  · rename_i same
    exact ⟨_, same⟩
  · exact keys key value found

theorem keysAreUris_putAll {engine : StorageEngine} (keys : engine.pimpl.KeysAreUris ndn)
    (packets : List Data) : (engine.putAll ndn packets).pimpl.KeysAreUris ndn := by
  induction packets generalizing engine with
  | nil => exact keys
  | cons data packets ih => exact ih (keysAreUris_put ndn keys data)

/-- The URI match: **a URI starts with the URI of an Interest name exactly when the names agree up
to the last component of the Interest name and the escaped text of the latter begins what is in its
place; and of no key the loop of `read` visits is the name shorter than the Interest name**. The
loop picks the last of the visited keys that pass the check, and looks at no other key. -/
theorem matches_and_sizes {engine : StorageEngine} (keys : engine.pimpl.KeysAreUris ndn)
    (packets : List Data) :
    (∀ p k : Name, ndn.uri.toUri p <+: ndn.uri.toUri k ↔ UriMatches ndn.uri.escape p k) ∧
      ∀ interest : Interest,
        (∀ key, readLoop ndn interest (PrefixRun.seek (ndn.uri.toUri interest.name)
            (engine.putAll ndn packets).pimpl.db.toList) key =
          (((((engine.putAll ndn packets).pimpl.visited ndn interest).filter fun entry =>
            passCheck interest (ndn.uri.ofUri entry.1)).getLast?).map Prod.fst).getD key) ∧
        ∀ entry ∈ (engine.putAll ndn packets).pimpl.visited ndn interest,
          SizesFit (ndn.uri.ofUri entry.1) interest :=
  ⟨ndn.uri.toUri_prefix_iff, fun interest => ⟨readLoop_visited _ interest, fun _ member =>
    sizesFit_of_visited (keysAreUris_putAll ndn keys packets) member⟩⟩

/-- An Interest for `/a` and an empty component visits the key of `/a/.`, whose name is as long, and
not that of `/a/b`. -/
theorem sizes_periods :
    (((opened []).putAll ndnTlv [{ name := nameOf ["a", "."] },
        { name := nameOf ["a", "b"] }]).pimpl.visited ndnTlv { name := nameOf ["a", ""] }).map
      (fun entry => ndnTlv.uri.ofUri entry.1) = [nameOf ["a", "."]] ∧
      SizesFit (nameOf ["a", "."]) { name := nameOf ["a", ""] } := by
  obtain ⟨_, sizes⟩ := matches_and_sizes ndnTlv (keysAreUris_opened ndnTlv [])
    [{ name := nameOf ["a", "."] }, { name := nameOf ["a", "b"] }]
  have names : (((opened []).putAll ndnTlv [{ name := nameOf ["a", "."] },
        { name := nameOf ["a", "b"] }]).pimpl.visited ndnTlv { name := nameOf ["a", ""] }).map
      (fun entry => ndnTlv.uri.ofUri entry.1) = [nameOf ["a", "."]] := by decide
  refine ⟨names, ?_⟩
  have found : nameOf ["a", "."] ∈ _ := names.symm ▸ List.mem_singleton_self (nameOf ["a", "."])
  obtain ⟨entry, visits, same⟩ := List.mem_map.mp found
  exact same ▸ (sizes _).2 entry visits

end StorageEngine

end FastRepo
