import Datacrate.Remote.Snapshot

namespace Datacrate.Remote

open Datacrate.Ingest Interaction

/-- The metadata describes the object. -/
structure Describes (metadata : ObjectMeta) (object : Object) : Prop where
  size : metadata.size.toNat = object.bytes.length
  eTag : metadata.eTag = object.eTag
  version : metadata.version = object.version

/-- The metadata identifies the object, by its version or without one by its
ETag. -/
def Identifies (metadata : ObjectMeta) (object : Object) : Prop :=
  (∃ version, version ≠ "" ∧ metadata.version = some version ∧ object.version = some version) ∨
  ∃ eTag, eTag ≠ "" ∧ object.version.all blank ∧ metadata.eTag = some eTag ∧ object.eTag = some eTag

/-- A store that answers for what it has held. Metadata asked for describes an
object that it has held. A response to a range may be wrong in everything, but
a body of the announced length is the announced range of the object that the
announced metadata identifies. -/
def Promised (s : Reading) : (request : DownloadRequest) → DownloadResponse request → Prop
  | .head key, .ok metadata => ∃ object ∈ s.held key, Describes metadata object
  | .getOpts key options, .ok response =>
    (options.head = true → ∃ object ∈ s.held key, Describes response.metadata object) ∧
      ∀ bytes, response.Arrives bytes → bytes.length = response.range.width →
        ∀ object ∈ s.held key, Identifies response.metadata object → bytes = response.range.of object.bytes
  | _, _ => True

/-- How an honest store responds to a reader. The body of a plain request is
that of the current object. Other responses are about an object that the key
has held. -/
def Honest (site : Site) : (request : DownloadRequest) → DownloadResponse request → Prop
  | .get key, .ok response => ∃ object, site.store.current key = some object ∧
      ∀ bytes, response.Arrives bytes → bytes = object.bytes
  | .head key, .ok metadata => ∃ object ∈ site.store.history key, Describes metadata object
  | .getOpts key _, .ok response => ∃ object ∈ site.store.history key, Describes response.metadata object ∧
      ∀ bytes, response.Arrives bytes → bytes = response.range.of object.bytes
  | _, _ => True

/-- These are the bytes of an object held, which the metadata describes. -/
def Described (key : ObjectPath) (metadata : ObjectMeta) (whole : Bytes) (s : Reading) : Prop :=
  ∃ object ∈ s.held key, Describes metadata object ∧ whole = object.bytes

/-- What matches the identity of the object identifies it. -/
theorem identityMatches_identifies {captured metadata : ObjectMeta} {object : Object}
    (described : Describes captured object) (named : identityOf captured.version captured.eTag ≠ none)
    (same : identityMatches (captured.version.filter (· ≠ "")) (captured.eTag.filter (· ≠ "")) metadata = true) :
    Identifies metadata object := by
  unfold identityMatches at same
  unfold identityOf at named
  rcases usable : captured.version.filter (· ≠ "") with _ | version
  · rcases tagged : captured.eTag.filter (· ≠ "") with _ | eTag
    · rw [usable, tagged] at named
      exact absurd rfl named
    · obtain ⟨here, nonempty⟩ := Option.filter_eq_some_iff.mp tagged
      rw [usable, tagged, decide_eq_true_iff] at same
      refine Or.inr ⟨eTag, by simpa using nonempty, ?_, same, described.eTag ▸ here⟩
      rw [described.version] at usable
      rcases versioned : object.version with _ | version
      · rfl
      · rw [versioned] at usable
        obtain rfl : version = "" := by simpa [Option.filter] using usable
        rfl
  · obtain ⟨here, nonempty⟩ := Option.filter_eq_some_iff.mp usable
    rw [usable, decide_eq_true_iff] at same
    exact Or.inl ⟨version, by simpa using nonempty, same, described.version ▸ here⟩

/-- What is described stays held, and so its bytes stay promised. -/
theorem promised_learns (key : ObjectPath) : Learns Promised key (Described key) where
  head := fun ⟨object, held, described⟩ => ⟨object.bytes, object, held, described, rfl⟩
  later := fun ⟨object, held, described, same⟩ grows => ⟨object, grows key held, described, same⟩
  body := by
    rintro s captured whole options response bytes ⟨object, held, described, rfl⟩ named promised matching arrives length
    exact promised.2 bytes arrives length object held (identityMatches_identifies described named matching)

/-- A download from such a store fetches the object that the metadata
describes. -/
theorem Fetched.described {key : ObjectPath} {dest : String} {captured : ObjectMeta} {whole : Bytes}
    {answered : List (ByteRange × GetResult)} {s : Reading} (fetched : Fetched key dest captured whole answered s)
    (holds : Described key captured whole s) :
    ∃ object ∈ s.held key, Describes captured object ∧ s.files dest = some object.bytes := by
  obtain ⟨object, held, described, rfl⟩ := holds
  refine ⟨object, held, described, ?_⟩
  rw [fetched.file, described.size, List.take_length]

end Datacrate.Remote
