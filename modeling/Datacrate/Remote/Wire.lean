import Datacrate.Lib.Fallible
import Datacrate.Lib.Fields
import Datacrate.Lib.Usize
import Datacrate.Remote.Manifest

namespace Datacrate.Remote

open Fields

/-- The JSON values of the fields. -/
inductive JsonValue where
  | null
  | number (n : Nat)
  | string (text : String)
  | other
  deriving DecidableEq, Repr

abbrev JsonObject := List (String × JsonValue)

/-- The JSON library reads an object it has written. -/
structure JsonLibrary where
  toVec : JsonObject → Except String Bytes
  fromSlice : Bytes → Except String JsonObject
  roundTrip : ∀ object bytes, toVec object = .ok bytes → fromSlice bytes = .ok object

/-- An option that is written as `null` when there is nothing. -/
def nullable : Option String → JsonValue
  | none => .null
  | some text => .string text

/-- All fields in order. The last six are skipped when there is nothing. -/
def CompletionManifest.table (manifest : CompletionManifest) : List (String × Option JsonValue) :=
  [("schema_version", some (.number manifest.schemaVersion)),
    ("input_key", some (.string manifest.inputKey)),
    ("input_size", some (.number manifest.inputSize.toNat)),
    ("input_e_tag", some (nullable manifest.inputETag)),
    ("input_last_modified", some (.string manifest.inputLastModified)),
    ("row_count", some (.number manifest.rowCount)),
    ("content_digest", some (.string manifest.contentDigest)),
    ("run_id", manifest.runId.map .string),
    ("input_version", manifest.inputVersion.map .string),
    ("output_key", manifest.outputKey.map .string),
    ("output_e_tag", manifest.outputETag.map .string),
    ("output_version", manifest.outputVersion.map .string),
    ("digest_scheme", manifest.digestScheme.map .string)]

def wireNames : List String :=
  ["schema_version", "input_key", "input_size", "input_e_tag", "input_last_modified", "row_count", "content_digest",
    "run_id", "input_version", "output_key", "output_e_tag", "output_version", "digest_scheme"]

structure CompletionManifestWire where
  schemaVersion : UInt32
  inputKey : String
  inputSize : UInt64
  inputETag : Option String
  inputLastModified : String
  rowCount : UInt64
  contentDigest : String
  runId : Option String
  inputVersion : Option String
  outputKey : Option String
  outputETag : Option String
  outputVersion : Option String
  digestScheme : Option String
  deriving DecidableEq, Repr

def CompletionManifest.ofWire (wire : CompletionManifestWire) : CompletionManifest where
  schemaVersion := wire.schemaVersion.toNat
  inputKey := wire.inputKey
  inputSize := wire.inputSize
  inputETag := wire.inputETag
  inputLastModified := wire.inputLastModified
  rowCount := wire.rowCount.toNat
  contentDigest := wire.contentDigest
  runId := wire.runId
  inputVersion := wire.inputVersion
  outputKey := wire.outputKey
  outputETag := wire.outputETag
  outputVersion := wire.outputVersion
  digestScheme := wire.digestScheme

def readString : JsonValue → Option String
  | .string text => some text
  | _ => none

def readU32 : JsonValue → Option UInt32
  | .number n => if n < 2 ^ 32 then some (.ofNat n) else none
  | _ => none

def readU64 : JsonValue → Option UInt64
  | .number n => if n < 2 ^ 64 then some (.ofNat n) else none
  | _ => none

/-- A field that must be there. -/
def requiredField {α : Type} (fields : JsonObject) (name : String) (read : JsonValue → Option α) :
    Except String α :=
  match fields.lookup name with
  | none => .error ("missing field " ++ name)
  | some value => (read value).elim (.error ("invalid type for " ++ name)) .ok

/-- An absent optional field and `null` read as nothing. -/
def optionalField (fields : JsonObject) (name : String) : Except String (Option String) :=
  match fields.lookup name with
  | none | some .null => .ok none
  | some value => (readString value).elim (.error ("invalid type for " ++ name)) fun text => .ok (some text)

/-- Fields are read by their names, and unknown ones are passed over. -/
def readWire (fields : JsonObject) : Except String CompletionManifestWire := do
  if ¬ ((fields.map Prod.fst).filter (· ∈ wireNames)).Nodup then throw "duplicate field"
  let schemaVersion ← requiredField fields "schema_version" readU32
  let inputKey ← requiredField fields "input_key" readString
  let inputSize ← requiredField fields "input_size" readU64
  let inputETag ← optionalField fields "input_e_tag"
  let inputLastModified ← requiredField fields "input_last_modified" readString
  let rowCount ← requiredField fields "row_count" readU64
  let contentDigest ← requiredField fields "content_digest" readString
  let runId ← optionalField fields "run_id"
  let inputVersion ← optionalField fields "input_version"
  let outputKey ← optionalField fields "output_key"
  let outputETag ← optionalField fields "output_e_tag"
  let outputVersion ← optionalField fields "output_version"
  let digestScheme ← optionalField fields "digest_scheme"
  return { schemaVersion, inputKey, inputSize, inputETag, inputLastModified, rowCount, contentDigest, runId,
           inputVersion, outputKey, outputETag, outputVersion, digestScheme }

/-- The numbers are machine words, as those of every value of the source. -/
def CompletionManifest.Sized (manifest : CompletionManifest) : Prop :=
  manifest.schemaVersion < 2 ^ 32 ∧ manifest.rowCount < 2 ^ 64

instance (manifest : CompletionManifest) : Decidable manifest.Sized :=
  inferInstanceAs (Decidable (_ ∧ _))

section Read

variable {manifest : CompletionManifest} {fields : JsonObject} {name : String}

theorem requiredField_ok {α : Type} {read : JsonValue → Option α} {value : JsonValue} {result : α}
    (found : fields.lookup name = some value) (understood : read value = some result) :
    requiredField fields name read = .ok result := by
  rw [requiredField, found]
  dsimp only
  rw [understood]
  rfl

theorem optionalField_map {value : Option String} (found : fields.lookup name = value.map .string) :
    optionalField fields name = .ok value := by
  rw [optionalField, found]
  cases value <;> rfl

theorem optionalField_nullable {value : Option String} (found : fields.lookup name = some (nullable value)) :
    optionalField fields name = .ok value := by
  rw [optionalField, found]
  cases value <;> rfl

theorem lookup_written_table : (written manifest.table).lookup name = (manifest.table.lookup name).join :=
  lookup_written (show wireNames.Nodup by decide)

theorem names_written_table : ((written manifest.table).map Prod.fst).Nodup :=
  (@names_written _ manifest.table).nodup (show wireNames.Nodup by decide)

theorem required_written {α : Type} {read : JsonValue → Option α} {value : JsonValue} {result : α}
    (field : manifest.table.lookup name = some (some value)) (understood : read value = some result) :
    requiredField (written manifest.table) name read = .ok result :=
  requiredField_ok (by rw [lookup_written_table, field, Option.join_some]) understood

theorem optional_written {value : Option String} (field : manifest.table.lookup name = some (value.map .string)) :
    optionalField (written manifest.table) name = .ok value :=
  optionalField_map (by rw [lookup_written_table, field, Option.join_some])

/-- A written record is read back. -/
theorem readWire_written (sized : manifest.Sized) :
    ∃ wire, readWire (written manifest.table) = .ok wire ∧ CompletionManifest.ofWire wire = manifest := by
  have distinct : (((written manifest.table).map Prod.fst).filter (· ∈ wireNames)).Nodup :=
    names_written_table.filter _
  have schemaVersion := @required_written manifest "schema_version" _ readU32 _ _ rfl (if_pos sized.1)
  have inputKey := @required_written manifest "input_key" _ readString _ _ rfl rfl
  have inputSize := @required_written manifest "input_size" _ readU64 _ _ rfl (if_pos (UInt64.toNat_lt _))
  have inputETag : optionalField (written manifest.table) "input_e_tag" = .ok manifest.inputETag :=
    optionalField_nullable lookup_written_table
  have inputLastModified := @required_written manifest "input_last_modified" _ readString _ _ rfl rfl
  have rowCount := @required_written manifest "row_count" _ readU64 _ _ rfl (if_pos sized.2)
  have contentDigest := @required_written manifest "content_digest" _ readString _ _ rfl rfl
  have runId := @optional_written manifest "run_id" _ rfl
  have inputVersion := @optional_written manifest "input_version" _ rfl
  have outputKey := @optional_written manifest "output_key" _ rfl
  have outputETag := @optional_written manifest "output_e_tag" _ rfl
  have outputVersion := @optional_written manifest "output_version" _ rfl
  have digestScheme := @optional_written manifest "digest_scheme" _ rfl
  unfold readWire
  rw [if_neg (not_not.mpr distinct), schemaVersion, inputKey, inputSize, inputETag, inputLastModified, rowCount,
    contentDigest, runId, inputVersion, outputKey, outputETag, outputVersion, digestScheme]
  refine ⟨_, rfl, ?_⟩
  have schemaNumber : (UInt32.ofNat manifest.schemaVersion).toNat = manifest.schemaVersion :=
    UInt32.toNat_ofNat_of_lt sized.1
  have rows : (UInt64.ofNat manifest.rowCount).toNat = manifest.rowCount := UInt64.toNat_ofNat_of_lt sized.2
  have size : UInt64.ofNat manifest.inputSize.toNat = manifest.inputSize := UInt64.ofNat_toNat
  simp only [CompletionManifest.ofWire, schemaNumber, rows, size]

end Read

/-- The formats of the source with this JSON library. A record whose numbers
are no machine words is none of the source's. -/
def Formats.ofJson (encoding : PartEncoding) (json : JsonLibrary) : Formats where
  encoding := encoding
  toVec := fun manifest =>
    if manifest.Sized then json.toVec (written manifest.table) else .error "number out of range"
  fromSlice := fun bytes => do
    let fields ← json.fromSlice bytes
    let wire ← readWire fields
    return .ofWire wire
  roundTrip := by
    intro manifest bytes wrote
    split at wrote
    · rename_i sized
      obtain ⟨wire, read, same⟩ := readWire_written sized
      rw [json.roundTrip _ _ wrote]
      show (readWire (written manifest.table) >>= fun wire => pure (CompletionManifest.ofWire wire)) = .ok manifest
      rw [read, ← same]
      rfl
    · cases wrote

end Datacrate.Remote
