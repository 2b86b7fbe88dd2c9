import Datacrate.Lib.Requests
import Datacrate.Remote.Download
import Datacrate.Remote.Store

namespace Datacrate.Remote

open Datacrate.Ingest Interaction Usize

/-- What a download goes by: a version, or without one an ETag. -/
inductive Identity where
  | version (value : String)
  | eTag (value : String)
  deriving DecidableEq, Repr

/-- An empty version or ETag is none. -/
def identityOf (version eTag : Option String) : Option Identity :=
  match version.filter (· ≠ "") with
  | some value => some (.version value)
  | none => (eTag.filter (· ≠ "")).map .eTag

theorem identityOf_eq_none_iff {version eTag : Option String} :
    identityOf version eTag = none ↔
      ((version.filter (· ≠ "")).isNone && (eTag.filter (· ≠ "")).isNone) = true := by
  unfold identityOf
  rcases version.filter (· ≠ "") with _ | value
  · rcases eTag.filter (· ≠ "") with _ | tag
    · simp
    · simp
  · simp

/-- All pieces of the body arrive, and these are its bytes. -/
def GetResult.Arrives (response : GetResult) (bytes : Bytes) : Prop :=
  ∃ chunks : List Chunk, response.body = chunks.map .ok ∧ bytes = (chunks.map Chunk.bytes).flatten

def ByteRange.width (range : ByteRange) : Nat :=
  range.stop.toNat - range.start.toNat

def ByteRange.of (range : ByteRange) (bytes : Bytes) : Bytes :=
  (bytes.drop range.start.toNat).take range.width

/-- What a download has to do with: the objects the store has held, the local
files, and the ranges that were answered so far. -/
structure Reading where
  held : ObjectPath → List Object
  files : String → Option Bytes
  answers : List (ByteRange × GetResult)

/-- The requests that a download puts once for each range. -/
def DownloadRequest.isRange : DownloadRequest → Bool
  | .getOpts _ _ => true
  | .create _ | .head _ | .get _ | .writeAll _ _ => false

section

variable (s : Reading)

def Reading.write (dest : String) (bytes : Option Bytes) : Reading :=
  { s with files := fun other => if other = dest then bytes else s.files other }

def Reading.answered : Option ByteRange → Except StoreError GetResult → Reading
  | some range, .ok response => { s with answers := s.answers ++ [(range, response)] }
  | _, _ => s

/-- What a request does to the local files. A failed one leaves any contents. -/
def Reading.Follows : (request : DownloadRequest) → DownloadResponse request → Reading → Prop
  | .create dest, .ok (), t => t = s.write dest (some [])
  | .create dest, .error _, t | .writeAll dest _, .error _, t => ∃ bytes, t = s.write dest bytes
  | .writeAll dest chunk, .ok (), t => t = s.write dest ((s.files dest).map (· ++ chunk))
  | .head _, _, t | .get _, _, t => t = s
  | .getOpts _ options, response, t => t = s.answered options.range response

/-- What others do to the store: any object may be replaced at any time. -/
structure Replaces (t : Reading) : Prop where
  held : ∀ key, s.held key ⊆ t.held key
  files : t.files = s.files
  answers : t.answers = s.answers

end

/-- What may follow from a request of a download, of a store that keeps this
promise of its responses. -/
def Serves (promise : Reading → (request : DownloadRequest) → DownloadResponse request → Prop) (s : Reading)
    (request : DownloadRequest) (response : DownloadResponse request) (t : Reading) : Prop :=
  s.Follows request response t ∧ promise s request response

theorem Replaces.refl (s : Reading) : Replaces s s :=
  ⟨fun _ => List.Subset.refl _, rfl, rfl⟩

theorem Replaces.trans {s t u : Reading} (first : Replaces s t) (second : Replaces t u) : Replaces s u where
  held := fun key => List.Subset.trans (first.held key) (second.held key)
  files := second.files.trans first.files
  answers := second.answers.trans first.answers

/-- Steps that touch the local files alone, with what others do meanwhile. -/
structure Keeps (s t : Reading) : Prop where
  held : ∀ key, s.held key ⊆ t.held key
  answers : t.answers = s.answers

theorem Keeps.refl (s : Reading) : Keeps s s :=
  ⟨fun _ => List.Subset.refl _, rfl⟩

theorem Keeps.trans {s t u : Reading} (first : Keeps s t) (second : Keeps t u) : Keeps s u where
  held := fun key => List.Subset.trans (first.held key) (second.held key)
  answers := second.answers.trans first.answers

theorem Replaces.keeps {s t : Reading} (replaces : Replaces s t) : Keeps s t :=
  ⟨replaces.held, replaces.answers⟩

/-- What a download learns from the metadata it captures: bytes of which any
whole body under the captured identity is a range. -/
structure Learns (promise : Reading → (request : DownloadRequest) → DownloadResponse request → Prop) (key : ObjectPath)
    (known : ObjectMeta → Bytes → Reading → Prop) : Prop where
  head : ∀ {s metadata}, promise s (.head key) (.ok metadata) → ∃ whole, known metadata whole s
  later : ∀ {s t metadata whole}, known metadata whole s → (∀ key, s.held key ⊆ t.held key) → known metadata whole t
  body : ∀ {s captured whole options response bytes}, known captured whole s →
    identityOf captured.version captured.eTag ≠ none → promise s (.getOpts key options) (.ok response) →
    identityMatches (captured.version.filter (· ≠ "")) (captured.eTag.filter (· ≠ "")) response.metadata = true →
    response.Arrives bytes → bytes.length = response.range.width → bytes = response.range.of whole

section Bodies

variable {promise : Reading → (request : DownloadRequest) → DownloadResponse request → Prop} {key : ObjectPath}
  {dest : String} {s : Reading}

theorem create_spec :
    Ensures (Serves promise) Replaces (fun _ _ => True)
      (fun outcome t => Keeps s t ∧ (outcome = .ok () → t.files dest = some [])) (fetch (.create dest)) s := by
  refine Ensures.ask fun t replaces response u handled => ⟨trivial, ?_⟩
  cases response with
  | ok done =>
    obtain rfl := handled.1
    exact ⟨⟨replaces.held, replaces.answers⟩, fun _ => if_pos rfl⟩
  | error source =>
    obtain ⟨bytes, rfl⟩ := handled.1
    exact ⟨⟨replaces.held, replaces.answers⟩, fun ok => by cases ok⟩

theorem writeAll_spec {chunk written : Bytes} (present : s.files dest = some written) :
    Ensures (Serves promise) Replaces (fun _ _ => True)
      (fun outcome t => Keeps s t ∧ (outcome = .ok () → t.files dest = some (written ++ chunk)))
      (fetch (.writeAll dest chunk)) s := by
  refine Ensures.ask fun t replaces response u handled => ⟨trivial, ?_⟩
  cases response with
  | ok done =>
    obtain rfl := handled.1
    exact ⟨⟨replaces.held, replaces.answers⟩, fun _ => by simp [Reading.write, replaces.files, present]⟩
  | error source =>
    obtain ⟨bytes, rfl⟩ := handled.1
    exact ⟨⟨replaces.held, replaces.answers⟩, fun ok => by cases ok⟩

/-- A body that is written to the end has arrived whole, with the expected
length. -/
theorem writeBody_spec {expected : UInt64} (small : expected.toNat < Usize.range - 1)
    (body : List (Except StoreError Chunk)) (received : UInt64) {written : Bytes}
    (present : s.files dest = some written) :
    Ensures (Serves promise) Replaces (fun _ _ => True)
      (fun outcome t => Keeps s t ∧ (outcome = .ok () → ∃ chunks : List Chunk, body = chunks.map .ok ∧
        received.toNat + (chunks.map Chunk.bytes).flatten.length = expected.toNat ∧
        t.files dest = some (written ++ (chunks.map Chunk.bytes).flatten)))
      (writeBody key dest expected body received) s := by
  induction body generalizing received written s with
  | nil =>
    unfold writeBody
    split
    · exact ⟨.refl s, fun ok => by cases ok⟩
    · rename_i all
      refine ⟨.refl s, fun _ => ⟨[], rfl, ?_, ?_⟩⟩
      · simpa using congrArg UInt64.toNat (not_not.mp all)
      · simpa using present
  | cons piece body ih =>
    unfold writeBody
    refine Ensures.settledThen (fun chunk arrived => ?_) fun _ _ => ⟨.refl s, fun ok => by cases ok⟩
    subst arrived
    have total := toNat_saturatingAdd received (UInt64.ofNat chunk.bytes.length)
    have length : (UInt64.ofNat chunk.bytes.length).toNat = chunk.bytes.length := by
      rw [UInt64.toNat_ofNat']
      exact Nat.mod_eq_of_lt chunk.fits
    rw [length] at total
    dsimp only
    split
    · exact ⟨.refl s, fun ok => by cases ok⟩
    · rename_i within
      rw [UInt64.lt_iff_toNat_lt] at within
      refine Ensures.attemptThen (writeAll_spec present) (fun _ t holds => ?_) fun _ _ holds =>
        ⟨holds.1, fun ok => by cases ok⟩
      refine Ensures.mono (ih _ (holds.2 rfl)) fun outcome u later => ⟨holds.1.trans later.1, fun ok => ?_⟩
      obtain ⟨chunks, rfl, counted, file⟩ := later.2 ok
      refine ⟨chunk :: chunks, rfl, ?_, ?_⟩
      · simp only [List.map_cons, List.flatten_cons, List.length_append]
        omega
      · simpa using file

end Bodies

/-- An answer that the download took. -/
structure Accepted (key : ObjectPath) (captured : ObjectMeta) (requested : ByteRange) (response : GetResult) : Prop where
  location : response.metadata.location = key
  size : response.metadata.size = captured.size
  identity : identityMatches (captured.version.filter (· ≠ "")) (captured.eTag.filter (· ≠ "")) response.metadata = true
  range : response.range = requested
  body : ∃ bytes, response.Arrives bytes ∧ bytes.length = requested.width

/-- Ranges that follow each other from one offset to another. -/
def Tiles : Nat → Nat → List ByteRange → Prop
  | start, stop, [] => start = stop
  | start, stop, range :: ranges =>
    range.start.toNat = start ∧ start < range.stop.toNat ∧ Tiles range.stop.toNat stop ranges

section Ranges

theorem Tiles.le {start stop : Nat} {ranges : List ByteRange} (tiles : Tiles start stop ranges) : start ≤ stop := by
  induction ranges generalizing start with
  | nil => exact Nat.le_of_eq tiles
  | cons range ranges ih =>
    obtain ⟨_, grows, rest⟩ := tiles
    exact grows.le.trans (ih rest)

/-- Every position lies in a range, and only those between the ends. -/
theorem Tiles.covers {start stop : Nat} {ranges : List ByteRange} (tiles : Tiles start stop ranges) (i : Nat) :
    (start ≤ i ∧ i < stop) ↔ ∃ range ∈ ranges, range.start.toNat ≤ i ∧ i < range.stop.toNat := by
  induction ranges generalizing start with
  | nil =>
    obtain rfl : start = stop := tiles
    simp only [List.not_mem_nil, false_and, exists_false, iff_false]
    omega
  | cons range ranges ih =>
    obtain ⟨rfl, grows, rest⟩ := tiles
    have before := rest.le
    rw [List.exists_mem_cons_iff, ← ih rest]
    omega

theorem Tiles.after {start stop : Nat} {ranges : List ByteRange} (tiles : Tiles start stop ranges) {range : ByteRange}
    (member : range ∈ ranges) : start ≤ range.start.toNat := by
  induction ranges generalizing start with
  | nil => cases member
  | cons first ranges ih =>
    obtain ⟨same, grows, rest⟩ := tiles
    rcases List.mem_cons.mp member with rfl | later
    · exact same.ge
    · exact grows.le.trans (ih rest later)

/-- No two ranges overlap. -/
theorem Tiles.disjoint {start stop : Nat} {ranges : List ByteRange} (tiles : Tiles start stop ranges) :
    ranges.Pairwise fun first second => first.stop.toNat ≤ second.start.toNat := by
  induction ranges generalizing start with
  | nil => exact List.Pairwise.nil
  | cons range ranges ih =>
    obtain ⟨_, _, rest⟩ := tiles
    exact List.Pairwise.cons (fun second member => rest.after member) (ih rest)

variable {promise : Reading → (request : DownloadRequest) → DownloadResponse request → Prop} {key : ObjectPath}
  {known : ObjectMeta → Bytes → Reading → Prop} {dest : String} {s : Reading} {captured : ObjectMeta} {whole : Bytes}

theorem checkResponse_ok {version eTag : Option String} {requested : ByteRange} {response : GetResult}
    (ok : checkResponse key captured version eTag requested response = .ok ()) :
    response.metadata.location = key ∧ response.metadata.size = captured.size ∧
      identityMatches version eTag response.metadata = true ∧ response.range = requested := by
  unfold checkResponse at ok
  split at ok
  · cases ok
  split at ok
  · cases ok
  split at ok
  · cases ok
  split at ok
  · cases ok
  rename_i location size identity range
  exact ⟨not_not.mp location, not_not.mp size, not_not.mp identity, not_not.mp range⟩

/-- A range that is written to the end is that of the bytes known. -/
theorem downloadRange_spec (learns : Learns promise key known)
    (named : identityOf captured.version captured.eTag ≠ none) {requested : ByteRange} {written : Bytes}
    (ordered : requested.start ≤ requested.stop) (small : requested.width ≤ chunkBytes)
    (knows : known captured whole s) (present : s.files dest = some written) :
    Ensures (Serves promise) Replaces (fun _ _ => True)
      (fun outcome t => (∀ key, s.held key ⊆ t.held key) ∧ (outcome = .ok () → ∃ response,
        t.answers = s.answers ++ [(requested, response)] ∧ Accepted key captured requested response ∧
        (requested.of whole).length = requested.width ∧
        t.files dest = some (written ++ requested.of whole)))
      (downloadRange key dest captured (captured.version.filter (· ≠ "")) (captured.eTag.filter (· ≠ "")) requested)
      s := by
  have answered : ∀ options : GetOptions, options.range = some requested →
      Ensures (Serves promise) Replaces (fun _ _ => True)
        (fun outcome t => (∀ key, s.held key ⊆ t.held key) ∧ t.files = s.files ∧ ∀ response, outcome = .ok response →
          t.answers = s.answers ++ [(requested, response)] ∧ ∃ u, known captured whole u ∧
            promise u (.getOpts key options) (.ok response))
        (fetch (.getOpts key options)) s := by
    intro options asked
    refine Ensures.ask fun t replaces response u handled => ⟨trivial, ?_⟩
    obtain ⟨rfl, kept⟩ := handled
    rw [asked]
    cases response with
    | ok response =>
      refine ⟨replaces.held, replaces.files, fun _ same => ?_⟩
      cases same
      exact ⟨by simp [Reading.answered, replaces.answers], t, learns.later knows replaces.held, kept⟩
    | error source => exact ⟨replaces.held, replaces.files, fun _ failed => by cases failed⟩
  unfold downloadRange
  refine Ensures.attemptThen (answered _ rfl) (fun response t holds => ?_) fun _ _ holds =>
    ⟨holds.1, fun ok => by cases ok⟩
  obtain ⟨grows, files, logged⟩ := holds
  obtain ⟨logged, u, knows, kept⟩ := logged response rfl
  rcases checked : checkResponse key captured _ _ requested response with error | accepted
  · exact ⟨grows, fun ok => by cases ok⟩
  obtain ⟨location, size, identity, rfl⟩ := checkResponse_ok checked
  have width : (response.range.stop - response.range.start).toNat = response.range.width :=
    UInt64.toNat_sub_of_le _ _ ordered
  have bound : (response.range.stop - response.range.start).toNat < Usize.range - 1 := by
    rw [width]
    exact small.trans_lt (by decide)
  refine Ensures.mono (writeBody_spec bound response.body 0 (files ▸ present)) fun outcome u holds =>
    ⟨fun key => List.Subset.trans (grows key) (holds.1.held key), fun ok => ?_⟩
  obtain ⟨chunks, body, counted, file⟩ := holds.2 ok
  have length : (chunks.map Chunk.bytes).flatten.length = response.range.width := by
    rw [← width]
    simpa using counted
  have arrives : response.Arrives (chunks.map Chunk.bytes).flatten := ⟨chunks, body, rfl⟩
  have same := learns.body knows named kept identity arrives length
  refine ⟨response, holds.1.answers.trans logged, ⟨location, size, identity, rfl, _, arrives, length⟩, ?_, ?_⟩
  · rw [← same, length]
  · rw [file, same]

/-- How many ranges a download of so many bytes takes. -/
def rangeCount (size : Nat) : Nat :=
  (size + chunkBytes - 1) / chunkBytes

theorem rangeCount_succ {size offset : Nat} (more : offset < size) :
    rangeCount (size - min size (offset + chunkBytes)) + 1 = rangeCount (size - offset) := by
  unfold rangeCount
  have chunk := chunkBytes_pos
  rcases Nat.lt_or_ge (offset + chunkBytes) size with inside | last
  · rw [Nat.min_eq_right inside.le, ← Nat.add_div_right _ chunk]
    congr 1
    omega
  · rw [Nat.min_eq_left last, Nat.sub_self, Nat.zero_add, Nat.div_eq_of_lt (by omega),
      show size - offset + chunkBytes - 1 = (size - offset - 1) + chunkBytes by omega, Nat.add_div_right _ chunk,
      Nat.div_eq_of_lt (by omega)]

theorem writeBody_within (expected : UInt64) (body : List (Except StoreError Chunk)) (received : UInt64) :
    Program.Within DownloadRequest.isRange (writeBody key dest expected body received) 0 := by
  induction body generalizing received with
  | nil =>
    unfold writeBody
    split <;> trivial
  | cons piece body ih =>
    unfold writeBody
    refine Program.Within.settledThen fun chunk => ?_
    dsimp only
    split
    · trivial
    · exact Program.Within.last (Program.Within.free rfl).attempt fun _ => ih _

theorem downloadRange_within (version eTag : Option String) (requested : ByteRange) :
    Program.Within DownloadRequest.isRange (downloadRange key dest captured version eTag requested) 1 := by
  unfold downloadRange
  refine Program.Within.last Program.Within.one.attempt fun response => ?_
  exact Program.Within.checked fun _ => writeBody_within _ _ _

/-- The loop asks for a range as often as there are ranges left. -/
theorem downloadRanges_within (version eTag : Option String) (offset : UInt64) :
    Program.Within DownloadRequest.isRange (downloadRanges key dest captured version eTag offset)
      (rangeCount (captured.size.toNat - offset.toNat)) := by
  induction left : captured.size.toNat - offset.toNat using Nat.strongRecOn generalizing offset with
  | _ left ih =>
    subst left
    unfold downloadRanges
    split
    · rename_i more
      rw [UInt64.lt_iff_toNat_lt] at more
      have stop := toNat_rangeEnd captured.size offset
      have chunk := chunkBytes_pos
      rw [← rangeCount_succ more, Nat.add_comm, ← stop]
      exact Program.Within.andThen (downloadRange_within _ _ _) fun _ => ih _ (by omega) _ rfl
    · trivial

theorem downloadCaptured_within :
    Program.Within DownloadRequest.isRange (downloadCaptured key dest captured) (rangeCount captured.size.toNat) := by
  unfold downloadCaptured
  split
  · trivial
  dsimp only
  split
  · trivial
  · exact Program.Within.last (downloadRanges_within _ _ 0) fun _ => trivial

/-- The loop writes the bytes known from the offset on, in ranges that follow
each other. -/
theorem downloadRanges_spec (learns : Learns promise key known)
    (named : identityOf captured.version captured.eTag ≠ none) (offset : UInt64) (within : offset ≤ captured.size)
    (room : offset.toNat ≤ whole.length) (knows : known captured whole s)
    (present : s.files dest = some (whole.take offset.toNat)) :
    Ensures (Serves promise) Replaces (fun _ _ => True)
      (fun outcome t => (∀ key, s.held key ⊆ t.held key) ∧ (outcome = .ok () → ∃ answered,
        t.answers = s.answers ++ answered ∧ Tiles offset.toNat captured.size.toNat (answered.map Prod.fst) ∧
        answered.length = rangeCount (captured.size.toNat - offset.toNat) ∧
        (∀ answer ∈ answered, Accepted key captured answer.1 answer.2) ∧
        captured.size.toNat ≤ whole.length ∧ t.files dest = some (whole.take captured.size.toNat)))
      (downloadRanges key dest captured (captured.version.filter (· ≠ "")) (captured.eTag.filter (· ≠ "")) offset)
      s := by
  induction left : captured.size.toNat - offset.toNat using Nat.strongRecOn generalizing offset s with
  | _ left ih =>
    subst left
    unfold downloadRanges
    rw [UInt64.le_iff_toNat_le] at within
    split
    · rename_i more
      rw [UInt64.lt_iff_toNat_lt] at more
      have stop := toNat_rangeEnd captured.size offset
      have chunk := chunkBytes_pos
      have ordered : offset ≤ rangeEnd captured.size offset := by
        rw [UInt64.le_iff_toNat_le]
        omega
      have small : (rangeEnd captured.size offset).toNat - offset.toNat ≤ chunkBytes := by omega
      refine Ensures.andThen (downloadRange_spec learns named ordered small knows present) (fun _ t holds => ?_)
        fun _ _ holds => ⟨holds.1, fun ok => by cases ok⟩
      obtain ⟨grows, done⟩ := holds
      obtain ⟨response, logged, accepted, length, file⟩ := done rfl
      unfold ByteRange.of ByteRange.width at length file
      dsimp only at length file
      rw [← List.take_add, show offset.toNat + ((rangeEnd captured.size offset).toNat - offset.toNat) =
        (rangeEnd captured.size offset).toNat by omega] at file
      have reached : (rangeEnd captured.size offset).toNat ≤ whole.length := by
        rw [List.length_take, List.length_drop] at length
        omega
      have further : rangeEnd captured.size offset ≤ captured.size := by
        rw [UInt64.le_iff_toNat_le]
        omega
      refine Ensures.mono (ih _ (by omega) _ further reached (learns.later knows grows) file rfl) fun outcome u later =>
        ⟨fun key => List.Subset.trans (grows key) (later.1 key), fun ok => ?_⟩
      obtain ⟨answered, logs, tiles, count, all, fits, file⟩ := later.2 ok
      have grown : offset.toNat < (rangeEnd captured.size offset).toNat := by omega
      refine ⟨_ :: answered, by rw [logs, logged, List.append_assoc]; rfl, ⟨rfl, grown, tiles⟩, ?_, ?_, fits, file⟩
      · rw [List.length_cons, count, stop, rangeCount_succ more]
      · exact List.forall_mem_cons.mpr ⟨accepted, all⟩
    · rename_i none
      rw [UInt64.lt_iff_toNat_lt] at none
      have last : offset.toNat = captured.size.toNat := by omega
      refine ⟨fun _ => List.Subset.refl _, fun _ => ⟨[], by simp, last, ?_, by simp, last ▸ room, last ▸ present⟩⟩
      rw [last, Nat.sub_self]
      decide

/-- The file holds as many of the bytes as the metadata announces, fetched by
ranges that follow each other from end to end. -/
structure Fetched (key : ObjectPath) (dest : String) (captured : ObjectMeta) (whole : Bytes)
    (answered : List (ByteRange × GetResult)) (t : Reading) : Prop where
  location : captured.location = key
  named : identityOf captured.version captured.eTag ≠ none
  room : captured.size.toNat ≤ whole.length
  file : t.files dest = some (whole.take captured.size.toNat)
  tiles : Tiles 0 captured.size.toNat (answered.map Prod.fst)
  count : answered.length = rangeCount captured.size.toNat
  accepted : ∀ answer ∈ answered, Accepted key captured answer.1 answer.2

theorem Fetched.stable {answered : List (ByteRange × GetResult)} {t : Reading}
    (fetched : Fetched key dest captured whole answered s) (replaces : Replaces s t) :
    Fetched key dest captured whole answered t :=
  { fetched with file := replaces.files ▸ fetched.file }

theorem downloadCaptured_spec (learns : Learns promise key known) (knows : known captured whole s)
    (present : s.files dest = some []) :
    Ensures (Serves promise) Replaces (fun _ _ => True)
      (fun outcome t => ∀ result, outcome = .ok result → result = captured ∧ ∃ answered,
        t.answers = s.answers ++ answered ∧ known captured whole t ∧ Fetched key dest captured whole answered t)
      (downloadCaptured key dest captured) s := by
  unfold downloadCaptured
  split
  · exact fun _ ok => by cases ok
  rename_i location
  dsimp only
  split
  · exact fun _ ok => by cases ok
  rename_i identity
  have named : identityOf captured.version captured.eTag ≠ none := fun none =>
    identity (identityOf_eq_none_iff.mp none)
  refine Ensures.andThen (downloadRanges_spec learns named 0 (by simp [UInt64.le_iff_toNat_le]) (Nat.zero_le _) knows
    (by simpa using present)) (fun _ t holds => ?_) fun _ _ _ _ ok => by cases ok
  obtain ⟨grows, done⟩ := holds
  obtain ⟨answered, logged, tiles, count, accepted, room, file⟩ := done rfl
  refine Ensures.returns fun _ ok => ?_
  cases ok
  exact ⟨rfl, answered, logged, learns.later knows grows, not_not.mp location, named, room, file, tiles, count, accepted⟩

theorem downloadToTemp_spec (learns : Learns promise key known) :
    Ensures (Serves promise) Replaces (fun _ _ => True)
      (fun outcome t => ∀ captured, outcome = .ok captured → ∃ whole answered,
        t.answers = s.answers ++ answered ∧ known captured whole t ∧ Fetched key dest captured whole answered t)
      (downloadToTemp key dest) s := by
  unfold downloadToTemp
  refine Ensures.attemptThen create_spec (fun _ t holds => ?_) fun _ _ _ _ ok => by cases ok
  obtain ⟨keeps, present⟩ := holds
  have present := present rfl
  have captured : Ensures (Serves promise) Replaces (fun _ _ => True)
      (fun outcome u => Keeps t u ∧ u.files = t.files ∧ ∀ metadata, outcome = .ok metadata →
        ∃ whole, known metadata whole u) (fetch (.head key)) t := by
    refine Ensures.ask fun u replaces response v handled => ⟨trivial, ?_⟩
    obtain ⟨rfl, kept⟩ := handled
    refine ⟨replaces.keeps, replaces.files, fun metadata same => ?_⟩
    subst same
    exact learns.head kept
  refine Ensures.attemptThen captured (fun metadata u holds => ?_) fun _ _ _ _ ok => by cases ok
  obtain ⟨keeps', files, learnt⟩ := holds
  obtain ⟨whole, knows⟩ := learnt metadata rfl
  refine Ensures.mono (downloadCaptured_spec learns knows (files ▸ present)) fun outcome v holds metadata ok => ?_
  obtain ⟨rfl, answered, logged, knows, fetched⟩ := holds metadata ok
  exact ⟨whole, answered, by rw [logged, (keeps.trans keeps').answers], knows, fetched⟩

end Ranges

end Datacrate.Remote
