import Datacrate.Lib.Transition
import Datacrate.Remote.Multipart

namespace Datacrate.Remote

open Datacrate.Ingest Transition Chunks

/-- All parts but the last are full, and no part is empty. -/
def Aligned (parts : List Bytes) : Prop :=
  (∀ part ∈ parts, part ≠ [] ∧ part.length ≤ chunkBytes) ∧ ∀ part ∈ parts.dropLast, part.length = chunkBytes

section Invariant

variable (src : String) (key : ObjectPath) (contents : Bytes)

def failures (events : List UploadEvent) : List PipelineIoError :=
  events.filterMap (UploadEvent.failure src key)

/-- No failure so far, and every submitted part is under way or has succeeded. -/
structure Upload.Running (events : List UploadEvent) (s : Upload) : Prop where
  calm : failures src key events = []
  unended : .complete ∉ s.calls ∧ .abort ∉ s.calls
  accounted : ∀ i < s.submitted.length, i ∈ s.parts ∨ .partDone i (.ok ()) ∈ events

/-- The submitted parts make up the contents, and all have succeeded. -/
structure Upload.Whole (events : List UploadEvent) (s : Upload) : Prop where
  aligned : Aligned s.submitted
  whole : s.submitted.flatten = contents
  succeeded : ∀ i < s.submitted.length, .partDone i (.ok ()) ∈ events

structure Upload.Failed (events : List UploadEvent) (s : Upload) (source : PipelineIoError) : Prop where
  told : failures src key events = [source]
  dropped : s.parts = []
  aborted : .abort ∈ s.calls
  aligned : Aligned s.submitted
  begun : s.submitted.flatten <+: contents
  completed : .complete ∈ s.calls → s.Whole contents events

/-- What holds at each point of the upload. -/
def Upload.Inv (events : List UploadEvent) (s : Upload) : Prop :=
  match s.point with
  | .room => s.Running src key events ∧ (∀ part ∈ s.submitted, part.length = chunkBytes) ∧
      s.parts.length = maxUploadParts ∧ s.submitted.flatten ++ s.rest = contents
  | .fill buffer => s.Running src key events ∧ (∀ part ∈ s.submitted, part.length = chunkBytes) ∧
      s.parts.length < maxUploadParts ∧ buffer.length < chunkBytes ∧
      s.submitted.flatten ++ (buffer ++ s.rest) = contents
  | .drain => s.Running src key events ∧ Aligned s.submitted ∧ s.parts.length ≤ maxUploadParts ∧
      s.parts ≠ [] ∧ s.submitted.flatten = contents
  | .completing | .finished (.ok ()) => failures src key events = [] ∧ s.parts = [] ∧ .abort ∉ s.calls ∧
      .complete ∈ s.calls ∧ s.Whole contents events
  | .aborting source => s.Failed src key contents events source
  | .finished (.error error) => ∃ source outcome past, events = past ++ [.abortDone outcome] ∧
      s.Failed src key contents events source ∧ error = aborted source outcome

end Invariant

section Steps

variable {src : String} {key : ObjectPath} {contents : Bytes} {events : List UploadEvent} {s : Upload}

theorem Aligned.of_full {parts : List Bytes} (full : ∀ part ∈ parts, part.length = chunkBytes) : Aligned parts := by
  constructor
  · intro part member
    have length := full part member
    have positive := chunkBytes_pos
    exact ⟨List.ne_nil_of_length_pos (by omega), length.le⟩
  · intro part member
    exact full part ((List.dropLast_sublist parts).mem member)

/-- A last part, which may be short. -/
theorem Aligned.concat {parts : List Bytes} {part : Bytes} (full : ∀ part ∈ parts, part.length = chunkBytes)
    (nonempty : part ≠ []) (fits : part.length ≤ chunkBytes) : Aligned (parts ++ [part]) := by
  constructor
  · intro other member
    rcases List.mem_append.mp member with earlier | last
    · exact (Aligned.of_full full).1 other earlier
    · rw [List.mem_singleton.mp last]
      exact ⟨nonempty, fits⟩
  · rw [List.dropLast_concat]
    exact full

theorem submitted_append_other {call : UploadCall} (other : call.part = none) :
    (s.calls ++ [call]).filterMap UploadCall.part = s.submitted := by
  rw [List.filterMap_append, List.filterMap_cons_none other, List.filterMap_nil, List.append_nil, Upload.submitted]

theorem submitted_push {data : Bytes} : (s.push data).submitted = s.submitted ++ [data] := by
  rw [Upload.push, Upload.submitted, List.filterMap_append]
  rfl

theorem failures_append {event : UploadEvent} :
    failures src key (events ++ [event]) = failures src key events ++ (event.failure src key).toList := by
  rw [failures, List.filterMap_append, failures]
  cases told : event.failure src key <;> simp [told]

theorem failures_of_none {event : UploadEvent} {told : List PipelineIoError}
    (before : failures src key events = told) (fine : event.failure src key = none) :
    failures src key (events ++ [event]) = told := by
  rw [failures_append, before, fine, Option.toList_none, List.append_nil]

theorem Upload.Whole.hear {event : UploadEvent} {point : UploadPoint} (whole : s.Whole contents events) :
    ({ s with point } : Upload).Whole contents (events ++ [event]) :=
  ⟨whole.aligned, whole.whole, fun i below => List.mem_append_left _ (whole.succeeded i below)⟩

theorem Upload.Whole.congr {t : Upload} (whole : s.Whole contents events) (same : t.submitted = s.submitted) :
    t.Whole contents events := by
  refine ⟨?_, ?_, ?_⟩
  · rw [same]
    exact whole.aligned
  · rw [same]
    exact whole.whole
  · rw [same]
    exact whole.succeeded

/-- With no part under way, all have succeeded. -/
theorem Upload.Running.whole (running : s.Running src key events) (empty : s.parts = [])
    (aligned : Aligned s.submitted) (whole : s.submitted.flatten = contents) : s.Whole contents events := by
  refine ⟨aligned, whole, fun i below => (running.accounted i below).resolve_left ?_⟩
  rw [empty]
  exact List.not_mem_nil

theorem Upload.Failed.hear {event : UploadEvent} {point : UploadPoint} {source : PipelineIoError}
    (failed : s.Failed src key contents events source) (fine : event.failure src key = none) :
    ({ s with point } : Upload).Failed src key contents (events ++ [event]) source :=
  ⟨failures_of_none failed.told fine, failed.dropped, failed.aborted, failed.aligned, failed.begun,
    fun called => (failed.completed called).hear⟩

theorem Upload.Running.moved (running : s.Running src key events) (point : UploadPoint) (rest : Bytes) :
    ({ s with point, rest } : Upload).Running src key events :=
  ⟨running.calm, running.unended, running.accounted⟩

theorem Upload.Running.push {data : Bytes} (running : s.Running src key events) :
    (s.push data).Running src key events := by
  refine ⟨running.calm, ?_, ?_⟩
  · simp [Upload.push, running.unended]
  · intro i below
    rw [submitted_push, List.length_append, List.length_singleton] at below
    by_cases last : i = s.submitted.length
    · exact .inl (List.mem_append_right _ (by rw [last]; exact List.mem_singleton_self _))
    · exact (running.accounted i (by omega)).imp (List.mem_append_left _) id

/-- An event that tells of no failure. -/
theorem Upload.Running.hear {event : UploadEvent} (running : s.Running src key events)
    (fine : event.failure src key = none) : s.Running src key (events ++ [event]) := by
  refine ⟨failures_of_none running.calm fine, running.unended, ?_⟩
  intro i below
  exact (running.accounted i below).imp_right (List.mem_append_left _)

theorem Upload.Inv.loopHead (running : s.Running src key events)
    (full : ∀ part ∈ s.submitted, part.length = chunkBytes) (bound : s.parts.length ≤ maxUploadParts)
    (parted : s.submitted.flatten ++ s.rest = contents) : s.loopHead.Inv src key contents events := by
  unfold Upload.loopHead
  split
  · rename_i many
    exact ⟨running.moved _ _, full, many, parted⟩
  · rename_i few
    exact ⟨running.moved _ _, full, lt_of_le_of_ne bound few, chunkBytes_pos, parted⟩

theorem Upload.Inv.drainHead (running : s.Running src key events) (aligned : Aligned s.submitted)
    (bound : s.parts.length ≤ maxUploadParts) (whole : s.submitted.flatten = contents) :
    s.drainHead.Inv src key contents events := by
  unfold Upload.drainHead
  split
  · rename_i empty
    have completed : ({ s with point := .completing, calls := s.calls ++ [.complete] } : Upload).Whole contents events :=
      (running.whole empty aligned whole).congr (submitted_append_other rfl)
    refine ⟨running.calm, empty, ?_, List.mem_append_right _ (List.mem_singleton_self _), completed⟩
    simp [running.unended]
  · rename_i waiting
    exact ⟨running.moved _ _, aligned, bound, waiting, whole⟩

theorem Upload.Inv.filled {buffer : Bytes} (running : s.Running src key events)
    (full : ∀ part ∈ s.submitted, part.length = chunkBytes) (bound : s.parts.length < maxUploadParts)
    (fits : buffer.length ≤ chunkBytes) (parted : s.submitted.flatten ++ (buffer ++ s.rest) = contents)
    (ended : buffer.length < chunkBytes → s.rest = []) : (s.filled buffer).Inv src key contents events := by
  have length : (s.push buffer).parts.length ≤ maxUploadParts := by
    rw [Upload.push, List.length_append, List.length_singleton]
    omega
  have joined : (s.push buffer).submitted.flatten ++ s.rest = contents := by
    rw [submitted_push, List.flatten_concat, List.append_assoc, parted]
  unfold Upload.filled
  by_cases short : buffer.length < chunkBytes
  · rw [ended short, List.append_nil] at joined parted
    by_cases empty : buffer.length = 0
    · rw [List.length_eq_zero_iff.mp empty, List.append_nil] at parted
      rw [if_neg (not_not.mpr empty), if_pos short]
      exact .drainHead running (.of_full full) bound.le parted
    · have aligned : Aligned (s.push buffer).submitted := by
        rw [submitted_push]
        exact .concat full (fun none => empty (List.length_eq_zero_iff.mpr none)) fits
      rw [if_pos empty, if_pos short]
      exact .drainHead running.push aligned length joined
  · have wide : buffer.length = chunkBytes := by omega
    have nonempty : buffer.length ≠ 0 := by
      rw [wide]
      exact chunkBytes_pos.ne'
    have all : ∀ part ∈ (s.push buffer).submitted, part.length = chunkBytes := by
      intro part member
      rw [submitted_push] at member
      rcases List.mem_append.mp member with earlier | last
      · exact full part earlier
      · rw [List.mem_singleton.mp last, wide]
    rw [if_pos nonempty, if_neg short]
    exact .loopHead running.push all length joined

theorem Upload.Inv.fail {event : UploadEvent} {source : PipelineIoError} (calm : failures src key events = [])
    (told : event.failure src key = some source) (aligned : Aligned s.submitted)
    (begun : s.submitted.flatten <+: contents)
    (completed : .complete ∈ s.calls → s.Whole contents events) :
    (s.fail source).Inv src key contents (events ++ [event]) := by
  have same : (s.fail source).submitted = s.submitted := submitted_append_other rfl
  refine ⟨?_, rfl, List.mem_append_right _ (List.mem_singleton_self _), ?_, ?_, ?_⟩
  · rw [failures_append, calm, told]
    rfl
  · rwa [same]
  · rwa [same]
  · intro called
    have before : UploadCall.complete ∈ s.calls := by
      simpa [Upload.fail] using called
    exact ((completed before).congr same).hear

/-- A part that is told to have succeeded leaves the set. -/
theorem Upload.Running.partDone {index : Nat} (running : s.Running src key events) :
    ({ s with parts := s.parts.erase index } : Upload).Running src key (events ++ [.partDone index (.ok ())]) := by
  refine ⟨(running.hear rfl).calm, running.unended, ?_⟩
  intro i below
  rcases running.accounted i below with waiting | done
  · by_cases same : i = index
    · rw [same]
      exact .inr (List.mem_append_right _ (List.mem_singleton_self _))
    · exact .inl ((List.mem_erase_of_ne same).mpr waiting)
  · exact .inr (List.mem_append_left _ done)

theorem Upload.Inv.take {buffer : Bytes} {count : Nat} {t : Upload} (running : s.Running src key events)
    (full : ∀ part ∈ s.submitted, part.length = chunkBytes) (bound : s.parts.length < maxUploadParts)
    (room : buffer.length < chunkBytes) (parted : s.submitted.flatten ++ (buffer ++ s.rest) = contents)
    (moved : s.take buffer count = some t) : t.Inv src key contents events := by
  rcases Upload.take_cases moved with ⟨ended, rfl⟩ | ⟨more, rest, split, positive, fits, read⟩
  · exact .filled running full bound room.le parted fun _ => ended
  · have rejoined : s.submitted.flatten ++ (buffer ++ more ++ rest) = contents := by
      rw [List.append_assoc buffer, ← split, parted]
    rcases read with ⟨short, rfl⟩ | ⟨long, rfl⟩
    · exact ⟨running.moved _ _, full, bound, short, rejoined⟩
    · have whole : (buffer ++ more).length ≤ chunkBytes := by
        rw [List.length_append]
        omega
      exact .filled (running.moved _ _) full bound whole rejoined fun short => absurd short long

/-- Each event keeps the invariant. -/
theorem Upload.Inv.step {event : UploadEvent} {t : Upload} (inv : s.Inv src key contents events)
    (moved : s.step src key event = some t) : t.Inv src key contents (events ++ [event]) := by
  unfold Upload.Inv at inv
  cases Upload.step_moves moved with
  | @taken buffer count _ filling took =>
    rw [filling] at inv
    obtain ⟨running, full, bound, room, parted⟩ := inv
    exact .take (running.hear rfl) full bound room parted took
  | interrupted filling =>
    rw [filling] at inv
    obtain ⟨running, rest⟩ := inv
    rw [Upload.Inv, filling]
    exact ⟨running.hear rfl, rest⟩
  | readFailed filling =>
    rw [filling] at inv
    obtain ⟨running, full, _, _, parted⟩ := inv
    exact .fail running.calm rfl (.of_full full) ⟨_, parted⟩ fun called => absurd called running.unended.1
  | @roomMade index room waiting =>
    rw [room] at inv
    obtain ⟨running, full, many, parted⟩ := inv
    have fewer : (s.parts.erase index).length < maxUploadParts := by
      rw [List.length_erase_of_mem waiting, many]
      decide
    exact ⟨running.partDone.moved _ _, full, fewer, chunkBytes_pos, parted⟩
  | drained draining waiting =>
    rw [draining] at inv
    obtain ⟨running, aligned, bound, _, whole⟩ := inv
    exact .drainHead running.partDone aligned (List.length_erase_le.trans bound) whole
  | partFailed awaiting waiting =>
    rcases awaiting with room | draining
    · rw [room] at inv
      obtain ⟨running, full, _, parted⟩ := inv
      exact .fail running.calm rfl (.of_full full) ⟨_, parted⟩ fun called => absurd called running.unended.1
    · rw [draining] at inv
      obtain ⟨running, aligned, _, _, whole⟩ := inv
      exact .fail running.calm rfl aligned (whole ▸ List.prefix_rfl) fun called => absurd called running.unended.1
  | completed completing =>
    rw [completing] at inv
    obtain ⟨calm, empty, unaborted, called, whole⟩ := inv
    exact ⟨failures_of_none calm rfl, empty, unaborted, called, whole.hear⟩
  | completeFailed completing =>
    rw [completing] at inv
    obtain ⟨calm, _, _, _, whole⟩ := inv
    exact .fail calm rfl whole.aligned (whole.whole ▸ List.prefix_rfl) fun _ => whole
  | @abortDone source result aborting =>
    rw [aborting] at inv
    exact ⟨source, result, events, rfl, Upload.Failed.hear inv rfl, rfl⟩

theorem Upload.Inv.new : (Upload.new contents).Inv src key contents [] :=
  .loopHead ⟨rfl, ⟨List.not_mem_nil, List.not_mem_nil⟩, fun _ below => absurd below (Nat.not_lt_zero _)⟩
    (fun _ member => absurd member List.not_mem_nil) (Nat.zero_le _) rfl

theorem Upload.Inv.run (leads : Leads (Upload.step src key) (Upload.new contents) events s) :
    s.Inv src key contents events :=
  leads.invariant (fun told t => t.Inv src key contents told) .new .step

theorem Upload.Inv.submitted (inv : s.Inv src key contents events) :
    Aligned s.submitted ∧ s.submitted.flatten <+: contents := by
  unfold Upload.Inv at inv
  split at inv
  · exact ⟨.of_full inv.2.1, ⟨_, inv.2.2.2⟩⟩
  · exact ⟨.of_full inv.2.1, ⟨_, inv.2.2.2.2⟩⟩
  · exact ⟨inv.2.1, inv.2.2.2.2 ▸ List.prefix_rfl⟩
  · exact ⟨inv.2.2.2.2.aligned, inv.2.2.2.2.whole ▸ List.prefix_rfl⟩
  · exact ⟨inv.2.2.2.2.aligned, inv.2.2.2.2.whole ▸ List.prefix_rfl⟩
  · exact ⟨inv.aligned, inv.begun⟩
  · obtain ⟨_, _, _, _, failed, _⟩ := inv
    exact ⟨failed.aligned, failed.begun⟩

theorem Upload.Inv.parts_length_le (inv : s.Inv src key contents events) : s.parts.length ≤ maxUploadParts := by
  have none : s.parts = [] → s.parts.length ≤ maxUploadParts := by
    intro empty
    rw [empty]
    exact Nat.zero_le _
  unfold Upload.Inv at inv
  split at inv
  · exact inv.2.2.1.le
  · exact inv.2.2.1.le
  · exact inv.2.2.1
  · exact none inv.2.1
  · exact none inv.2.1
  · exact none inv.dropped
  · obtain ⟨_, _, _, _, failed, _⟩ := inv
    exact none failed.dropped

theorem Upload.Inv.completed (inv : s.Inv src key contents events) (called : .complete ∈ s.calls) :
    s.Whole contents events := by
  unfold Upload.Inv at inv
  split at inv
  · exact absurd called inv.1.unended.1
  · exact absurd called inv.1.unended.1
  · exact absurd called inv.1.unended.1
  · exact inv.2.2.2.2
  · exact inv.2.2.2.2
  · exact inv.completed called
  · obtain ⟨_, _, _, _, failed, _⟩ := inv
    exact failed.completed called

theorem Upload.Inv.abort_iff (inv : s.Inv src key contents events) :
    .abort ∈ s.calls ↔ failures src key events ≠ [] := by
  unfold Upload.Inv at inv
  split at inv
  · exact iff_of_false inv.1.unended.2 (not_not.mpr inv.1.calm)
  · exact iff_of_false inv.1.unended.2 (not_not.mpr inv.1.calm)
  · exact iff_of_false inv.1.unended.2 (not_not.mpr inv.1.calm)
  · exact iff_of_false inv.2.2.1 (not_not.mpr inv.1)
  · exact iff_of_false inv.2.2.1 (not_not.mpr inv.1)
  · exact iff_of_true inv.aborted (by rw [inv.told]; exact List.cons_ne_nil _ _)
  · obtain ⟨_, _, _, _, failed, _⟩ := inv
    exact iff_of_true failed.aborted (by rw [failed.told]; exact List.cons_ne_nil _ _)

theorem Aligned.chunks {parts : List Bytes} (aligned : Aligned parts) : parts = chunksOf chunkBytes parts.flatten := by
  rcases List.eq_nil_or_concat parts with rfl | ⟨full, last, rfl⟩
  · exact chunksOf_nil.symm
  · rw [List.concat_eq_append] at aligned ⊢
    rw [Aligned, List.dropLast_concat] at aligned
    have nonempty := aligned.1 last (List.mem_append_right _ (List.mem_singleton_self _))
    rw [List.flatten_concat, chunksOf_flatten_append chunkBytes_pos aligned.2, chunksOf_short nonempty.1 nonempty.2]

/-- Where the parts of a completed upload are cut depends on its contents only,
and not on how they were read. -/
theorem completed_parts (leads : Leads (Upload.step src key) (Upload.new contents) events s)
    (called : .complete ∈ s.calls) : s.submitted = chunksOf chunkBytes contents := by
  have whole := (Upload.Inv.run leads).completed called
  rw [whole.aligned.chunks, whole.whole]

end Steps

end Datacrate.Remote
