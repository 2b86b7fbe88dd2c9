import Datacrate.Remote.Uploading

namespace Datacrate.Remote

open Datacrate.Ingest Transition Chunks

section Progress

variable {src : String} {key : ObjectPath} {contents : Bytes} {events : List UploadEvent} {s t : Upload}

/-- What is still to come, besides interruptions. -/
def Upload.ahead (s : Upload) : Nat :=
  3 * s.rest.length + s.parts.length + match s.point with
    | .room | .fill _ => 5
    | .drain => 3
    | .completing => 2
    | .aborting _ => 1
    | .finished _ => 0

theorem ahead_loopHead : s.loopHead.ahead = 3 * s.rest.length + s.parts.length + 5 := by
  unfold Upload.loopHead
  split <;> rfl

theorem ahead_drainHead : s.drainHead.ahead ≤ 3 * s.rest.length + s.parts.length + 3 := by
  unfold Upload.drainHead
  split
  · exact Nat.le_succ _
  · exact le_rfl

theorem ahead_fail {source : PipelineIoError} : (s.fail source).ahead = 3 * s.rest.length + 1 := by
  rfl

theorem ahead_push {data : Bytes} : (s.push data).parts.length = s.parts.length + 1 :=
  List.length_append

theorem ahead_filled {buffer : Bytes} :
    (s.filled buffer).ahead ≤ 3 * s.rest.length + s.parts.length + if buffer.length < chunkBytes then 4 else 6 := by
  have pushed : ∀ u, u = (if buffer.length ≠ 0 then s.push buffer else s) →
      u.rest = s.rest ∧ u.parts.length ≤ s.parts.length + 1 := by
    rintro u rfl
    split
    · exact ⟨rfl, ahead_push.le⟩
    · exact ⟨rfl, Nat.le_succ _⟩
  obtain ⟨rest, parts⟩ := pushed _ rfl
  unfold Upload.filled
  by_cases short : buffer.length < chunkBytes
  · have bound := @ahead_drainHead (if buffer.length ≠ 0 then s.push buffer else s)
    rw [rest] at bound
    rw [if_pos short, if_pos short]
    omega
  · have bound := @ahead_loopHead (if buffer.length ≠ 0 then s.push buffer else s)
    rw [rest] at bound
    rw [if_neg short, if_neg short]
    omega

theorem take_lowers {buffer : Bytes} {count : Nat} (filling : s.point = .fill buffer)
    (room : buffer.length < chunkBytes) (moved : s.take buffer count = some t) : t.ahead < s.ahead := by
  have now : s.ahead = 3 * s.rest.length + s.parts.length + 5 := by
    rw [Upload.ahead, filling]
  rcases Upload.take_cases moved with ⟨_, rfl⟩ | ⟨more, rest, split, positive, _, ⟨_, rfl⟩ | ⟨long, rfl⟩⟩
  · have bound := @ahead_filled s buffer
    rw [if_pos room] at bound
    omega
  · rw [now, split, List.length_append]
    simp only [Upload.ahead]
    omega
  · have bound := @ahead_filled { s with rest := rest } (buffer ++ more)
    rw [if_neg long] at bound
    rw [now, split, List.length_append]
    dsimp only at bound
    omega

/-- Each event but an interruption brings the end nearer. -/
theorem Upload.Inv.lowers {event : UploadEvent} (inv : s.Inv src key contents events)
    (moved : s.step src key event = some t) (told : event ≠ .interrupted) : t.ahead < s.ahead := by
  cases Upload.step_moves moved with
  | taken filling took =>
    rw [Upload.Inv, filling] at inv
    exact take_lowers filling inv.2.2.2.1 took
  | interrupted filling => exact absurd rfl told
  | readFailed filling =>
    rw [ahead_fail]
    simp only [Upload.ahead, filling]
    omega
  | roomMade room waiting =>
    have fewer := List.length_erase_of_mem waiting
    have positive := List.length_pos_of_mem waiting
    simp only [Upload.ahead, room]
    omega
  | @drained index draining waiting =>
    have fewer := List.length_erase_of_mem waiting
    have positive := List.length_pos_of_mem waiting
    have bound := @ahead_drainHead { s with parts := s.parts.erase index }
    have now : s.ahead = 3 * s.rest.length + s.parts.length + 3 := by
      simp only [Upload.ahead, draining]
    dsimp only at bound
    omega
  | partFailed awaiting waiting =>
    rw [ahead_fail]
    rcases awaiting with room | draining
    · simp only [Upload.ahead, room]
      omega
    · simp only [Upload.ahead, draining]
      omega
  | completed completing =>
    simp only [Upload.ahead, completing]
    omega
  | completeFailed completing =>
    rw [ahead_fail]
    simp only [Upload.ahead, completing]
    omega
  | abortDone aborting =>
    simp only [Upload.ahead, aborting]
    omega

/-- A buffer with room takes the end of the contents, or one byte more. -/
theorem take_isSome {buffer : Bytes} (room : buffer.length < chunkBytes) :
    ∃ count, (s.take buffer count).isSome = true := by
  by_cases ended : s.rest = []
  · refine ⟨0, ?_⟩
    rw [Upload.take, if_pos rfl, if_pos ended, Option.isSome_some]
  · have more := List.length_pos_of_ne_nil ended
    refine ⟨1, ?_⟩
    have fits : 1 ≤ s.rest.length ∧ 1 ≤ chunkBytes - buffer.length := by omega
    rw [Upload.take, if_neg Nat.one_ne_zero, if_pos fits, Option.isSome_some]

/-- An upload that has not returned waits for something besides an
interruption. -/
theorem Upload.Inv.waits (inv : s.Inv src key contents events) :
    (∃ result, s.point = .finished result) ∨
      ∃ event, event ≠ .interrupted ∧ (s.step src key event).isSome = true := by
  obtain ⟨point, rest, parts, calls⟩ := s
  cases point with
  | room =>
    have waiting : parts ≠ [] := List.ne_nil_of_length_pos (by rw [inv.2.2.1]; decide)
    obtain ⟨index, member⟩ := List.exists_mem_of_ne_nil parts waiting
    exact .inr ⟨.partDone index (.ok ()), by simp, by simp only [Upload.step, if_pos member, Option.isSome_some]⟩
  | fill buffer =>
    obtain ⟨_, _, _, room, _⟩ := inv
    obtain ⟨count, taken⟩ := @take_isSome ⟨.fill buffer, rest, parts, calls⟩ buffer room
    exact .inr ⟨.read count, by simp, taken⟩
  | drain =>
    obtain ⟨index, member⟩ := List.exists_mem_of_ne_nil parts inv.2.2.2.1
    refine .inr ⟨.partDone index (.ok ()), by simp, ?_⟩
    simp only [Upload.step, if_pos member, Option.isSome_some]
  | completing => exact .inr ⟨.completeDone (.ok ()), by simp, rfl⟩
  | aborting source => exact .inr ⟨.abortDone (.ok ()), by simp, rfl⟩
  | finished result => exact .inl ⟨result, rfl⟩

/-- An interruption leaves everything as it is. -/
theorem Upload.step_interrupted (moved : s.step src key .interrupted = some t) : t = s := by
  cases Upload.step_moves moved with
  | interrupted _ => rfl

/-- Besides interruptions, a run is no longer than its contents allow. -/
theorem Upload.run_length (leads : Leads (Upload.step src key) (Upload.new contents) events s) :
    (events.filter (· ≠ .interrupted)).length + s.ahead ≤ 3 * contents.length + 5 := by
  have kept := leads.invariant (fun told t => t.Inv src key contents told ∧
    (told.filter (· ≠ .interrupted)).length + t.ahead ≤ 3 * contents.length + 5) ⟨.new, ?_⟩ ?_
  · exact kept.2
  · rw [Upload.new, ahead_loopHead]
    exact Nat.le_of_eq (by simp)
  · rintro past u event v ⟨inv, bound⟩ moved
    refine ⟨inv.step moved, ?_⟩
    rw [List.filter_append, List.length_append]
    by_cases told : event = .interrupted
    · rw [told] at moved ⊢
      rw [Upload.step_interrupted moved]
      exact bound
    · have lower := inv.lowers moved told
      have one : ([event].filter (· ≠ .interrupted)).length ≤ 1 := List.length_filter_le _ _
      omega

end Progress

/-- Whatever is read, and in whatever order parts end, an upload sends aligned
parts that begin the contents, two at a time at most. It is completed only
when they are the contents and all have succeeded, it is aborted exactly when
something has failed, and the failure is what is returned. -/
theorem writeMultipart_safe (src : String) (key : ObjectPath) (contents : Bytes) (events : List UploadEvent)
    (s : Upload) (leads : Leads (Upload.step src key) (Upload.new contents) events s) :
    s.submitted.flatten <+: contents ∧ (∀ part ∈ s.submitted, part ≠ []) ∧
    (∀ part ∈ s.submitted.dropLast, part.length = chunkBytes) ∧ s.parts.length ≤ maxUploadParts ∧
    (.complete ∈ s.calls → s.submitted.flatten = contents ∧ s.submitted = chunksOf chunkBytes contents ∧
      ∀ i < s.submitted.length, .partDone i (.ok ()) ∈ events) ∧
    (.abort ∈ s.calls ↔ failures src key events ≠ []) ∧
    (s.point = .finished (.ok ()) → .complete ∈ s.calls ∧ failures src key events = []) ∧
    (∀ error, s.point = .finished (.error error) → ∃ source outcome, failures src key events = [source] ∧
      events.getLast? = some (.abortDone outcome) ∧ error = aborted source outcome) ∧
    (events.filter (· ≠ .interrupted)).length ≤ 3 * contents.length + 5 ∧
    ((∃ result, s.point = .finished result) ∨
      ∃ event, event ≠ .interrupted ∧ (s.step src key event).isSome = true) := by
  have inv := Upload.Inv.run leads
  refine ⟨inv.submitted.2, fun part member => (inv.submitted.1.1 part member).1, inv.submitted.1.2,
    inv.parts_length_le, ?_, inv.abort_iff, ?_, ?_, le_of_add_le_left (Upload.run_length leads), inv.waits⟩
  · intro called
    exact ⟨(inv.completed called).whole, completed_parts leads called, (inv.completed called).succeeded⟩
  · intro finished
    rw [Upload.Inv, finished] at inv
    exact ⟨inv.2.2.2.1, inv.1⟩
  · intro error finished
    rw [Upload.Inv, finished] at inv
    obtain ⟨source, outcome, past, rfl, failed, returned⟩ := inv
    exact ⟨source, outcome, failed.told, List.getLast?_concat, returned⟩

def shortReads : List UploadEvent :=
  [.read 2, .interrupted, .read 1, .read 0, .partDone 0 (.ok ()), .completeDone (.ok ())]

/-- A short read, an interruption and another read make one part. -/
theorem short_reads_uploaded :
    ∃ s, Leads (Upload.step "input" ⟨[], by decide⟩) (Upload.new [1, 2, 3]) shortReads s ∧
      s.calls = [.putPart [1, 2, 3], .complete] ∧ s.submitted.flatten = [1, 2, 3] ∧
      s.submitted = chunksOf chunkBytes [1, 2, 3] ∧ ∀ i < s.submitted.length, .partDone i (.ok ()) ∈ shortReads := by
  have leads : Leads (Upload.step "input" ⟨[], by decide⟩) (Upload.new [1, 2, 3]) shortReads
      { point := .finished (.ok ()), rest := [], parts := [], calls := [.putPart [1, 2, 3], .complete] } := rfl
  have safe := writeMultipart_safe _ _ _ _ _ leads
  exact ⟨_, leads, rfl, safe.2.2.2.2.1 (by decide)⟩

end Datacrate.Remote
