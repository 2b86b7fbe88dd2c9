import Datacrate.Lib.Requests
import Datacrate.Remote.Uploading

namespace Datacrate.Remote

open Datacrate.Ingest Interaction Transition Chunks

section Resume

variable (src : String) (key : ObjectPath)

/-- The last loop of the program of the publication, and the completion. -/
def finishParts (pending : Nat) (parts : List Bytes) : ExceptT PipelineIoError Publishing Unit := do
  awaitParts key pending
  attempt (perform (.complete key parts)) (.uploadObject key)

def sendRest (rest : Bytes) (pending : Nat) (sent : List Bytes) : ExceptT PipelineIoError Publishing Unit := do
  let (pending, parts) ← sendParts src key (chunksOf chunkBytes rest) pending sent
  finishParts key pending parts

def closeUpload : Except PipelineIoError Unit → ExceptT PipelineIoError Publishing Unit
  | .ok () => settled (.ok ())
  | .error source => Program.bind (perform (.abort key)) fun outcome => settled (.error (aborted source outcome))

/-- What is left of the program of the publication at each point. -/
def Upload.resume (s : Upload) : ExceptT PipelineIoError Publishing Unit :=
  match s.point with
  | .room => Program.bind (sendRest src key s.rest s.parts.length s.submitted) (closeUpload key)
  | .fill buffer => Program.bind (sendRest src key (buffer ++ s.rest) s.parts.length s.submitted) (closeUpload key)
  | .drain => Program.bind (finishParts key s.parts.length s.submitted) (closeUpload key)
  | .completing =>
    Program.bind (attempt (perform (.complete key s.submitted)) (.uploadObject key)) (closeUpload key)
  | .aborting source => closeUpload key (.error source)
  | .finished result => settled result

/-- The requests of that program in one step. A buffer is read when its last
read ends the inner loop. -/
def Upload.requests (s : Upload) (event : UploadEvent) (t : Upload) : List (Event PublishResponse) :=
  match event with
  | .read _ =>
    match t.point with
    | .fill (_ :: _) => []
    | _ => [⟨.read src, .ok ()⟩]
  | .interrupted => []
  | .readFailed source => [⟨.read src, .error source⟩]
  | .partDone _ result => [⟨.nextPart key, result⟩]
  | .completeDone result => [⟨.complete key s.submitted, result⟩]
  | .abortDone result => [⟨.abort key, result⟩]

def Upload.trace (s : Upload) : List UploadEvent → List (Event PublishResponse)
  | [] => []
  | event :: events =>
    match s.step src key event with
    | some t => s.requests src key event t ++ t.trace events
    | none => []

end Resume

section Steps

variable {src : String} {key : ObjectPath} {contents : Bytes} {events : List UploadEvent} {s t : Upload}

theorem resume_loopHead : s.loopHead.resume src key =
    Program.bind (sendRest src key s.rest s.parts.length s.submitted) (closeUpload key) := by
  unfold Upload.loopHead
  split <;> rfl

theorem resume_drainHead : s.drainHead.resume src key =
    Program.bind (finishParts key s.parts.length s.submitted) (closeUpload key) := by
  have same : (s.calls ++ [UploadCall.complete]).filterMap UploadCall.part = s.submitted := submitted_append_other rfl
  unfold Upload.drainHead
  split
  · rename_i empty
    rw [empty]
    show Program.bind (attempt (perform (.complete key ((s.calls ++ [UploadCall.complete]).filterMap UploadCall.part)))
      (.uploadObject key)) (closeUpload key) = _
    rw [same]
    rfl
  · rfl

theorem writeMultipart_eq : writeMultipart src contents key = (Upload.new contents).resume src key := by
  rw [Upload.new, resume_loopHead]
  rfl

theorem sendParts_of_room {buffers : List Bytes} {pending : Nat} {sent : List Bytes} (few : pending ≠ maxUploadParts) :
    sendParts src key buffers pending sent = (do
      attempt (perform (.read src)) (.openInput src)
      match buffers with
      | [] => return (pending, sent)
      | buffer :: buffers =>
        if buffer.length < chunkBytes then return (pending + 1, sent ++ [buffer])
        sendParts src key buffers (pending + 1) (sent ++ [buffer])) := by
  cases buffers with
  | nil =>
    rw [sendParts, makeRoom, if_neg few]
    rfl
  | cons buffer buffers =>
    rw [sendParts, makeRoom, if_neg few]
    rfl

/-- The last read of a buffer is the read of the program. -/
theorem filled_traces {buffer : Bytes} (few : s.parts.length ≠ maxUploadParts) (fits : buffer.length ≤ chunkBytes)
    (ended : buffer.length < chunkBytes → s.rest = []) :
    Traces (Program.bind (sendRest src key (buffer ++ s.rest) s.parts.length s.submitted) (closeUpload key))
      [⟨.read src, .ok ()⟩] ((s.filled buffer).resume src key) := by
  have count : (s.push buffer).parts.length = s.parts.length + 1 := List.length_append
  unfold Upload.filled
  by_cases short : buffer.length < chunkBytes
  · rw [ended short, List.append_nil]
    by_cases empty : buffer.length = 0
    · rw [if_neg (not_not.mpr empty), if_pos short, resume_drainHead, sendRest, List.length_eq_zero_iff.mp empty,
        chunksOf_nil, sendParts_of_room few]
      exact .answer .stop
    · have nonempty : buffer ≠ [] := fun none => empty (List.length_eq_zero_iff.mpr none)
      rw [if_pos empty, if_pos short, resume_drainHead, sendRest, chunksOf_short nonempty fits,
        sendParts_of_room few, submitted_push, count]
      dsimp only
      rw [if_pos short]
      exact .answer .stop
  · have full : buffer.length = chunkBytes := by omega
    have nonempty : buffer.length ≠ 0 := by
      rw [full]
      exact chunkBytes_pos.ne'
    rw [if_pos nonempty, if_neg short, resume_loopHead, sendRest, chunksOf_append chunkBytes_pos full, sendParts_of_room few,
      submitted_push, count]
    dsimp only
    rw [if_neg short]
    exact .answer .stop

theorem sendParts_of_full {buffers : List Bytes} {sent : List Bytes} :
    sendParts src key buffers maxUploadParts sent = Program.call (.nextPart key) fun response =>
      match response with
      | .ok () => sendParts src key buffers (maxUploadParts - 1) sent
      | .error source => Program.pure (.error (.uploadObject key source)) := by
  have few : maxUploadParts - 1 ≠ maxUploadParts := by decide
  rw [sendParts_of_room few]
  cases buffers with
  | nil =>
    rw [sendParts, makeRoom, if_pos rfl]
    refine congrArg (Program.call (PublishRequest.nextPart key)) (funext fun response => ?_)
    cases response <;> rfl
  | cons buffer buffers =>
    rw [sendParts, makeRoom, if_pos rfl]
    refine congrArg (Program.call (PublishRequest.nextPart key)) (funext fun response => ?_)
    cases response <;> rfl

theorem finishParts_succ {pending : Nat} {parts : List Bytes} :
    finishParts key (pending + 1) parts = Program.call (.nextPart key) fun response =>
      match response with
      | .ok () => finishParts key pending parts
      | .error source => Program.pure (.error (.uploadObject key source)) := by
  refine congrArg (Program.call (PublishRequest.nextPart key)) (funext fun response => ?_)
  cases response <;> rfl

theorem loopHead_point : s.loopHead.point = .room ∨ s.loopHead.point = .fill [] := by
  unfold Upload.loopHead
  split
  · exact .inl rfl
  · exact .inr rfl

theorem drainHead_point : s.drainHead.point = .completing ∨ s.drainHead.point = .drain := by
  unfold Upload.drainHead
  split
  · exact .inl rfl
  · exact .inr rfl

theorem filled_requests {u : Upload} {buffer : Bytes} {count : Nat} :
    s.requests src key (.read count) (u.filled buffer) = [⟨.read src, .ok ()⟩] := by
  unfold Upload.filled
  by_cases short : buffer.length < chunkBytes
  · rw [if_pos short]
    rcases @drainHead_point (if buffer.length ≠ 0 then u.push buffer else u) with point | point <;>
      simp only [Upload.requests, point]
  · rw [if_neg short]
    rcases @loopHead_point (if buffer.length ≠ 0 then u.push buffer else u) with point | point <;>
      simp only [Upload.requests, point]

theorem take_traces {buffer : Bytes} {count : Nat} (few : s.parts.length ≠ maxUploadParts)
    (room : buffer.length < chunkBytes) (moved : s.take buffer count = some t) :
    Traces (Program.bind (sendRest src key (buffer ++ s.rest) s.parts.length s.submitted) (closeUpload key))
      (s.requests src key (.read count) t) (t.resume src key) := by
  rcases Upload.take_cases moved with ⟨ended, rfl⟩ | ⟨more, rest, split, positive, fits, read⟩
  · rw [filled_requests]
    exact filled_traces few room.le fun _ => ended
  · rw [split, ← List.append_assoc]
    rcases read with ⟨short, rfl⟩ | ⟨long, rfl⟩
    · obtain ⟨first, others, cons⟩ : ∃ first others, buffer ++ more = first :: others := by
        apply List.exists_cons_of_length_pos
        rw [List.length_append]
        omega
      rw [cons]
      exact .stop
    · have whole : (buffer ++ more).length ≤ chunkBytes := by
        rw [List.length_append]
        omega
      rw [filled_requests]
      exact @filled_traces src key { s with rest := rest } _ few whole fun short => absurd short long

/-- Each event is at most one request of the program. -/
theorem resume_step {event : UploadEvent} (inv : s.Inv src key contents events)
    (moved : s.step src key event = some t) :
    Traces (s.resume src key) (s.requests src key event t) (t.resume src key) := by
  unfold Upload.Inv at inv
  cases Upload.step_moves moved with
  | @taken buffer count _ filling took =>
    rw [filling] at inv
    obtain ⟨_, _, bound, room, _⟩ := inv
    rw [Upload.resume, filling]
    exact take_traces bound.ne room took
  | interrupted filling => exact .stop
  | @readFailed buffer source filling =>
    rw [filling] at inv
    obtain ⟨_, _, bound, _, _⟩ := inv
    rw [Upload.resume, filling]
    dsimp only
    rw [sendRest, sendParts_of_room bound.ne]
    exact .answer .stop
  | @roomMade index room waiting =>
    rw [room] at inv
    obtain ⟨_, _, many, _⟩ := inv
    have fewer : (s.parts.erase index).length = maxUploadParts - 1 := by
      rw [List.length_erase_of_mem waiting, many]
    rw [Upload.resume, room]
    dsimp only
    rw [sendRest, many, sendParts_of_full]
    show Traces _ _ (Program.bind (sendRest src key s.rest (s.parts.erase index).length s.submitted) (closeUpload key))
    rw [fewer]
    exact .answer .stop
  | @drained index draining waiting =>
    obtain ⟨left, count⟩ := Nat.exists_eq_succ_of_ne_zero (List.length_pos_of_mem waiting).ne'
    have fewer : (s.parts.erase index).length = left := by
      rw [List.length_erase_of_mem waiting, count, Nat.succ_sub_one]
    rw [resume_drainHead, Upload.resume, draining]
    dsimp only
    rw [count, fewer, finishParts_succ]
    exact .answer .stop
  | partFailed awaiting waiting =>
    rcases awaiting with room | draining
    · rw [room] at inv
      obtain ⟨_, _, many, _⟩ := inv
      rw [Upload.resume, room]
      dsimp only
      rw [sendRest, many, sendParts_of_full]
      exact .answer .stop
    · obtain ⟨left, count⟩ := Nat.exists_eq_succ_of_ne_zero (List.length_pos_of_mem waiting).ne'
      rw [Upload.resume, draining]
      dsimp only
      rw [count, finishParts_succ]
      exact .answer .stop
  | completed completing =>
    rw [Upload.resume, completing]
    exact .answer .stop
  | completeFailed completing =>
    rw [Upload.resume, completing]
    exact .answer .stop
  | abortDone aborting =>
    rw [Upload.resume, aborting]
    exact .answer .stop

theorem resume_run {past : List UploadEvent} (inv : s.Inv src key contents past)
    (leads : Leads (Upload.step src key) s events t) :
    Traces (s.resume src key) (s.trace src key events) (t.resume src key) := by
  induction events generalizing s past with
  | nil =>
    cases leads
    exact .stop
  | cons event events ih =>
    rw [Leads, List.foldlM_cons, Option.bind_eq_bind, Option.bind_eq_some_iff] at leads
    obtain ⟨middle, moved, rest⟩ := leads
    rw [Upload.trace, moved]
    exact (resume_step inv moved).append (ih (inv.step moved) rest)

end Steps

/-- A run of the upload is a run of the program of the publication, and
returns what that returns. -/
theorem writeMultipart_refines {src : String} {key : ObjectPath} {contents : Bytes} {events : List UploadEvent}
    {s : Upload} (leads : Leads (Upload.step src key) (Upload.new contents) events s) :
    Traces (writeMultipart src contents key) ((Upload.new contents).trace src key events) (s.resume src key) := by
  rw [writeMultipart_eq]
  exact resume_run .new leads

end Datacrate.Remote
