import Datacrate.Remote.Publish

namespace Datacrate.Remote

open Datacrate.Ingest

/-- A call on the upload of the store. -/
inductive UploadCall where
  | putPart (data : Bytes)
  | complete
  | abort
  deriving DecidableEq

/-- Where `write_multipart` waits: for a part when the set is full, for the
next read into the buffer, for a part after the last read, for the upload to
complete or to be aborted, or for nothing more. -/
inductive UploadPoint where
  | room
  | fill (buffer : Bytes)
  | drain
  | completing
  | aborting (source : PipelineIoError)
  | finished (result : Except PipelineIoError Unit)
  deriving DecidableEq

/-- What `write_multipart` is told where it waits. A part is known by its
position among all parts. -/
inductive UploadEvent where
  | read (count : Nat)
  | interrupted
  | readFailed (source : String)
  | partDone (index : Nat) (result : Except StoreError Unit)
  | completeDone (result : Except StoreError Unit)
  | abortDone (result : Except StoreError Unit)
  deriving DecidableEq

/-- The reader still has `rest` to give, and `parts` are under way. -/
structure Upload where
  point : UploadPoint
  rest : Bytes
  parts : List Nat
  calls : List UploadCall
  deriving DecidableEq

def UploadCall.part : UploadCall → Option Bytes
  | .putPart data => some data
  | _ => none

def Upload.submitted (s : Upload) : List Bytes :=
  s.calls.filterMap UploadCall.part

/-- The head of the outer loop. -/
def Upload.loopHead (s : Upload) : Upload :=
  if s.parts.length = maxUploadParts then { s with point := .room } else { s with point := .fill [] }

/-- The head of the last loop, after which the upload is completed. -/
def Upload.drainHead (s : Upload) : Upload :=
  if s.parts = [] then { s with point := .completing, calls := s.calls ++ [.complete] }
  else { s with point := .drain }

/-- A part enters the set. -/
def Upload.push (s : Upload) (data : Bytes) : Upload :=
  { s with parts := s.parts ++ [s.submitted.length], calls := s.calls ++ [.putPart data] }

/-- What follows the inner loop. -/
def Upload.filled (s : Upload) (buffer : Bytes) : Upload :=
  let pushed := if buffer.length ≠ 0 then s.push buffer else s
  if buffer.length < chunkBytes then pushed.drainHead else pushed.loopHead

/-- The parts are dropped and the upload is aborted. -/
def Upload.fail (s : Upload) (source : PipelineIoError) : Upload :=
  { s with point := .aborting source, parts := [], calls := s.calls ++ [.abort] }

/-- Only the end of the contents reads as zero bytes. -/
def Upload.take (s : Upload) (buffer : Bytes) (count : Nat) : Option Upload :=
  if count = 0 then
    if s.rest = [] then some (s.filled buffer) else none
  else if count ≤ s.rest.length ∧ count ≤ chunkBytes - buffer.length then
    let buffer := buffer ++ s.rest.take count
    let s := { s with rest := s.rest.drop count }
    some (if buffer.length < chunkBytes then { s with point := .fill buffer } else s.filled buffer)
  else none

def Upload.new (contents : Bytes) : Upload :=
  Upload.loopHead { point := .fill [], rest := contents, parts := [], calls := [] }

def Upload.step (src : String) (key : ObjectPath) (s : Upload) (event : UploadEvent) : Option Upload :=
  match s.point, event with
  | .room, .partDone index result =>
    if index ∈ s.parts then
      match result with
      | .ok () => some { s with parts := s.parts.erase index, point := .fill [] }
      | .error source => some (s.fail (.uploadObject key source))
    else none
  | .fill buffer, .read count => s.take buffer count
  | .fill _, .interrupted => some s
  | .fill _, .readFailed source => some (s.fail (.openInput src source))
  | .drain, .partDone index result =>
    if index ∈ s.parts then
      match result with
      | .ok () => some { s with parts := s.parts.erase index }.drainHead
      | .error source => some (s.fail (.uploadObject key source))
    else none
  | .completing, .completeDone (.ok ()) => some { s with point := .finished (.ok ()) }
  | .completing, .completeDone (.error source) => some (s.fail (.uploadObject key source))
  | .aborting source, .abortDone result => some { s with point := .finished (.error (aborted source result)) }
  | _, _ => none

/-- The failure an event tells of. -/
def UploadEvent.failure (src : String) (key : ObjectPath) : UploadEvent → Option PipelineIoError
  | .readFailed source => some (.openInput src source)
  | .partDone _ (.error source) => some (.uploadObject key source)
  | .completeDone (.error source) => some (.uploadObject key source)
  | _ => none

/-- What each event does, and where it can be told. -/
inductive Upload.Moves (src : String) (key : ObjectPath) (s : Upload) : UploadEvent → Upload → Prop
  | taken {buffer count t} (filling : s.point = .fill buffer) (took : s.take buffer count = some t) :
      Moves src key s (.read count) t
  | interrupted {buffer} (filling : s.point = .fill buffer) : Moves src key s .interrupted s
  | readFailed {buffer source} (filling : s.point = .fill buffer) :
      Moves src key s (.readFailed source) (s.fail (.openInput src source))
  | roomMade {index} (full : s.point = .room) (waiting : index ∈ s.parts) :
      Moves src key s (.partDone index (.ok ())) { s with parts := s.parts.erase index, point := .fill [] }
  | drained {index} (draining : s.point = .drain) (waiting : index ∈ s.parts) :
      Moves src key s (.partDone index (.ok ())) { s with parts := s.parts.erase index }.drainHead
  | partFailed {index source} (awaiting : s.point = .room ∨ s.point = .drain) (waiting : index ∈ s.parts) :
      Moves src key s (.partDone index (.error source)) (s.fail (.uploadObject key source))
  | completed (completing : s.point = .completing) :
      Moves src key s (.completeDone (.ok ())) { s with point := .finished (.ok ()) }
  | completeFailed {source} (completing : s.point = .completing) :
      Moves src key s (.completeDone (.error source)) (s.fail (.uploadObject key source))
  | abortDone {source result} (aborting : s.point = .aborting source) :
      Moves src key s (.abortDone result) { s with point := .finished (.error (aborted source result)) }

/-- A read is of the end, or it moves some of the rest behind the buffer,
which is left open unless it is full. -/
theorem Upload.take_cases {s t : Upload} {buffer : Bytes} {count : Nat} (moved : s.take buffer count = some t) :
    s.rest = [] ∧ t = s.filled buffer ∨
    ∃ more rest, s.rest = more ++ rest ∧ 0 < more.length ∧ more.length ≤ chunkBytes - buffer.length ∧
      ((buffer ++ more).length < chunkBytes ∧ t = { s with rest := rest, point := .fill (buffer ++ more) } ∨
        ¬(buffer ++ more).length < chunkBytes ∧ t = ({ s with rest := rest } : Upload).filled (buffer ++ more)) := by
  unfold Upload.take at moved
  split at moved
  · split at moved
    · rename_i ended
      cases moved
      exact Or.inl ⟨ended, rfl⟩
    · cases moved
  · split at moved
    · rename_i positive fits
      have length : (s.rest.take count).length = count := by
        rw [List.length_take, Nat.min_eq_left fits.1]
      cases moved
      refine Or.inr ⟨s.rest.take count, s.rest.drop count, (List.take_append_drop _ _).symm, by omega, by omega, ?_⟩
      split
      · rename_i short
        exact Or.inl ⟨short, rfl⟩
      · rename_i long
        exact Or.inr ⟨long, rfl⟩
    · cases moved

theorem Upload.step_moves {src : String} {key : ObjectPath} {s t : Upload} {event : UploadEvent}
    (moved : s.step src key event = some t) : s.Moves src key event t := by
  obtain ⟨point, rest, parts, calls⟩ := s
  cases point with
  | room =>
    cases event with
    | partDone index result =>
      simp only [Upload.step] at moved
      split at moved
      · rename_i waiting
        cases result <;> cases moved
        · exact .partFailed (.inl rfl) waiting
        · exact .roomMade rfl waiting
      · cases moved
    | _ => cases moved
  | fill buffer =>
    cases event with
    | read count => exact .taken rfl moved
    | interrupted =>
      cases moved
      exact .interrupted rfl
    | readFailed source =>
      cases moved
      exact .readFailed rfl
    | _ => cases moved
  | drain =>
    cases event with
    | partDone index result =>
      simp only [Upload.step] at moved
      split at moved
      · rename_i waiting
        cases result <;> cases moved
        · exact .partFailed (.inr rfl) waiting
        · exact .drained rfl waiting
      · cases moved
    | _ => cases moved
  | completing =>
    cases event with
    | completeDone result =>
      cases result <;> cases moved
      · exact .completeFailed rfl
      · exact .completed rfl
    | _ => cases moved
  | aborting source =>
    cases event with
    | abortDone result =>
      cases moved
      exact .abortDone rfl
    | _ => cases moved
  | finished result => cases moved

end Datacrate.Remote
