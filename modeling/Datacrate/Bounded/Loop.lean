import Datacrate.Bounded.Undisturbed

namespace Datacrate.Bounded

open Datacrate.Ingest

section Loop

variable (env : Setting) (transform : Option Callback)

/-- Whether the transport takes a message at all. -/
def admitted (message : IngestMessage) : Except IngestError Unit :=
  match env.config.kind with
  | .count _ => .ok ()
  | .budgeted control => (sendCharge env.memorySizes control message).map fun _ => ()

/-- Whether the transport can account for a batch. -/
def accounted (batch : RecordBatch) : Except IngestError Unit :=
  match env.config.kind with
  | .count _ => .ok ()
  | .budgeted _ => (charge env.memorySizes batch).map fun _ => ()

/-- What follows from the outcome of the callback. -/
def conclude (report : PipelineReport) (outcome : Except PipelineIoError RecordBatch) :
    Except IngestError CheckedIngestBatch := do
  let result ← (callbackOutcome report outcome).mapError .io
  accounted env result
  (CheckedIngestBatch.tryNew result).mapError .io

/-- One turn of a loop that sends a message, receives and transforms it, and
checks what comes of it, all by itself. -/
def turn (answer : RecordBatch → Except PipelineIoError RecordBatch) (report : PipelineReport)
    (message : IngestMessage) : Except IngestError CheckedIngestBatch := do
  admitted env message
  let batch ← message.mapError .io
  conclude env report (answer batch)

/-- What the loop has written and its report, after one more message; or it
panics, because there is no message. -/
def advance (answer : RecordBatch → Except PipelineIoError RecordBatch) (state : List RecordBatch × PipelineReport)
    (sent : Option IngestMessage) : ExceptT IngestError Option (List RecordBatch × PipelineReport) :=
  ExceptT.mk (sent.map fun message => do
    let checked ← turn env answer state.2 message
    return (state.1 ++ [checked.batch], accumulateBatchStats env.hashRow state.2 checked))

/-- The whole loop on one thread: the batches it writes, and its report. No
outcome is a panic. -/
def loop (answer : RecordBatch → Except PipelineIoError RecordBatch) (sent : List (Option IngestMessage)) :
    Option (Except IngestError (List RecordBatch × PipelineReport)) :=
  (sent.foldlM (advance env answer) ([], .default)).run

/-- The outcomes that the configured callback may have; without one the batch
stays as it is. -/
def Answers (batch : RecordBatch) (outcome : Except PipelineIoError RecordBatch) : Prop :=
  match transform with
  | none => outcome = .ok batch
  | some callback => callback batch outcome

/-- A turn of the loop with any outcome that the callback may have. -/
inductive Turn (report : PipelineReport) (message : IngestMessage) : Except IngestError CheckedIngestBatch → Prop
  | refused {error} : admitted env message = .error error → Turn report message (.error error)
  | unread {source} : admitted env message = .ok () → message = .error source → Turn report message (.error (.io source))
  | handled {batch outcome} : admitted env message = .ok () → message = .ok batch → Answers transform batch outcome →
      Turn report message (conclude env report outcome)

/-- The loop may write these batches for these messages. -/
inductive Handles : List IngestMessage → List RecordBatch → PipelineReport → Prop
  | nothing : Handles [] [] .default
  | more {past written report message checked} : Handles past written report →
      Turn env transform report message (.ok checked) →
      Handles (past ++ [message]) (written ++ [checked.batch]) (accumulateBatchStats env.hashRow report checked)

/-- The loop may stop with this error. -/
def Stops (error : IngestError) : Prop :=
  ∃ past message rest written report, sends env = past.map some ++ some message :: rest ∧
    Handles env transform past written report ∧
    Turn env transform report message (.error error)

/-- The loop comes to a batch whose transformation outgrows the budget that
other batches in flight have left. -/
def Crowded (error : IngestError) : Prop :=
  ∃ past batch rest written report value, sends env = past.map some ++ some (.ok batch) :: rest ∧
    Handles env transform past written report ∧ Answers transform batch (.ok value) ∧
    Outgrown env.memorySizes env.config.kind batch value error

end Loop

section Turns

variable {env : Setting} {transform : Option Callback} {report : PipelineReport} {message : IngestMessage}
  {answer : RecordBatch → Except PipelineIoError RecordBatch} {error : IngestError}

theorem admitted_refused (refused : Refused env.memorySizes env.config.kind message error) :
    admitted env message = .error error := by
  unfold admitted
  unfold Refused at refused
  generalize env.config.kind = kind at refused ⊢
  cases kind with
  | count capacity => exact refused.elim
  | budgeted control => simp only [refused, Except.map]

theorem admitted_fits (fits : Fits env.memorySizes env.config.kind message) : admitted env message = .ok () := by
  unfold admitted
  unfold Fits at fits
  generalize env.config.kind = kind at fits ⊢
  cases kind with
  | count capacity => rfl
  | budgeted control =>
    obtain ⟨bytes, charged⟩ := fits
    simp only [charged, Except.map]

theorem accounted_fits {batch : RecordBatch} (fits : Fits env.memorySizes env.config.kind (.ok batch : IngestMessage)) :
    accounted env batch = .ok () := by
  unfold accounted
  unfold Fits at fits
  generalize env.config.kind = kind at fits ⊢
  cases kind with
  | count capacity => rfl
  | budgeted control =>
    obtain ⟨bytes, charged⟩ := fits
    simp only [(sendCharge_batch_iff.mp charged).1, Except.map]

theorem conclude_ok {value : RecordBatch} : conclude env report (.ok value) =
    (accounted env value).bind fun _ => (CheckedIngestBatch.tryNew value).mapError .io :=
  rfl

/-- What the transport makes of a transformed batch is what the loop makes
of it, unless the batch outgrew the budget. -/
theorem conclude_transformed {batch value : RecordBatch} {result : Except IngestError RecordBatch}
    (transformed : Transformed env.memorySizes env.config.kind batch value result) :
    conclude env report (.ok value) = result.bind (fun final => (CheckedIngestBatch.tryNew final).mapError .io) ∨
      ∃ error, result = .error error ∧ Outgrown env.memorySizes env.config.kind batch value error := by
  cases transformed with
  | fits charged =>
    left
    have fine : accounted env value = .ok () := by
      unfold accounted
      generalize env.config.kind = kind at charged ⊢
      cases kind with
      | count capacity => rfl
      | budgeted control =>
        obtain ⟨bytes, cost⟩ := charged control rfl
        simp only [cost, Except.map]
    rw [conclude_ok, fine]
    rfl
  | @overflow control error budgeted cost =>
    left
    have failed : accounted env value = .error error := by
      unfold accounted
      simp only [budgeted, cost, Except.map]
    rw [conclude_ok, failed]
    rfl
  | outgrown grown => exact Or.inr ⟨_, rfl, grown⟩

end Turns

section Input

open Chunks

variable {env : Setting} {index : Nat} {records : List (Except String StringRecord)} {chunk rows : List Row}
  {source : PipelineIoError}

end Input

end Datacrate.Bounded
