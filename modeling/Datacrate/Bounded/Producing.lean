import Datacrate.Bounded.Pipeline
import Datacrate.Lib.Chunks

namespace Datacrate.Bounded

open Datacrate.Ingest Chunks

variable {env : Setting}

theorem readRows_append {index : Nat} {before : List (Except String StringRecord)}
    {record : Except String StringRecord} {rows : List Row} {row : Row}
    (read : readRows index before = .ok rows) (last : readRow (index + before.length) record = .ok row) :
    readRows index (before ++ [record]) = .ok (rows ++ [row]) := by
  induction before generalizing index rows with
  | nil =>
    cases read
    simp only [List.length_nil, Nat.add_zero] at last
    simp [readRows, last, bind, Except.bind, pure, Except.pure]
  | cons first before ih =>
    simp only [readRows, bind, Except.bind, List.cons_append] at read ⊢
    rcases head : readRow index first with error | start
    · simp [head] at read
    rcases tail : readRows (index + 1) before with error | more
    · simp [head, tail] at read
    simp only [head, tail, pure, Except.pure, Except.ok.injEq] at read
    have next := ih tail (by rwa [List.length_cons, Nat.add_comm before.length, ← Nat.add_assoc] at last)
    simp [next, ← read, pure, Except.pure]

/-- The message of a chunk of rows. -/
def batchOf (rows : List Row) : IngestMessage :=
  .ok (rowBatch rows)

theorem sendChunk_eq (env : Setting) (chunk : List Row) (next : Option (Nat × List (Except String StringRecord))) :
    sendChunk env chunk next = if TextFits chunk then .send (batchOf chunk) next else .panic := by
  unfold sendChunk
  rw [batchFromRows_eq]
  by_cases fits : TextFits chunk
  · simp only [if_pos fits, batchOf]
  · simp only [if_neg fits]

theorem sendChunk_eq_send {chunk : List Row} {message : IngestMessage}
    {next next' : Option (Nat × List (Except String StringRecord))} :
    sendChunk env chunk next = .send message next' ↔ TextFits chunk ∧ message = batchOf chunk ∧ next = next' := by
  rw [sendChunk_eq]
  split
  · rename_i fits
    simp only [Production.send.injEq, fits, true_and, eq_comm]
  · rename_i large
    simp only [reduceCtorEq, large, false_and]

/-- What the reading loop sends if nothing stops it. At nothing it panics. -/
def sendsFrom (env : Setting) (index : Nat) (chunk : List Row) :
    List (Except String StringRecord) → List (Option IngestMessage)
  | [] => if chunk ≠ [] then [batchFromRows env.arrow chunk] else []
  | record :: records =>
    match readRow index record with
    | .error source => [some (.error source)]
    | .ok row =>
      if (chunk ++ [row]).length = env.config.batchSize then
        batchFromRows env.arrow (chunk ++ [row]) :: sendsFrom env (index + 1) [] records
      else sendsFrom env (index + 1) (chunk ++ [row]) records

def sends (env : Setting) : List (Option IngestMessage) :=
  match env.file.opened with
  | .error source => [some (.error (.openInput env.file.path source))]
  | .ok records => sendsFrom env 0 [] records

/-- What a call of `send` leaves to be sent. -/
def following (env : Setting) : Option (Nat × List (Except String StringRecord)) → List (Option IngestMessage)
  | some (index, records) => sendsFrom env index [] records
  | none => []

theorem produce_raised {index : Nat} {chunk : List Row} {records : List (Except String StringRecord)} :
    produce env true index chunk records = .finish := by
  cases records <;> simp [produce]

/-- One turn of the reading loop sends the next message, or none. -/
theorem sendsFrom_produce (env : Setting) (index : Nat) (chunk : List Row) (records : List (Except String StringRecord)) :
    match produce env false index chunk records with
    | .finish => sendsFrom env index chunk records = []
    | .panic => ∃ rest, sendsFrom env index chunk records = none :: rest
    | .keep more => ∃ record rest, records = record :: rest ∧
      sendsFrom env index chunk records = sendsFrom env (index + 1) more rest
    | .send message next => sendsFrom env index chunk records = some message :: following env next := by
  cases records with
  | nil =>
    by_cases empty : chunk = []
    · simp [produce, sendsFrom, empty]
    · simp only [produce, sendsFrom, ne_eq, empty, not_false_eq_true, and_self, if_true, sendChunk_eq, batchFromRows_eq]
      by_cases fits : TextFits chunk
      · simp only [if_pos fits, following, batchOf]
      · simp only [if_neg fits]
        exact ⟨_, rfl⟩
  | cons record rest =>
    rcases parsed : readRow index record with source | row
    · simp [produce, sendsFrom, parsed, following]
    · by_cases filled : (chunk ++ [row]).length = env.config.batchSize
      · simp only [produce, sendsFrom, parsed, Bool.false_eq_true, if_false, if_pos filled, sendChunk_eq, batchFromRows_eq]
        by_cases fits : TextFits (chunk ++ [row])
        · simp only [if_pos fits, following, batchOf]
        · simp only [if_neg fits]
          exact ⟨_, rfl⟩
      · simp only [produce, sendsFrom, parsed, Bool.false_eq_true, if_false, if_neg filled]
        exact ⟨record, rest, rfl, rfl⟩

/-- The messages of the whole input, cut into batches. -/
def Complete (env : Setting) (log : List IngestMessage) : Prop :=
  ∃ rows, parseRows env.file = .ok rows ∧ log = (chunksOf env.config.batchSize rows).map batchOf

/-- The reader has sent full batches of a prefix of the input and keeps what
is left of it in its chunk. -/
def Read (env : Setting) (index : Nat) (records : List (Except String StringRecord)) (chunk : List Row)
    (log : List IngestMessage) : Prop :=
  ∃ (before : List (Except String StringRecord)) (groups : List (List Row)), env.file.opened = .ok (before ++ records) ∧
    before.length = index ∧ readRows 0 before = .ok (groups.flatten ++ chunk) ∧
    (∀ group ∈ groups, group.length = env.config.batchSize) ∧ chunk.length < env.config.batchSize ∧
    log = groups.map batchOf

/-- Production that ended well sent the whole input, unless it saw a
cancellation or sent an error. -/
def Settled (env : Setting) (flag : Bool) (log : List IngestMessage) : Prop :=
  flag = true ∨ Complete env log ∨ ∃ source, .error source ∈ log

section Reading

variable {index : Nat} {records : List (Except String StringRecord)} {chunk : List Row} {log : List IngestMessage}

theorem Read.begin (opened : env.file.opened = .ok records) : Read env 0 records [] [] :=
  ⟨[], [], opened, rfl, rfl, by simp, env.config.batchSize_pos, rfl⟩

theorem Read.complete (read : Read env index [] chunk log) :
    Complete env (log ++ (if chunk = [] then [] else [batchOf chunk])) := by
  obtain ⟨before, groups, opened, _, rows, full, short, rfl⟩ := read
  refine ⟨groups.flatten ++ chunk, ?_, ?_⟩
  · rw [List.append_nil] at opened
    simp only [parseRows, opened, rows]
  · rw [chunksOf_flatten_append env.config.batchSize_pos full, List.map_append]
    split
    · rename_i empty
      simp [empty]
    · rename_i nonempty
      rw [chunksOf_short nonempty short.le, List.map_singleton]

theorem Read.advance {record : Except String StringRecord} {row : Row}
    (read : Read env index (record :: records) chunk log) (parsed : readRow index record = .ok row) :
    if (chunk ++ [row]).length = env.config.batchSize then
      Read env (index + 1) records [] (log ++ [batchOf (chunk ++ [row])])
    else Read env (index + 1) records (chunk ++ [row]) log := by
  obtain ⟨before, groups, opened, length, rows, full, short, rfl⟩ := read
  have opened' : env.file.opened = .ok ((before ++ [record]) ++ records) := by rw [opened]; simp
  have length' : (before ++ [record]).length = index + 1 := by simp [length]
  have more := readRows_append rows (by rwa [Nat.zero_add, length] : readRow (0 + before.length) record = .ok row)
  split
  · rename_i filled
    refine ⟨before ++ [record], groups ++ [chunk ++ [row]], opened', length', ?_, ?_, env.config.batchSize_pos, ?_⟩
    · rw [more]
      simp
    · intro group member
      rcases List.mem_append.mp member with earlier | last
      · exact full group earlier
      · rw [List.mem_singleton.mp last, filled]
    · rw [List.map_append, List.map_singleton]
  · rename_i room
    refine ⟨before ++ [record], groups, opened', length', by rw [more, List.append_assoc], full, ?_, rfl⟩
    rw [List.length_append, List.length_singleton] at room ⊢
    omega

/-- One turn of the loop keeps the record of what was read and sent. -/
theorem Read.produced (flag : Bool) (read : Read env index records chunk log) :
    match produce env flag index chunk records with
    | .finish => Settled env flag log
    | .panic => True
    | .keep more => ∃ record rest, records = record :: rest ∧ Read env (index + 1) rest more log
    | .send message next =>
      match next with
      | some (index, records) => Read env index records [] (log ++ [message])
      | none => Settled env flag (log ++ [message]) := by
  cases records with
  | nil =>
    have complete := read.complete
    by_cases empty : chunk = []
    · simp only [empty, if_true, List.append_nil] at complete
      simp only [produce, empty, ne_eq, not_true_eq_false, false_and, if_false]
      exact Or.inr (Or.inl complete)
    · rw [if_neg empty] at complete
      cases flag with
      | true =>
        simp only [produce, reduceCtorEq, and_false, if_false]
        exact Or.inl rfl
      | false =>
        simp only [produce, ne_eq, empty, not_false_eq_true, and_self, if_true, sendChunk_eq]
        by_cases fits : TextFits chunk
        · rw [if_pos fits]
          exact Or.inr (Or.inl complete)
        · rw [if_neg fits]
          trivial
  | cons record rest =>
    cases flag with
    | true => exact Or.inl rfl
    | false =>
      rcases parsed : readRow index record with source | row
      · simp only [produce, Bool.false_eq_true, if_false, parsed]
        exact Or.inr (Or.inr ⟨source, by simp⟩)
      · have next := read.advance parsed
        simp only [produce, Bool.false_eq_true, if_false, parsed]
        by_cases filled : (chunk ++ [row]).length = env.config.batchSize
        · rw [if_pos filled] at next
          simp only [if_pos filled, sendChunk_eq]
          by_cases fits : TextFits (chunk ++ [row])
          · rw [if_pos fits]
            exact next
          · rw [if_neg fits]
            trivial
        · rw [if_neg filled] at next ⊢
          exact ⟨record, rest, rfl, next⟩

end Reading

/-- Where the producer stands with the channel. -/
def ProducerHolds (env : Setting) (flag : Bool) (channel : System RecordBatch PipelineIoError) : Producer → Prop
  | .start => channel.sender.free = true ∧ channel.enqueued = []
  | .reading index records chunk => channel.sender.free = true ∧ Read env index records chunk channel.enqueued
  | .sending message next => ∃ log, Sending log message channel ∧
    match next with
    | some (index, records) => Read env index records [] (log ++ [message])
    | none => Settled env flag (log ++ [message])
  | .returning outcome => channel.sender.free = true ∧
    (outcome = some (.ok ()) → Settled env flag channel.enqueued)
  | .finished outcome => channel.sender = .dropped ∧
    (outcome = some (.ok ()) → Settled env flag channel.enqueued)

section Steps

variable {transform : Option Callback} {s t : Pipeline} {producer : Producer} {flag : Bool}
  {channel channel' : System RecordBatch PipelineIoError} {action : Action RecordBatch PipelineIoError}

/-- The producer's invariant survives whatever the other threads do to the
channel. -/
theorem ProducerHolds.kept (holds : ProducerHolds env flag channel producer)
    (step : ChannelStep env.memorySizes env.config.kind channel action channel')
    (quiet : ∀ message, action ≠ .send message) (kept : action ≠ .dropSender) :
    ProducerHolds env flag channel' producer := by
  have outside := step.outside_send quiet kept
  cases producer with
  | start =>
    obtain ⟨sender, log⟩ := outside (Or.inl holds.1)
    exact ⟨by rw [sender]; exact holds.1, log.trans holds.2⟩
  | reading index records chunk =>
    obtain ⟨sender, log⟩ := outside (Or.inl holds.1)
    exact ⟨by rw [sender]; exact holds.1, log ▸ holds.2⟩
  | sending message next =>
    obtain ⟨log, sending, after⟩ := holds
    exact ⟨log, step.inside_send quiet kept sending, after⟩
  | returning outcome =>
    obtain ⟨sender, log⟩ := outside (Or.inl holds.1)
    exact ⟨by rw [sender]; exact holds.1, log ▸ holds.2⟩
  | finished outcome =>
    obtain ⟨sender, log⟩ := outside (Or.inr holds.1)
    exact ⟨sender.trans holds.1, log ▸ holds.2⟩

theorem ProducerHolds.raised (holds : ProducerHolds env flag channel producer) :
    ProducerHolds env true channel producer := by
  cases producer with
  | start | reading => exact holds
  | sending message next =>
    obtain ⟨log, sending, after⟩ := holds
    refine ⟨log, sending, ?_⟩
    cases next with
    | none => exact Or.inl rfl
    | some next => exact after
  | returning | finished => exact ⟨holds.1, fun _ => Or.inl rfl⟩

/-- What a finished call of `send` sent. -/
theorem Sending.returned {log : List IngestMessage} {message : IngestMessage} (sending : Sending log message channel)
    {result : Except IngestError Unit} {other : IngestMessage}
    (returned : channel.sender = .returned other result) :
    result = .ok () → channel.enqueued = log ++ [message] := by
  rcases sending with ⟨⟨bytes, pending⟩, _⟩ | ⟨inside | inside, _⟩ | ⟨result', same, logged⟩
  · simp [returned, SendPhase.pending] at pending
  · simp [returned] at inside
  · simp [returned] at inside
  · rw [returned] at same
    cases same
    exact logged

theorem Produces.holds (step : Produces env s t) (holds : ProducerHolds env s.flag s.channel s.producer) :
    ProducerHolds env t.flag t.channel t.producer := by
  cases step with
  | openFail _ start opened sent =>
    rw [start] at holds
    refine ⟨[], holds.2 ▸ sent.begin_send, Or.inr (Or.inr ⟨_, List.mem_singleton_self _⟩)⟩
  | allocate _ start opened =>
    rw [start] at holds
    exact ⟨holds.1, holds.2 ▸ Read.begin opened⟩
  | overflow _ start =>
    rw [start] at holds
    exact ⟨holds.1, fun failed => nomatch failed⟩
  | panic reading =>
    rw [reading] at holds
    exact ⟨holds.1, fun failed => nomatch failed⟩
  | finish reading turn =>
    rw [reading] at holds
    have produced := holds.2.produced s.flag
    rw [turn] at produced
    exact ⟨holds.1, fun _ => produced⟩
  | keep reading turn =>
    rw [reading] at holds
    have produced := holds.2.produced s.flag
    rw [turn] at produced
    obtain ⟨_, _, same, read⟩ := produced
    cases same
    exact ⟨holds.1, read⟩
  | send reading turn sent =>
    rw [reading] at holds
    have produced := holds.2.produced s.flag
    rw [turn] at produced
    exact ⟨_, sent.begin_send, produced⟩
  | proceed sending returned =>
    rw [sending] at holds
    obtain ⟨log, inside, read⟩ := holds
    refine ⟨by rw [returned]; rfl, ?_⟩
    rw [inside.returned returned rfl]
    exact read
  | fail sending returned =>
    exact ⟨by rw [returned]; rfl, fun failed => nomatch failed⟩
  | @last message result sending returned =>
    rw [sending] at holds
    obtain ⟨log, inside, settled⟩ := holds
    refine ⟨by rw [returned]; rfl, fun ended => ?_⟩
    rw [inside.returned returned (Option.some.inj ended)]
    exact settled
  | drop returning dropped =>
    rw [returning] at holds
    obtain ⟨sender, log⟩ := ChannelStep.drop_sender dropped
    exact ⟨sender, log ▸ holds.2⟩

end Steps

end Datacrate.Bounded
