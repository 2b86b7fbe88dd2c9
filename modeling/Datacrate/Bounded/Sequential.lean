import Datacrate.Bounded.Loop
import Datacrate.Bounded.Reporting
import Datacrate.Bounded.Liveness

namespace Datacrate.Bounded

open Datacrate.Ingest

variable {env : Setting} {transform : Option Callback} {s t : Pipeline} {cause : Cause}

/-- A step of a run that nobody cancels and no fault hits. -/
def Undisturbed (env : Setting) (transform : Option Callback) (s t : Pipeline) : Prop :=
  ∃ cause, (cause = .work ∨ cause = .spurious) ∧ PipelineStep env transform s cause t

theorem Undisturbed.moves (step : Undisturbed env transform s t) : PipelineMoves env transform s t := by
  obtain ⟨cause, _, move⟩ := step
  exact ⟨cause, move⟩

/-- How production ended: everything is sent, or the consumer failed, or the
transport refused the next message. -/
def Produced (env : Setting) (consumer : Consumer) (channel : System RecordBatch PipelineIoError) :
    Option (Except IngestError Unit) → Prop
  | none => True
  | some (.ok ()) => sends env = channel.enqueued.map some
  | some (.error error) => (∃ failed, consumer = .finished (.error failed)) ∨
    ∃ message rest, Refused env.memorySizes env.config.kind message error ∧
      sends env = channel.enqueued.map some ++ some message :: rest

/-- How far the producer has come in what it sends of the input. -/
def ProducerFollows (env : Setting) (consumer : Consumer) (channel : System RecordBatch PipelineIoError) : Producer → Prop
  | .start => channel.sender.free = true ∧ channel.enqueued = []
  | .reading index records chunk =>
    channel.sender.free = true ∧ sends env = channel.enqueued.map some ++ sendsFrom env index chunk records
  | .sending message next => ∃ log, Sending log message channel ∧
    sends env = log.map some ++ some message :: following env next ∧
    ∀ other error, channel.sender = .returned other (.error error) →
      channel.receiver = .dropped ∨ Refused env.memorySizes env.config.kind message error ∧ channel.enqueued = log
  | .returning outcome => channel.sender.free = true ∧ Produced env consumer channel outcome
  | .finished outcome => channel.sender = .dropped ∧ Produced env consumer channel outcome

/-- How the consumer ended. -/
def Concluded (env : Setting) (transform : Option Callback) (written : List RecordBatch)
    (channel : System RecordBatch PipelineIoError) : Except IngestError PipelineReport → Prop
  | .ok report => channel.sender = .dropped ∧ Handles env transform channel.enqueued written report
  | .error error => Stops env transform error ∨ Crowded env transform error

/-- How far the consumer has come in the loop. -/
def ConsumerFollows (env : Setting) (transform : Option Callback) (written : List RecordBatch)
    (channel : System RecordBatch PipelineIoError) : Consumer → Prop
  | .start => channel.receiver.free = true ∧ channel.taken = [] ∧ written = []
  | .receiving report => ∃ past, Receiving past channel ∧ Handles env transform past written report ∧
    Fetching env.memorySizes env.config.kind channel
  | .checking report batch | .transforming report batch => ∃ past, channel.receiver.free = true ∧
    channel.taken = past ++ [.ok batch] ∧ Handles env transform past written report ∧
    Holding env.memorySizes env.config.kind batch channel
  | .validating report result => ∃ past batch, channel.receiver.free = true ∧ channel.taken = past ++ [.ok batch] ∧
    Handles env transform past written report ∧
    Turn env transform report (.ok batch) ((CheckedIngestBatch.tryNew result).mapError .io)
  | .writing report checked => ∃ past batch, channel.receiver.free = true ∧ channel.taken = past ++ [.ok batch] ∧
    Handles env transform past written report ∧ Turn env transform report (.ok batch) (.ok checked)
  | .releasing report => channel.receiver.free = true ∧ Handles env transform channel.taken written report
  | .draining report | .closing report => channel.receiver.free = true ∧ Concluded env transform written channel (.ok report)
  | .unwinding result => channel.receiver.free = true ∧ Concluded env transform written channel result
  | .finished result => channel.receiver = .dropped ∧ Concluded env transform written channel result

/-- The calling thread has the outcome of the loop. -/
def Decides (env : Setting) (transform : Option Callback) (s : Pipeline) : Except IngestError PipelineReport → Prop
  | .ok report => (∃ result, s.consumer = .finished result) ∧ ∃ sent base admitted peak,
    sends env = sent.map some ∧ Handles env transform sent s.written base ∧
    report = { base with admittedBytes := admitted, peakAdmittedBytes := peak }
  | .error error => Stops env transform error ∨ Crowded env transform error

def MainFollows (env : Setting) (transform : Option Callback) (s : Pipeline) : Prop :=
  match s.main with
  | .start | .creating | .connecting | .running | .panicked => True
  | .deciding result => Decides env transform s result
  | .syncing report | .renaming report | .syncingParent report => Decides env transform s (.ok report)
  | .done result => Decides env transform s result ∧ ∀ error, result = .error error → s.published = none

/-- The threads together do what the loop does. -/
structure Sequenced (env : Setting) (transform : Option Callback) (s : Pipeline) : Prop where
  flag : s.flag = false
  quiet : Quiet env.memorySizes env.config.kind s.channel
  fitting : ∀ message ∈ s.channel.enqueued, Fits env.memorySizes env.config.kind message
  sent : s.channel.enqueued.map some <+: sends env
  producer : ProducerFollows env s.consumer s.channel s.producer
  consumer : ConsumerFollows env transform s.written s.channel s.consumer
  main : MainFollows env transform s

section Steps

variable {producer : Producer} {consumer : Consumer} {written : List RecordBatch}
  {channel channel' : System RecordBatch PipelineIoError} {action : Action RecordBatch PipelineIoError}
  {error : IngestError} {report : PipelineReport} {message : IngestMessage}

/-- The loop stops at a message whose turn fails. -/
theorem Handles.stops {past : List IngestMessage} (handles : Handles env transform past written report)
    (made : Turn env transform report message (.error error)) (sent : (past ++ [message]).map some <+: sends env) :
    Stops env transform error := by
  obtain ⟨rest, whole⟩ := sent
  refine ⟨past, message, rest, written, report, ?_, handles, made⟩
  rw [← whole, List.map_append, List.append_assoc]
  rfl

theorem Produced.kept {outcome : Option (Except IngestError Unit)} (old : Produced env s.consumer channel outcome)
    (log : channel'.enqueued = channel.enqueued)
    (lasting : ∀ result, s.consumer = .finished result → t.consumer = .finished result) :
    Produced env t.consumer channel' outcome := by
  rcases outcome with _ | error | done
  · trivial
  · simp only [Produced, log] at old ⊢
    exact old.imp_left fun ⟨failed, ended⟩ => ⟨failed, lasting _ ended⟩
  · simp only [Produced, log] at old ⊢
    exact old

theorem ProducerFollows.mono (old : ProducerFollows env s.consumer channel producer)
    (lasting : ∀ result, s.consumer = .finished result → t.consumer = .finished result) :
    ProducerFollows env t.consumer channel producer := by
  cases producer with
  | start | reading | sending => exact old
  | returning | finished => exact ⟨old.1, old.2.kept rfl lasting⟩

/-- What a message is added to is known before it is added. -/
theorem ChannelStep.grows (step : ChannelStep env.memorySizes env.config.kind channel action channel') :
    channel'.enqueued = channel.enqueued ∨
      ∃ message bytes, channel.sender.pending = some (message, bytes) ∧
        channel'.enqueued = channel.enqueued ++ [message] := by
  have move := step.sender_move
  generalize channel.sender = before, channel'.sender = after, channel'.enqueued = log at move ⊢
  cases move with
  | @push message bytes => exact Or.inr ⟨message, bytes, rfl, rfl⟩
  | _ => exact Or.inl rfl

/-- A receiver that is gone stays gone. -/
theorem ChannelStep.receiver_gone (step : ChannelStep env.memorySizes env.config.kind channel action channel')
    (sound : Sound env.memorySizes channel env.config.kind) (gone : channel.receiver = .dropped) :
    channel'.receiver = .dropped := by
  have move := step.receiver_move sound
  generalize channel.receiver = before, channel'.receiver = after, channel'.taken = log at gone move ⊢
  subst gone
  cases move with
  | same | notified => rfl
  | begin free | drop free => cases free

/-- What the producer has sent survives whatever the other threads do. -/
theorem ProducerFollows.kept (old : ProducerFollows env s.consumer channel producer)
    (step : ChannelStep env.memorySizes env.config.kind channel action channel')
    (sound : Sound env.memorySizes channel env.config.kind) (calm : Quiet env.memorySizes env.config.kind channel)
    (quiet : ∀ message, action ≠ .send message) (kept : action ≠ .dropSender)
    (lasting : ∀ result, s.consumer = .finished result → t.consumer = .finished result) :
    ProducerFollows env t.consumer channel' producer := by
  have outside := step.outside_send quiet kept
  cases producer with
  | start =>
    obtain ⟨sender, log⟩ := outside (Or.inl old.1)
    exact ⟨by rw [sender]; exact old.1, log.trans old.2⟩
  | reading index records chunk =>
    obtain ⟨sender, log⟩ := outside (Or.inl old.1)
    exact ⟨by rw [sender]; exact old.1, log ▸ old.2⟩
  | sending message next =>
    obtain ⟨log, sending, whole, refused⟩ := old
    refine ⟨log, step.inside_send quiet kept sending, whole, fun other error failed => ?_⟩
    rcases step.denied sound calm failed with ⟨before, _⟩ | ⟨same, _⟩ | gone
    · obtain ⟨sender, same⟩ := outside (Or.inl (by rw [before]; rfl))
      rcases refused other error before with gone | ⟨reason, unsent⟩
      · exact Or.inl (step.receiver_gone sound gone)
      · exact Or.inr ⟨reason, same.trans unsent⟩
    · exact absurd same (quiet other)
    · exact Or.inl gone
  | returning outcome =>
    obtain ⟨sender, log⟩ := outside (Or.inl old.1)
    exact ⟨by rw [sender]; exact old.1, old.2.kept log lasting⟩
  | finished outcome =>
    obtain ⟨sender, log⟩ := outside (Or.inr old.1)
    exact ⟨sender.trans old.1, old.2.kept log lasting⟩

/-- The receiver is gone once the consumer has ended, and not before. -/
theorem ConsumerFollows.ended (holds : ConsumerFollows env transform written channel consumer)
    (gone : channel.receiver = .dropped) : ∃ result, consumer = .finished result := by
  have free : channel.receiver.free ≠ true := by simp [gone, ReceivePhase.free]
  cases consumer with
  | finished result => exact ⟨result, rfl⟩
  | receiving report =>
    obtain ⟨past, receiving, _⟩ := holds
    simp [Receiving, gone] at receiving
  | checking | transforming =>
    obtain ⟨_, open', _⟩ := holds
    exact absurd open' free
  | validating | writing =>
    obtain ⟨_, _, open', _⟩ := holds
    exact absurd open' free
  | start | releasing | draining | closing | unwinding => exact absurd holds.1 free

theorem Produces.follows (step : Produces env s t) (sound : Sound env.memorySizes s.channel env.config.kind)
    (old : Sequenced env transform s) : ProducerFollows env t.consumer t.channel t.producer := by
  have holds := old.producer
  -- A call of `send` that failed tells how production ends.
  have failed : ∀ {log message following error other}, sends env = log.map some ++ some message :: following →
      (∀ other error, s.channel.sender = .returned other (.error error) → s.channel.receiver = .dropped ∨
        Refused env.memorySizes env.config.kind message error ∧ s.channel.enqueued = log) →
      s.channel.sender = .returned other (.error error) → Produced env s.consumer s.channel (some (.error error)) := by
    intro log message following error other whole refused returned
    rcases refused other error returned with gone | ⟨reason, unsent⟩
    · obtain ⟨result, ended⟩ := old.consumer.ended gone
      have concluded := old.consumer
      rw [ended] at concluded
      cases result with
      | error failed => exact Or.inl ⟨failed, ended⟩
      | ok report =>
        have dropped := concluded.2.1
        rw [returned] at dropped
        cases dropped
    · exact Or.inr ⟨message, following, reason, unsent ▸ whole⟩
  have begun : ∀ {message channel}, ChannelStep env.memorySizes env.config.kind s.channel (.send message) channel →
      ∀ other error, channel.sender = .returned other (.error error) → channel.receiver = .dropped ∨
        Refused env.memorySizes env.config.kind message error ∧ channel.enqueued = s.channel.enqueued := by
    intro message channel moved other error returned
    rcases moved.denied sound old.quiet returned with ⟨_, quiet⟩ | ⟨same, reason, unsent⟩ | gone
    · exact absurd rfl (quiet message)
    · cases same
      exact Or.inr ⟨reason, unsent⟩
    · exact Or.inl gone
  cases step with
  | openFail _ start opened moved =>
    rw [start] at holds
    refine ⟨_, moved.begin_send, ?_, begun moved⟩
    simp only [holds.2, sends, opened, following, List.map_nil, List.nil_append]
  | allocate _ start opened =>
    rw [start] at holds
    refine ⟨holds.1, ?_⟩
    simp only [holds.2, sends, opened, List.map_nil, List.nil_append]
  | overflow _ phase | panic phase =>
    rw [phase] at holds
    exact ⟨holds.1, trivial⟩
  | @finish index records chunk reading turn =>
    rw [reading] at holds
    rw [old.flag] at turn
    have produced := sendsFrom_produce env index chunk records
    rw [turn] at produced
    refine ⟨holds.1, ?_⟩
    show sends env = s.channel.enqueued.map some
    rw [holds.2, produced, List.append_nil]
  | @keep index record records chunk more reading turn =>
    rw [reading] at holds
    rw [old.flag] at turn
    have produced := sendsFrom_produce env index chunk (record :: records)
    rw [turn] at produced
    obtain ⟨_, _, same, next⟩ := produced
    cases same
    exact ⟨holds.1, by rw [holds.2, next]⟩
  | @send index records chunk message next channel reading turn moved =>
    rw [reading] at holds
    rw [old.flag] at turn
    have produced := sendsFrom_produce env index chunk records
    rw [turn] at produced
    exact ⟨_, moved.begin_send, by rw [holds.2, produced], begun moved⟩
  | proceed sending returned =>
    rw [sending] at holds
    obtain ⟨log, inside, whole, _⟩ := holds
    refine ⟨by rw [returned]; rfl, ?_⟩
    rw [inside.returned returned rfl, whole, List.map_append, List.append_assoc]
    rfl
  | fail sending returned =>
    rw [sending] at holds
    obtain ⟨log, _, whole, refused⟩ := holds
    exact ⟨by rw [returned]; rfl, failed whole refused returned⟩
  | @last message result sending returned =>
    rw [sending] at holds
    obtain ⟨log, inside, whole, refused⟩ := holds
    refine ⟨by rw [returned]; rfl, ?_⟩
    rcases result with error | done
    · exact failed whole refused returned
    · show sends env = s.channel.enqueued.map some
      rw [inside.returned returned rfl, whole, List.map_append]
      rfl
  | drop returning moved =>
    rw [returning] at holds
    obtain ⟨sender, log⟩ := moved.drop_sender
    exact ⟨sender, holds.2.kept (s := s) (t := s) log fun _ => id⟩

/-- The messages that are in the channel are those of the input, in order. -/
theorem Sequenced.grown (old : Sequenced env transform s)
    (step : ChannelStep env.memorySizes env.config.kind s.channel action channel') :
    channel'.enqueued.map some <+: sends env := by
  rcases step.grows with same | ⟨message, bytes, pending, log⟩
  · rw [same]
    exact old.sent
  · rw [log]
    have holds := old.producer
    have outside : ¬ (s.channel.sender.free = true ∨ s.channel.sender = .dropped) := by
      intro outside
      cases phase : s.channel.sender <;> simp_all [SendPhase.pending, SendPhase.free]
    cases phase : s.producer with
    | start | reading | returning =>
      rw [phase] at holds
      exact absurd (Or.inl holds.1) outside
    | finished =>
      rw [phase] at holds
      exact absurd (Or.inr holds.1) outside
    | sending sent next =>
      rw [phase] at holds
      obtain ⟨base, sending, whole, _⟩ := holds
      obtain ⟨rfl, same⟩ : sent = message ∧ s.channel.enqueued = base := by
        rcases sending with ⟨⟨_, known⟩, same⟩ | ⟨inside | inside, _⟩ | ⟨_, inside, _⟩
        · rw [pending] at known
          cases known
          exact ⟨rfl, same⟩
        · rw [inside] at pending
          cases pending
        · rw [inside] at pending
          cases pending
        · rw [inside] at pending
          cases pending
      rw [whole, same]
      exact ⟨following env next, by simp⟩

theorem Concluded.kept {result : Except IngestError PipelineReport} (old : Concluded env transform written channel result)
    (step : ChannelStep env.memorySizes env.config.kind channel action channel') :
    Concluded env transform written channel' result := by
  cases result with
  | error => exact old
  | ok report =>
    obtain ⟨gone, handles⟩ := old
    obtain ⟨gone', log⟩ := step.sender_gone gone
    exact ⟨gone', log ▸ handles⟩

/-- How far the consumer has come survives whatever the other threads do, and
the release of its leases. -/
theorem ConsumerFollows.kept (old : ConsumerFollows env transform written channel consumer)
    (step : ChannelStep env.memorySizes env.config.kind channel action channel')
    (sound : Sound env.memorySizes channel env.config.kind) (calm : Quiet env.memorySizes env.config.kind channel)
    (quiet : action ≠ .recv) (kept : action ≠ .dropReceiver) (whole : ∀ outcome, action ≠ .transform outcome) :
    ConsumerFollows env transform written channel' consumer := by
  have free : channel.receiver.free = true → channel'.receiver.free = true ∧ channel'.taken = channel.taken := by
    intro free
    obtain ⟨receiver, taken⟩ := step.outside_recv sound quiet kept (Or.inl free)
    exact ⟨by rw [receiver]; exact free, taken⟩
  cases consumer with
  | start =>
    obtain ⟨outside, taken, written⟩ := old
    exact ⟨(free outside).1, (free outside).2.trans taken, written⟩
  | receiving report =>
    obtain ⟨past, receiving, handles, fetching⟩ := old
    exact ⟨past, step.inside_recv sound quiet kept receiving, handles,
      step.fetching calm whole (fun same => absurd same quiet) fetching⟩
  | checking | transforming =>
    obtain ⟨past, outside, taken, handles, holding⟩ := old
    refine ⟨past, (free outside).1, (free outside).2.trans taken, handles, fun lease member => holding lease ?_⟩
    refine step.held whole ?_ lease member
    intro polling
    rw [polling] at outside
    cases outside
  | validating | writing =>
    obtain ⟨past, batch, outside, taken, rest⟩ := old
    exact ⟨past, batch, (free outside).1, (free outside).2.trans taken, rest⟩
  | releasing report =>
    obtain ⟨outside, handles⟩ := old
    refine ⟨(free outside).1, ?_⟩
    rw [(free outside).2]
    exact handles
  | draining | closing | unwinding => exact ⟨(free old.1).1, old.2.kept step⟩
  | finished => exact ⟨step.receiver_gone sound old.1, old.2.kept step⟩

theorem Fetching.empty {memorySizes : RecordBatch → List Nat} {kind : ChannelKind} (nothing : channel.held = []) :
    Fetching memorySizes kind channel := by
  refine ⟨fun _ => nothing, fun batch _ lease member => ?_⟩
  rw [nothing] at member
  cases member

theorem Consumes.follows (step : Consumes env transform s cause t) (calm : cause = .work ∨ cause = .spurious)
    (sound : Sound env.memorySizes s.channel env.config.kind) (old : Sequenced env transform s) :
    ConsumerFollows env transform t.written t.channel t.consumer := by
  have holds := old.consumer
  have taken_sent : s.channel.taken.map some <+: sends env := by
    refine List.IsPrefix.trans (List.IsPrefix.map some ⟨s.channel.state.queue.map payload ++ s.channel.discarded, ?_⟩) old.sent
    rw [sound.order, List.append_assoc]
  have fits : ∀ {past message}, s.channel.taken = past ++ [message] →
      Fits env.memorySizes env.config.kind message ∧ (past ++ [message]).map some <+: sends env := by
    intro past message taken
    refine ⟨old.fitting message ?_, taken ▸ taken_sent⟩
    rw [sound.order, taken]
    simp
  cases step with
  | refuse _ _ raised | interrupt _ raised | abandon _ raised => exact absurd (old.flag.symm.trans raised) (by simp)
  | failWrite | failClose => simp at calm
  | start _ start _ moved idle =>
    rw [start] at holds
    obtain ⟨_, taken, written⟩ := holds
    have receiving := moved.begin_recv sound
    rw [taken] at receiving
    refine ⟨[], receiving, ?_, moved.fetching old.quiet (by simp) (fun _ => idle.1) (.empty idle.1)⟩
    rw [written]
    exact .nothing
  | @fail report error receiving returned =>
    rw [receiving] at holds
    obtain ⟨past, inside, handles, _⟩ := holds
    refine ⟨by rw [returned]; rfl, Or.inl ?_⟩
    rcases inside.returned_cases returned with ⟨message, delivered, taken⟩ | cancelled | ⟨ended, _⟩
    · cases message with
      | ok lease => cases delivered
      | error source =>
        cases delivered
        obtain ⟨fine, sent⟩ := fits taken
        exact handles.stops (.unread (admitted_fits fine) rfl) sent
    · rw [cancelled] at returned
      exact absurd returned old.quiet.heard
    · cases ended
  | exhaust receiving returned =>
    rw [receiving] at holds
    obtain ⟨past, inside, handles, _⟩ := holds
    obtain ⟨taken, gone, all⟩ := inside.ended returned
    refine ⟨by rw [returned]; rfl, gone, ?_⟩
    rw [← all, taken]
    exact handles
  | receive receiving returned =>
    rw [receiving] at holds
    obtain ⟨past, inside, handles, fetching⟩ := holds
    exact ⟨past, by rw [returned]; rfl, inside.got returned, handles, fetching.2 _ returned⟩
  | check checking =>
    rw [checking] at holds
    exact holds
  | @skip report batch transforming absent =>
    rw [transforming] at holds
    obtain ⟨past, free, taken, handles, _⟩ := holds
    obtain ⟨fine, _⟩ := fits taken
    have made : Turn env transform report (.ok batch) (conclude env report (.ok batch)) :=
      .handled (admitted_fits fine) rfl (by rw [absent]; exact rfl)
    rw [conclude_ok, accounted_fits fine] at made
    exact ⟨past, batch, free, taken, handles, made⟩
  | @transform report batch callback outcome channel result transforming given called moved returned =>
    rw [transforming] at holds
    obtain ⟨past, free, taken, handles, holding⟩ := holds
    obtain ⟨receiver, kept⟩ := moved.outside_recv sound (by simp) (by simp) (Or.inl free)
    have made : Turn env transform report (.ok batch) (conclude env report outcome) :=
      .handled (admitted_fits (fits taken).1) rfl (by rw [given]; exact called)
    have left := moved.transformed_cases sound holding returned
    refine ⟨past, batch, by rw [receiver]; exact free, kept.trans taken, handles, ?_⟩
    cases outcome with
    | error source => cases left
    | ok value =>
      rcases conclude_transformed left with same | ⟨_, absurd', _⟩
      · rw [same] at made
        exact made
      · cases absurd'
  | @failTransform report batch callback outcome channel error transforming given called moved returned =>
    rw [transforming] at holds
    obtain ⟨past, free, taken, handles, holding⟩ := holds
    obtain ⟨receiver, _⟩ := moved.outside_recv sound (by simp) (by simp) (Or.inl free)
    obtain ⟨fine, sent⟩ := fits taken
    have made : Turn env transform report (.ok batch) (conclude env report outcome) :=
      .handled (admitted_fits fine) rfl (by rw [given]; exact called)
    have left := moved.transformed_cases sound holding returned
    refine ⟨by rw [receiver]; exact free, ?_⟩
    cases outcome with
    | error source =>
      cases left
      exact Or.inl (handles.stops made sent)
    | ok value =>
      rcases conclude_transformed left with same | ⟨_, same, grown⟩
      · rw [same] at made
        exact Or.inl (handles.stops made sent)
      · cases same
        obtain ⟨rest, whole⟩ := sent
        refine Or.inr ⟨past, batch, rest, _, report, value, ?_, handles, by rw [given]; exact called, grown⟩
        rw [← whole, List.map_append, List.append_assoc]
        rfl
  | reject validating rejected =>
    rw [validating] at holds
    obtain ⟨past, batch, free, taken, handles, made⟩ := holds
    rw [rejected] at made
    exact ⟨free, Or.inl (handles.stops made (fits taken).2)⟩
  | accept validating valid =>
    rw [validating] at holds
    obtain ⟨past, batch, free, taken, handles, made⟩ := holds
    rw [valid] at made
    exact ⟨past, batch, free, taken, handles, made⟩
  | write writing =>
    rw [writing] at holds
    obtain ⟨past, batch, free, taken, handles, made⟩ := holds
    refine ⟨free, ?_⟩
    show Handles env transform s.channel.taken _ _
    rw [taken]
    exact handles.more made
  | release _ moved | unwindLease _ moved | unwindExpired _ moved =>
    exact holds.kept moved sound old.quiet (by simp) (by simp) (by simp)
  | next releasing moved idle =>
    rw [releasing] at holds
    exact ⟨_, moved.begin_recv sound, holds.2,
      moved.fetching old.quiet (by simp) (fun _ => idle.1) (.empty idle.1)⟩
  | drain draining =>
    rw [draining] at holds
    exact holds
  | close closing =>
    rw [closing] at holds
    exact holds
  | drop unwinding _ moved =>
    rw [unwinding] at holds
    exact ⟨(moved.drop_receiver sound).1, holds.2.kept moved⟩

theorem Decides.kept {result : Except IngestError PipelineReport} (old : Decides env transform s result)
    (lasting : ∀ ended, s.consumer = .finished ended → t.consumer = .finished ended ∧ t.written = s.written) :
    Decides env transform t result := by
  cases result with
  | error => exact old
  | ok report =>
    obtain ⟨⟨ended, finished⟩, sent, base, admitted, peak, all, handles, rfl⟩ := old
    obtain ⟨finished', written⟩ := lasting ended finished
    exact ⟨⟨ended, finished'⟩, sent, base, admitted, peak, all, written ▸ handles, rfl⟩

theorem Sequenced.decides (old : Sequenced env transform s) {production : Except IngestError Unit}
    {result : Except IngestError PipelineReport} (produced : s.producer = .finished (some production))
    (consumed : s.consumer = .finished result) :
    Decides env transform s (joined env.config s.channel result production) := by
  have producer := old.producer
  have consumer := old.consumer
  rw [produced] at producer
  rw [consumed] at consumer
  rcases result with error | base
  · exact consumer.2
  obtain ⟨_, _, handles⟩ := consumer
  rcases production with error | done
  · rcases producer.2 with ⟨failed, ended⟩ | ⟨message, rest, refused, whole⟩
    · rw [consumed] at ended
      cases ended
    · exact Or.inl ⟨_, message, rest, _, base, whole, handles, .refused (admitted_refused refused)⟩
  · have all : sends env = s.channel.enqueued.map some := producer.2
    rcases final : joined env.config s.channel (.ok base) (.ok done) with error | report
    · rcases joined_error final with early | late
      · cases early
      · cases late
    · obtain ⟨_, other, admitted, peak, same, reported⟩ := joined_ok final
      cases same
      exact ⟨⟨_, consumed⟩, s.channel.enqueued, base, admitted, peak, all, handles, reported⟩

theorem Controls.follows (step : Controls env s cause t) (calm : cause = .work ∨ cause = .spurious)
    (publication : PublicationHolds env transform s) (old : Sequenced env transform s) :
    MainFollows env transform t := by
  have main := old.main
  unfold MainFollows at main
  cases step with
  | refuse _ raised | abandon _ raised => exact absurd (old.flag.symm.trans raised) (by simp)
  | failCreate | failWriter | failSync | failRename | failParent => simp at calm
  | enter | create | connect | overflow | panic => trivial
  | join _ produced consumed => exact old.decides produced consumed
  | fail phase =>
    rw [phase] at main
    simp only [PublicationHolds, phase] at publication
    exact ⟨main, fun _ _ => publication.1⟩
  | decide phase | sync phase | rename phase =>
    rw [phase] at main
    exact main
  | publish phase =>
    rw [phase] at main
    refine ⟨main, fun _ same => ?_⟩
    cases same

theorem MainFollows.kept (old : MainFollows env transform s) (main : t.main = s.main) (published : t.published = s.published)
    (lasting : ∀ ended, s.consumer = .finished ended → t.consumer = .finished ended ∧ t.written = s.written) :
    MainFollows env transform t := by
  unfold MainFollows at old ⊢
  rw [main, published]
  generalize s.main = here at old ⊢
  cases here with
  | deciding | syncing | «renaming» | syncingParent => exact old.kept lasting
  | done => exact ⟨old.1.kept lasting, old.2⟩
  | _ => trivial

/-- A step by another thread than the consumer leaves the receiving end, its
leases and the staged file to it. -/
theorem PipelineStep.aside (step : PipelineStep env transform s cause t) :
    Consumes env transform s cause t ∨ (t.consumer = s.consumer ∧ t.written = s.written) ∧
      (t.channel = s.channel ∨ ∃ action, action ≠ .recv ∧ action ≠ .dropReceiver ∧
        (∀ outcome, action ≠ .transform outcome) ∧
        ChannelStep env.memorySizes env.config.kind s.channel action t.channel) := by
  cases step with
  | control moved => cases moved <;> exact Or.inr ⟨⟨rfl, rfl⟩, Or.inl rfl⟩
  | produce moved =>
    right
    cases moved with
    | openFail _ _ _ moved | send _ _ moved | drop _ moved =>
      exact ⟨⟨rfl, rfl⟩, Or.inr ⟨_, by simp, by simp, by simp, moved⟩⟩
    | _ => exact ⟨⟨rfl, rfl⟩, Or.inl rfl⟩
  | consume moved => exact Or.inl moved
  | @channel action _ internal moved =>
    refine Or.inr ⟨⟨rfl, rfl⟩, Or.inr ⟨action, ?_, ?_, ?_, moved⟩⟩
    · rintro rfl
      exact internal
    · rintro rfl
      exact internal
    · rintro _ rfl
      exact internal
  | wake woken moved =>
    rcases woken with rfl | rfl <;> exact Or.inr ⟨⟨rfl, rfl⟩, Or.inr ⟨_, by simp, by simp, by simp, moved⟩⟩
  | requestCancel => exact Or.inr ⟨⟨rfl, rfl⟩, Or.inl rfl⟩
  | cancelTransport _ moved => exact Or.inr ⟨⟨rfl, rfl⟩, Or.inr ⟨_, by simp, by simp, by simp, moved⟩⟩

end Steps

section Functional

variable {callback : Option (RecordBatch → Except PipelineIoError RecordBatch)}

end Functional

end Datacrate.Bounded
