import Datacrate.Bounded.Progress
import Datacrate.Bounded.Atomicity

namespace Datacrate.Bounded

open Datacrate.Ingest

variable {env : Setting} {transform : Option Callback} {s t : Pipeline} {cause : Cause}

/-- A configured callback returns on every batch. -/
def Responsive (transform : Option Callback) : Prop :=
  ∀ callback, transform = some callback → ∀ batch, ∃ outcome, callback batch outcome

theorem responsive_none : Responsive none :=
  fun _ given => nomatch given

def Setting.records (env : Setting) : Nat :=
  match env.file.opened with
  | .ok records => records.length
  | .error _ => 0

def Producer.rank (env : Setting) : Producer → Nat
  | .start => 200 * env.records + 200
  | .reading _ records chunk => 200 * records.length + (if chunk = [] then 0 else 100) + 30
  | .sending _ (some next) => 200 * next.2.length + 40
  | .sending _ none => 25
  | .returning _ => 20
  | .finished _ => 0

def Consumer.rank : Consumer → Nat
  | .start | .releasing _ => 16
  | .receiving _ => 10
  | .checking _ _ => 9
  | .transforming _ _ => 8
  | .validating _ _ => 7
  | .writing _ _ => 6
  | .draining _ => 4
  | .closing _ => 3
  | .unwinding _ => 2
  | .finished _ => 0

def Main.rank : Main → Nat
  | .start => 10
  | .creating => 9
  | .connecting => 8
  | .running => 7
  | .deciding _ => 6
  | .syncing _ => 5
  | .renaming _ => 4
  | .syncingParent _ => 3
  | .done _ | .panicked => 0

/-- The work of all threads, and of the batches written so far. -/
def Pipeline.work (env : Setting) (s : Pipeline) : Nat :=
  s.main.rank + s.producer.rank env + s.consumer.rank + s.channel.rank

/-- The work left. -/
def Pipeline.rank (env : Setting) (s : Pipeline) : Nat :=
  s.work env - 20 * s.written.length

theorem Pipeline.enqueued_work (env : Setting) (s : Pipeline) : 20 * s.channel.enqueued.length ≤ s.work env := by
  unfold Pipeline.work System.rank
  omega

theorem Producer.rank_reading_lt (env : Setting) (index : Nat) (record : Except String StringRecord)
    (records : List (Except String StringRecord)) (chunk more : List Row) :
    (Producer.reading (index + 1) records more).rank env <
      (Producer.reading index (record :: records) chunk).rank env := by
  simp only [Producer.rank, List.length_cons]
  split <;> split <;> omega

theorem produce_send {flag : Bool} {index : Nat} {chunk : List Row} {records : List (Except String StringRecord)}
    {message : IngestMessage} {next : Option (Nat × List (Except String StringRecord))}
    (turn : produce env flag index chunk records = .send message next) :
    (Producer.sending message next).rank env + 31 ≤ (Producer.reading index records chunk).rank env := by
  cases records with
  | nil =>
    simp only [produce] at turn
    split at turn
    · rename_i left
      obtain ⟨_, _, rfl⟩ := sendChunk_eq_send.mp turn
      simp only [Producer.rank, left.1, if_false]
      omega
    · cases turn
  | cons record records =>
    simp only [produce] at turn
    split at turn
    · cases turn
    split at turn
    · cases turn
      simp only [Producer.rank, List.length_cons]
      omega
    split at turn
    · obtain ⟨_, _, rfl⟩ := sendChunk_eq_send.mp turn
      simp only [Producer.rank, List.length_cons]
      omega
    · cases turn

theorem Controls.lowers (step : Controls env s cause t) :
    t.written = s.written ∧ t.work env < s.work env := by
  unfold Pipeline.work
  cases step with
  | refuse phase | enter phase | failCreate phase | failWriter phase | create phase | connect phase | overflow phase
  | join phase | panic phase | fail phase | abandon phase | decide phase | failSync phase | sync phase
  | failRename phase | rename phase | failParent phase | publish phase =>
    refine ⟨rfl, ?_⟩
    simp only [phase, Main.rank]
    omega

theorem Produces.lowers (step : Produces env s t) (sound : Sound env.memorySizes s.channel env.config.kind) :
    t.written = s.written ∧ t.work env < s.work env := by
  unfold Pipeline.work
  cases step with
  | openFail _ phase _ moved =>
    have less := moved.lowers sound trivial
    refine ⟨rfl, ?_⟩
    simp only [phase, Producer.rank, Action.cost] at less ⊢
    omega
  | allocate _ phase opened =>
    refine ⟨rfl, ?_⟩
    simp only [phase, Producer.rank, Setting.records, opened, if_true]
    omega
  | overflow _ phase =>
    refine ⟨rfl, ?_⟩
    simp only [phase, Producer.rank]
    omega
  | finish phase | panic phase =>
    refine ⟨rfl, ?_⟩
    simp only [phase, Producer.rank]
    omega
  | @keep index record records chunk more phase =>
    have less := Producer.rank_reading_lt env index record records chunk more
    refine ⟨rfl, ?_⟩
    simp only [phase]
    omega
  | send phase turn moved =>
    have less := moved.lowers sound trivial
    have paid := produce_send turn
    refine ⟨rfl, ?_⟩
    simp only [phase, Action.cost] at less ⊢
    omega
  | proceed phase | fail phase | last phase =>
    refine ⟨rfl, ?_⟩
    simp only [phase, Producer.rank, if_true]
    omega
  | drop phase moved =>
    have less := moved.lowers sound trivial
    refine ⟨rfl, ?_⟩
    simp only [phase, Producer.rank, Action.cost] at less ⊢
    omega

/-- The batch that the consumer writes next was sent. -/
theorem Atomic.unwritten (holds : Atomic env transform s) (sound : Sound env.memorySizes s.channel env.config.kind)
    {report : PipelineReport} {checked : CheckedIngestBatch} (writing : s.consumer = .writing report checked) :
    s.written.length < s.channel.enqueued.length := by
  obtain ⟨sent, made, handled⟩ := holds.consumer
  rw [writing] at handled
  obtain ⟨_, _, _, taken, _⟩ := handled
  have same := made.length_eq
  have taken := congrArg List.length taken
  have order := congrArg List.length sound.order
  simp only [sentBatches, List.length_append, List.length_map, List.length_singleton] at taken order
  omega

theorem Consumes.lowers (step : Consumes env transform s cause t)
    (sound : Sound env.memorySizes s.channel env.config.kind) (holds : Atomic env transform s) :
    t.written = s.written ∧ t.work env < s.work env ∨
      t.written.length = s.written.length + 1 ∧ t.work env = s.work env + 10 ∧
        s.written.length < s.channel.enqueued.length := by
  unfold Pipeline.work
  cases step with
  | refuse _ phase | fail phase | exhaust phase | receive phase | interrupt phase | check phase | skip phase
  | reject phase | accept phase | failWrite phase | abandon phase | drain phase | failClose phase | close phase =>
    refine Or.inl ⟨rfl, ?_⟩
    simp only [phase, Consumer.rank]
    omega
  | start _ phase _ moved | next phase moved | drop phase _ moved =>
    have less := moved.lowers sound trivial
    refine Or.inl ⟨rfl, ?_⟩
    simp only [phase, Consumer.rank, Action.cost] at less ⊢
    omega
  | release phase moved | unwindLease phase moved | unwindExpired phase moved =>
    have less := moved.lowers sound trivial
    refine Or.inl ⟨rfl, ?_⟩
    simp only [Action.cost] at less ⊢
    omega
  | transform phase _ _ moved | failTransform phase _ _ moved =>
    have same := moved.transform_rank
    refine Or.inl ⟨rfl, ?_⟩
    simp only [phase, Consumer.rank]
    omega
  | write phase =>
    have behind := holds.unwritten sound phase
    refine Or.inr ⟨by simp, ?_, behind⟩
    simp only [phase, Consumer.rank]
    omega

theorem Internal.working {action : Action RecordBatch PipelineIoError} (internal : Internal action) :
    action.Working ∧ action.cost = 0 := by
  cases action <;> first | exact internal.elim | exact ⟨trivial, rfl⟩

theorem PipelineStep.enqueued_prefix {transform : Option Callback} (step : PipelineStep env transform s cause t) :
    s.channel.enqueued <+: t.channel.enqueued := by
  rcases step.channel_moves with same | ⟨_, _, _, moved⟩
  · exact same ▸ List.prefix_rfl
  · exact moved.enqueued_prefix

/-- The consumer writes no more than was sent. -/
theorem reachable_behind (reach : Transition.Reachable .initial (PipelineMoves env transform) s) :
    s.written.length ≤ s.channel.enqueued.length := by
  refine reach.invariant (fun s => s.written.length ≤ s.channel.enqueued.length) le_rfl ?_
  intro s t before old ⟨cause, step⟩
  have grown := step.enqueued_prefix.length_le
  rcases step.unreceived with moved | ⟨⟨_, written, _⟩, _⟩
  · cases moved with
    | write phase =>
      have behind := (reachable_atomic before).unwritten (reachable_sound_channel before) phase
      rw [List.length_append, List.length_singleton]
      omega
    | _ => exact old.trans grown
  · rw [written]
    exact old.trans grown

/-- Every step of work, and every fault, leaves less of it. -/
theorem PipelineStep.lowers (step : PipelineStep env transform s cause t) (forward : cause = .work ∨ cause = .fault)
    (reach : Transition.Reachable .initial (PipelineMoves env transform) s) : t.rank env < s.rank env := by
  have sound := reachable_sound_channel reach
  have behind := reachable_behind reach
  have grown := step.enqueued_prefix.length_le
  have cases' : t.written = s.written ∧ t.work env < s.work env ∨
      t.written.length = s.written.length + 1 ∧ t.work env = s.work env + 10 ∧
        s.written.length < s.channel.enqueued.length := by
    cases step with
    | control moved => exact Or.inl moved.lowers
    | produce moved => exact Or.inl (moved.lowers sound)
    | consume moved => exact moved.lowers sound (reachable_atomic reach)
    | channel internal moved =>
      have less := moved.lowers sound internal.working.1
      rw [internal.working.2] at less
      refine Or.inl ⟨rfl, ?_⟩
      simp only [Pipeline.work]
      omega
    | wake | requestCancel | cancelTransport => simp at forward
  unfold Pipeline.rank
  have share := s.enqueued_work env
  have share' := t.enqueued_work env
  rcases cases' with ⟨same, less⟩ | ⟨more, paid, left⟩
  · have written := congrArg List.length same
    omega
  · omega

/-- The leases of the consumer: it holds that of the batch in hand, and none
expires before it unwinds. -/
def Leased (channel : System RecordBatch PipelineIoError) : Consumer → Prop
  | .start => channel.expiring = [] ∧ channel.held = []
  | .receiving _ => channel.expiring = [] ∧
    ∀ batch, channel.receiver = .returned (.ok (some batch)) → channel.held ≠ []
  | .checking _ _ | .transforming _ _ => channel.expiring = [] ∧ channel.held ≠ []
  | .validating _ _ | .writing _ _ | .releasing _ | .draining _ | .closing _ => channel.expiring = []
  | .unwinding _ | .finished _ => True

/-- The leases survive whatever the other threads do to the channel. -/
theorem Leased.kept {channel channel' : System RecordBatch PipelineIoError} {consumer : Consumer}
    {action : Action RecordBatch PipelineIoError} (old : Leased channel consumer)
    (step : ChannelStep env.memorySizes env.config.kind channel action channel')
    (whole : ∀ outcome, action ≠ .transform outcome) (lasting : action ≠ .dropLease)
    (started : consumer = .start → channel.receiver.free = true) : Leased channel' consumer := by
  obtain ⟨expiring, empty⟩ := step.leases whole
  obtain ⟨held, got⟩ := step.holds_on whole lasting
  cases consumer with
  | start =>
    have free := started rfl
    refine ⟨expiring old.1, empty (fun polling => ?_) old.2⟩
    rw [polling] at free
    cases free
  | receiving report =>
    refine ⟨expiring old.1, fun batch returned => ?_⟩
    rcases got batch returned with before | holding
    · exact held (old.2 batch before)
    · exact holding
  | checking report batch | transforming report batch => exact ⟨expiring old.1, held old.2⟩
  | validating report batch | writing report checked | releasing report | draining report | closing report =>
    exact expiring old
  | unwinding result | finished result => trivial

/-- Every step that is not the consumer's leaves its leases alone. -/
theorem PipelineStep.unleasing (step : PipelineStep env transform s cause t) :
    Consumes env transform s cause t ∨ t.consumer = s.consumer ∧
      (t.channel = s.channel ∨ ∃ action, (∀ outcome, action ≠ .transform outcome) ∧ action ≠ .dropLease ∧
        ChannelStep env.memorySizes env.config.kind s.channel action t.channel) := by
  cases step with
  | control moved => cases moved <;> exact Or.inr ⟨rfl, Or.inl rfl⟩
  | produce moved =>
    right
    cases moved with
    | openFail _ _ _ moved | send _ _ moved | drop _ moved => exact ⟨rfl, Or.inr ⟨_, by simp, by simp, moved⟩⟩
    | _ => exact ⟨rfl, Or.inl rfl⟩
  | consume moved => exact Or.inl moved
  | @channel action _ internal moved =>
    refine Or.inr ⟨rfl, Or.inr ⟨action, ?_, ?_, moved⟩⟩
    · rintro _ rfl
      exact internal
    · rintro rfl
      exact internal
  | wake woken moved => rcases woken with rfl | rfl <;> exact Or.inr ⟨rfl, Or.inr ⟨_, by simp, by simp, moved⟩⟩
  | requestCancel => exact Or.inr ⟨rfl, Or.inl rfl⟩
  | cancelTransport _ moved => exact Or.inr ⟨rfl, Or.inr ⟨_, by simp, by simp, moved⟩⟩

theorem Consumes.leased (step : Consumes env transform s cause t) (old : Leased s.channel s.consumer) :
    Leased t.channel t.consumer := by
  cases step with
  | refuse | fail | interrupt | failTransform | reject | failWrite | abandon | failClose | close | drop => trivial
  | start _ phase _ moved idle | next phase moved idle =>
    refine ⟨((moved.leases (by simp)).1 idle.2), fun batch returned => ?_⟩
    rw [moved.recv_polling] at returned
    cases returned
  | exhaust phase =>
    rw [phase] at old
    exact old.1
  | receive phase returned =>
    rw [phase] at old
    exact ⟨old.1, old.2 _ returned⟩
  | check phase =>
    rw [phase] at old
    exact old
  | skip phase =>
    rw [phase] at old
    exact old.1
  | transform phase _ _ moved returned =>
    rw [phase] at old
    exact moved.transform_expiring returned old.1
  | accept phase | write phase | drain phase =>
    rw [phase] at old
    exact old
  | release phase moved =>
    rw [phase] at old ⊢
    exact (moved.leases (by simp)).1 old
  | unwindLease phase | unwindExpired phase =>
    rw [phase]
    trivial

theorem reachable_leased (reach : Transition.Reachable .initial (PipelineMoves env transform) s) :
    Leased s.channel s.consumer := by
  refine reach.invariant (fun s => Leased s.channel s.consumer) ⟨rfl, rfl⟩ ?_
  intro s t before old ⟨cause, step⟩
  obtain ⟨sent, _, handled⟩ := (reachable_atomic before).consumer
  have started : s.consumer = .start → s.channel.receiver.free = true := by
    intro start
    rw [start] at handled
    exact handled.1
  rcases step.unleasing with moved | ⟨consumer, same | ⟨action, whole, lasting, moved⟩⟩
  · exact moved.leased old
  · rwa [consumer, same]
  · rw [consumer]
    exact old.kept moved whole lasting started

theorem PipelineStep.internal {channel : System RecordBatch PipelineIoError}
    (action : Action RecordBatch PipelineIoError) (internal : Internal action)
    (moved : ChannelStep env.memorySizes env.config.kind s.channel action channel) :
    PipelineStep env transform s .work { s with channel := channel } :=
  .channel internal moved

theorem Sending.inside_or_returned {log : List IngestMessage} {message : IngestMessage}
    {channel : System RecordBatch PipelineIoError} (sending : Sending log message channel) :
    channel.sender.inside ∨ ∃ result, channel.sender = .returned message result := by
  unfold SendPhase.inside
  rcases sending with ⟨⟨bytes, pending⟩, _⟩ | ⟨phase | phase, _⟩ | ⟨result, phase, _⟩
  · left
    cases phase : channel.sender <;> simp_all [SendPhase.pending, SendPhase.free]
  · exact Or.inl (by simp [phase, SendPhase.free])
  · exact Or.inl (by simp [phase, SendPhase.free])
  · exact Or.inr ⟨result, phase⟩

/-- The producer gets on, unless it is done or parked in `send`. -/
theorem producer_moves (reach : Transition.Reachable .initial (PipelineMoves env transform) s)
    (running : s.main = .running) :
    (∃ t, PipelineStep env transform s .work t) ∨ (∃ outcome, s.producer = .finished outcome) ∨
      SendParked s.channel env.config.kind := by
  have sound := reachable_sound_channel reach
  have holds := (reachable_atomic reach).producer
  cases phase : s.producer with
  | start =>
    rw [phase] at holds
    left
    rcases opened : env.file.opened with source | records
    · obtain ⟨channel, sent⟩ := ChannelStep.send_exists env.memorySizes env.config.kind holds.1
        (.error (.openInput env.file.path source))
      exact ⟨_, .produce (.openFail running phase opened sent)⟩
    · by_cases fits : Allocates env env.config.batchSize env.rowBytes
      · exact ⟨_, .produce (.allocate running phase opened fits)⟩
      · exact ⟨_, .produce (.overflow running phase opened fits)⟩
  | reading index records chunk =>
    rw [phase] at holds
    left
    cases turn : produce env s.flag index chunk records with
    | finish => exact ⟨_, .produce (.finish phase turn)⟩
    | panic => exact ⟨_, .produce (.panic phase turn)⟩
    | keep more =>
      obtain ⟨record, rest, rfl⟩ : ∃ record rest, records = record :: rest := by
        have produced := holds.2.produced s.flag
        rw [turn] at produced
        obtain ⟨record, rest, same, _⟩ := produced
        exact ⟨record, rest, same⟩
      exact ⟨_, .produce (.keep phase turn)⟩
    | send message next =>
      obtain ⟨channel, sent⟩ := ChannelStep.send_exists env.memorySizes env.config.kind holds.1 message
      exact ⟨_, .produce (.send phase turn sent)⟩
  | sending message next =>
    rw [phase] at holds
    obtain ⟨log, sending, _⟩ := holds
    rcases sending.inside_or_returned with inside | ⟨result, returned⟩
    · rcases sound.send_moves inside with ⟨channel, moved⟩ | ⟨channel, moved⟩ | parked
      · exact Or.inl ⟨_, .internal .admission trivial moved⟩
      · exact Or.inl ⟨_, .internal .acknowledge trivial moved⟩
      · exact Or.inr (Or.inr parked)
    · left
      rcases next with _ | ⟨index, records⟩
      · exact ⟨_, .produce (.last phase returned)⟩
      · rcases result with error | done
        · exact ⟨_, .produce (.fail phase returned)⟩
        · exact ⟨_, .produce (.proceed phase returned)⟩
  | returning outcome =>
    rw [phase] at holds
    obtain ⟨channel, moved⟩ := ChannelStep.drop_sender_exists env.memorySizes env.config.kind holds.1
    exact Or.inl ⟨_, .produce (.drop phase moved)⟩
  | finished outcome => exact Or.inr (Or.inl ⟨outcome, rfl⟩)

/-- The consumer gets on, unless it is done or parked in `recv`. -/
theorem consumer_moves (reach : Transition.Reachable .initial (PipelineMoves env transform) s)
    (answers : Responsive transform) (running : s.main = .running) :
    (∃ t, PipelineStep env transform s .work t) ∨ (∃ result, s.consumer = .finished result) ∨
      ReceiveParked s.channel env.config.kind := by
  have sound := reachable_sound_channel reach
  obtain ⟨sent, _, holds⟩ := (reachable_atomic reach).consumer
  have leased := reachable_leased reach
  cases phase : s.consumer with
  | start =>
    rw [phase] at holds leased
    left
    cases raised : s.flag with
    | true => exact ⟨_, .consume (.refuse running phase raised)⟩
    | false =>
      obtain ⟨channel, moved⟩ := ChannelStep.recv_exists env.memorySizes env.config.kind holds.1
      exact ⟨_, .consume (.start running phase raised moved ⟨leased.2, leased.1⟩)⟩
  | receiving report =>
    rw [phase] at holds
    rcases holds.1 with ⟨inside, _⟩ | ⟨message, returned, _⟩ | returned | ⟨returned, _⟩
    · rcases sound.receive_moves inside with ⟨channel, moved⟩ | parked
      · exact Or.inl ⟨_, .internal .poll trivial moved⟩
      · exact Or.inr (Or.inr parked)
    · rcases message with source | lease
      · exact Or.inl ⟨_, .consume (.fail phase returned)⟩
      · exact Or.inl ⟨_, .consume (.receive phase returned)⟩
    · exact Or.inl ⟨_, .consume (.fail phase returned)⟩
    · exact Or.inl ⟨_, .consume (.exhaust phase returned)⟩
  | checking report batch =>
    left
    cases raised : s.flag with
    | true => exact ⟨_, .consume (.interrupt phase raised)⟩
    | false => exact ⟨_, .consume (.check phase raised)⟩
  | transforming report batch =>
    rw [phase] at leased
    left
    cases given : transform with
    | none => exact ⟨_, .consume (.skip phase rfl)⟩
    | some callback =>
      obtain ⟨outcome, called⟩ := answers callback given batch
      obtain ⟨channel, moved⟩ := sound.transform_exists leased.2 (callbackOutcome report outcome)
      obtain ⟨result, returned, _⟩ := moved.transformed sound
      rcases result with error | result
      · exact ⟨_, .consume (.failTransform phase rfl called moved returned)⟩
      · exact ⟨_, .consume (.transform phase rfl called moved returned)⟩
  | validating report batch =>
    left
    rcases valid : CheckedIngestBatch.tryNew batch with source | checked
    · exact ⟨_, .consume (.reject phase valid)⟩
    · exact ⟨_, .consume (.accept phase valid)⟩
  | writing report checked => exact Or.inl ⟨_, .consume (.write phase)⟩
  | releasing report =>
    rw [phase] at holds leased
    left
    by_cases idle : s.channel.held = []
    · obtain ⟨channel, moved⟩ := ChannelStep.recv_exists env.memorySizes env.config.kind holds.1
      exact ⟨_, .consume (.next phase moved ⟨idle, leased⟩)⟩
    · obtain ⟨channel, moved⟩ := sound.drop_lease_exists idle
      exact ⟨_, .consume (.release phase moved)⟩
  | draining report =>
    left
    cases raised : s.flag with
    | true => exact ⟨_, .consume (.abandon phase raised)⟩
    | false => exact ⟨_, .consume (.drain phase raised)⟩
  | closing report => exact Or.inl ⟨_, .consume (.close phase)⟩
  | unwinding result =>
    rw [phase] at holds
    left
    by_cases idle : s.channel.held = []
    · by_cases settled : s.channel.expiring = []
      · obtain ⟨channel, moved⟩ := ChannelStep.drop_receiver_exists env.memorySizes env.config.kind holds.1
        exact ⟨_, .consume (.drop phase ⟨idle, settled⟩ moved)⟩
      · obtain ⟨channel, moved⟩ := sound.expire_exists settled
        exact ⟨_, .consume (.unwindExpired phase moved)⟩
    · obtain ⟨channel, moved⟩ := sound.drop_lease_exists idle
      exact ⟨_, .consume (.unwindLease phase moved)⟩
  | finished result => exact Or.inr (Or.inl ⟨result, rfl⟩)

/-- The run has returned or panicked. -/
def Main.Ended (main : Main) : Prop :=
  main = .panicked ∨ ∃ result, main = .done result

/-- A run that has not ended can get on: its threads never wait for each
other. -/
theorem pipeline_moves (reach : Transition.Reachable .initial (PipelineMoves env transform) s)
    (answers : Responsive transform) : s.main.Ended ∨ ∃ t, PipelineStep env transform s .work t := by
  have sound := reachable_sound_channel reach
  have holds := reachable_atomic reach
  cases phase : s.main with
  | start =>
    right
    cases raised : s.flag with
    | true => exact ⟨_, .control (.refuse phase raised)⟩
    | false => exact ⟨_, .control (.enter phase raised)⟩
  | creating => exact Or.inr ⟨_, .control (.create phase)⟩
  | connecting =>
    right
    by_cases fits : SlotsAllocate env
    · exact ⟨_, .control (.connect phase fits)⟩
    · exact ⟨_, .control (.overflow phase fits)⟩
  | running =>
    right
    rcases producer_moves reach phase with moves | produced
    · exact moves
    rcases consumer_moves reach answers phase with moves | consumed
    · exact moves
    rcases produced with ⟨outcome, produced⟩ | sending
    · have gone := holds.producer
      rw [produced] at gone
      rcases consumed with ⟨result, consumed⟩ | receiving
      · rcases outcome with _ | production
        · exact ⟨_, .control (.panic phase produced consumed)⟩
        · exact ⟨_, .control (.join phase produced consumed)⟩
      · exact absurd gone.1 (sound.never_stuck.2 receiving)
    · obtain ⟨listening, awake⟩ := sound.never_stuck.1 sending
      rcases consumed with ⟨result, consumed⟩ | receiving
      · obtain ⟨_, _, gone⟩ := holds.consumer
        rw [consumed] at gone
        exact absurd gone.1 listening
      · exact absurd receiving awake
  | deciding result =>
    right
    rcases result with error | report
    · exact ⟨_, .control (.fail phase)⟩
    · cases raised : s.flag with
      | true => exact ⟨_, .control (.abandon phase raised)⟩
      | false => exact ⟨_, .control (.decide phase raised)⟩
  | syncing report => exact Or.inr ⟨_, .control (.sync phase)⟩
  | «renaming» report => exact Or.inr ⟨_, .control (.rename phase)⟩
  | syncingParent report => exact Or.inr ⟨_, .control (.publish phase)⟩
  | done result => exact Or.inl (Or.inr ⟨result, rfl⟩)
  | panicked => exact Or.inl (Or.inl rfl)

end Datacrate.Bounded
