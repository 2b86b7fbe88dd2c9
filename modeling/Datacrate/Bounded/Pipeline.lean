import Datacrate.Bounded.Channel
import Datacrate.Ingest.Rows

namespace Datacrate.Bounded

open Datacrate.Ingest

structure PipelineConfig where
  batchSize : Nat
  channelCapacity : Nat
  maxAdmittedBytes : Option { limit : Nat // 0 < limit ∧ limit < Usize.range }
  batchSize_pos : 0 < batchSize

def PipelineConfig.kind (config : PipelineConfig) : ChannelKind :=
  match config.maxAdmittedBytes with
  | some limit => .budgeted { capacity := config.channelCapacity, limit := limit, limit_fits := limit.2.2 }
  | none => .count config.channelCapacity

structure PipelineReport where
  batchesWritten : Nat
  rowsWritten : Nat
  contentDigest : UInt64
  admittedBytes : Option Nat
  peakAdmittedBytes : Option Nat
  deriving DecidableEq

def PipelineReport.default : PipelineReport where
  batchesWritten := 0
  rowsWritten := 0
  contentDigest := 0
  admittedBytes := none
  peakAdmittedBytes := none

/-- What a run is given: its input, its configuration, and what it takes
from Arrow, from the row hasher, from the layout of its types and from the
heap, which grants no allocation of more than `heap` bytes. -/
structure Setting where
  file : CsvFile
  output : String
  config : PipelineConfig
  arrow : ArrowLibrary
  memorySizes : RecordBatch → List Nat
  hashRow : Int → String → Option String → UInt64
  rowBytes : Nat
  slotBytes : Nat
  heap : Nat

/-- A vector of this many elements of this size can be allocated: it has no
more than `isize::MAX` bytes, and the heap grants them. -/
def Allocates (env : Setting) (count size : Nat) : Prop :=
  count * size < Usize.range / 2 ∧ count * size ≤ env.heap

/-- The outcomes a configured callback may have on a batch. -/
abbrev Callback := RecordBatch → Except PipelineIoError RecordBatch → Prop

abbrev IngestError := PipelineError PipelineIoError

abbrev IngestMessage := Except PipelineIoError RecordBatch

/-- The producer thread. `sending` is a call of `send` with what the loop
has left to read, or nothing left. No outcome is a panic; nor does a process
that is aborted over an allocation have one. -/
inductive Producer where
  | start
  | reading (index : Nat) (records : List (Except String StringRecord)) (chunk : List Row)
  | sending (message : IngestMessage) (next : Option (Nat × List (Except String StringRecord)))
  | returning (outcome : Option (Except IngestError Unit))
  | finished (outcome : Option (Except IngestError Unit))

/-- The consumer thread. -/
inductive Consumer where
  | start
  | receiving (report : PipelineReport)
  | checking (report : PipelineReport) (batch : RecordBatch)
  | transforming (report : PipelineReport) (batch : RecordBatch)
  | validating (report : PipelineReport) (batch : RecordBatch)
  | writing (report : PipelineReport) (checked : CheckedIngestBatch)
  | releasing (report : PipelineReport)
  | draining (report : PipelineReport)
  | closing (report : PipelineReport)
  | unwinding (result : Except IngestError PipelineReport)
  | finished (result : Except IngestError PipelineReport)

/-- The calling thread. -/
inductive Main where
  | start
  | creating
  | connecting
  | running
  | deciding (result : Except IngestError PipelineReport)
  | syncing (report : PipelineReport)
  | renaming (report : PipelineReport)
  | syncingParent (report : PipelineReport)
  | done (result : Except IngestError PipelineReport)
  | panicked

/-- `flag` is the cancellation flag of the token. `published` is the new
content of the output path, if it was replaced: the batches of the renamed
file, and whether it was closed. -/
structure Pipeline where
  main : Main
  producer : Producer
  consumer : Consumer
  channel : System RecordBatch PipelineIoError
  flag : Bool
  written : List RecordBatch
  closed : Bool
  published : Option (List RecordBatch × Bool)

def Pipeline.initial : Pipeline where
  main := .start
  producer := .start
  consumer := .start
  channel := .initial
  flag := false
  written := []
  closed := false
  published := none

/-- The staging error of a failed local operation. -/
def failure (output : String) (phase : LocalPublicationPhase) (source : PipelineIoError) : IngestError :=
  .localPublication phase (if phase = .parentSync then .publishedDurabilityUncertain else .notPublished) output source

def ioFailure (output : String) (phase : LocalPublicationPhase) (source : String) : IngestError :=
  failure output phase (.openOutput output source)

def accumulateBatchStats (hashRow : Int → String → Option String → UInt64) (report : PipelineReport)
    (checked : CheckedIngestBatch) : PipelineReport :=
  { report with
    batchesWritten := report.batchesWritten + 1
    rowsWritten := report.rowsWritten + checked.batch.numRows
    contentDigest := accumulateBatchDigest hashRow report.contentDigest checked }

/-- The error of a failed callback names its stage and batch. -/
def callbackOutcome (report : PipelineReport) : Except PipelineIoError RecordBatch →
    Except PipelineIoError RecordBatch :=
  Except.mapError (.callback .transform report.batchesWritten)

/-- The report of both threads: the consumer's error first, then the
producer's, then the accounting of the transport. -/
def joined (config : PipelineConfig) (channel : System RecordBatch PipelineIoError)
    (result : Except IngestError PipelineReport) (production : Except IngestError Unit) :
    Except IngestError PipelineReport := do
  let report ← result
  production
  if config.maxAdmittedBytes.isSome then
    return { report with
      admittedBytes := some channel.state.bytes, peakAdmittedBytes := some channel.state.peak }
  return report

/-- Who makes a step happen. -/
inductive Cause where
  | work
  | fault
  | cancellation
  | spurious
  deriving DecidableEq

/-- The actions a blocked or cancelled transport takes by itself. -/
def Internal : Action RecordBatch PipelineIoError → Prop
  | .admission | .acknowledge | .poll | .discard => True
  | _ => False

section

variable (env : Setting) (transform : Option Callback)

/-- What the producer does next in its loop. -/
inductive Production where
  | finish
  | panic
  | keep (chunk : List Row)
  | send (message : IngestMessage) (next : Option (Nat × List (Except String StringRecord)))

/-- A chunk is sent as a batch, if it can be made. -/
def sendChunk (chunk : List Row) (next : Option (Nat × List (Except String StringRecord))) : Production :=
  match batchFromRows env.arrow chunk with
  | some message => .send message next
  | none => .panic

/-- One turn of the reading loop, given what `is_cancelled` reads. -/
def produce (cancelled : Bool) (index : Nat) (chunk : List Row) :
    List (Except String StringRecord) → Production
  | [] => if chunk ≠ [] ∧ cancelled = false then sendChunk env chunk none else .finish
  | record :: records =>
    if cancelled then .finish
    else match readRow index record with
      | .error source => .send (.error source) none
      | .ok row =>
        let chunk := chunk ++ [row]
        if chunk.length = env.config.batchSize then sendChunk env chunk (some (index + 1, records))
        else .keep chunk

inductive Produces : Pipeline → Pipeline → Prop
  | openFail {s : Pipeline} {source channel} : s.main = .running → s.producer = .start →
      env.file.opened = .error source →
      ChannelStep env.memorySizes env.config.kind s.channel (.send (.error (.openInput env.file.path source)))
        channel →
      Produces s { s with
        producer := .sending (.error (.openInput env.file.path source)) none, channel := channel }
  | allocate {s : Pipeline} {records} : s.main = .running → s.producer = .start →
      env.file.opened = .ok records → Allocates env env.config.batchSize env.rowBytes →
      Produces s { s with producer := .reading 0 records [] }
  | overflow {s : Pipeline} {records} : s.main = .running → s.producer = .start →
      env.file.opened = .ok records → ¬ Allocates env env.config.batchSize env.rowBytes →
      Produces s { s with producer := .returning none }
  | finish {s : Pipeline} {index records chunk} : s.producer = .reading index records chunk →
      produce env s.flag index chunk records = .finish →
      Produces s { s with producer := .returning (some (.ok ())) }
  | panic {s : Pipeline} {index records chunk} : s.producer = .reading index records chunk →
      produce env s.flag index chunk records = .panic →
      Produces s { s with producer := .returning none }
  | keep {s : Pipeline} {index record records chunk more} : s.producer = .reading index (record :: records) chunk →
      produce env s.flag index chunk (record :: records) = .keep more →
      Produces s { s with producer := .reading (index + 1) records more }
  | send {s : Pipeline} {index records chunk message next channel} :
      s.producer = .reading index records chunk →
      produce env s.flag index chunk records = .send message next →
      ChannelStep env.memorySizes env.config.kind s.channel (.send message) channel →
      Produces s { s with producer := .sending message next, channel := channel }
  | proceed {s : Pipeline} {message index records} : s.producer = .sending message (some (index, records)) →
      s.channel.sender = .returned message (.ok ()) →
      Produces s { s with producer := .reading index records [] }
  | fail {s : Pipeline} {message next error} : s.producer = .sending message (some next) →
      s.channel.sender = .returned message (.error error) →
      Produces s { s with producer := .returning (some (.error error)) }
  | last {s : Pipeline} {message result} : s.producer = .sending message none →
      s.channel.sender = .returned message result →
      Produces s { s with producer := .returning (some result) }
  | drop {s : Pipeline} {outcome channel} : s.producer = .returning outcome →
      ChannelStep env.memorySizes env.config.kind s.channel .dropSender channel →
      Produces s { s with producer := .finished outcome, channel := channel }

inductive Consumes : Pipeline → Cause → Pipeline → Prop
  | refuse {s : Pipeline} : s.main = .running → s.consumer = .start → s.flag = true →
      Consumes s .work { s with consumer := .unwinding (.error .cancelled) }
  | start {s : Pipeline} {channel} : s.main = .running → s.consumer = .start → s.flag = false →
      ChannelStep env.memorySizes env.config.kind s.channel .recv channel →
      s.channel.held = [] ∧ s.channel.expiring = [] →
      Consumes s .work { s with consumer := .receiving .default, channel := channel }
  | fail {s : Pipeline} {report error} : s.consumer = .receiving report →
      s.channel.receiver = .returned (.error error) →
      Consumes s .work { s with consumer := .unwinding (.error error) }
  | exhaust {s : Pipeline} {report} : s.consumer = .receiving report →
      s.channel.receiver = .returned (.ok none) →
      Consumes s .work { s with consumer := .draining report }
  | receive {s : Pipeline} {report batch} : s.consumer = .receiving report →
      s.channel.receiver = .returned (.ok (some batch)) →
      Consumes s .work { s with consumer := .checking report batch }
  | interrupt {s : Pipeline} {report batch} : s.consumer = .checking report batch → s.flag = true →
      Consumes s .work { s with consumer := .unwinding (.error .cancelled) }
  | check {s : Pipeline} {report batch} : s.consumer = .checking report batch → s.flag = false →
      Consumes s .work { s with consumer := .transforming report batch }
  | skip {s : Pipeline} {report batch} : s.consumer = .transforming report batch → transform = none →
      Consumes s .work { s with consumer := .validating report batch }
  | transform {s : Pipeline} {report batch callback outcome channel result} :
      s.consumer = .transforming report batch → transform = some callback → callback batch outcome →
      ChannelStep env.memorySizes env.config.kind s.channel (.transform (callbackOutcome report outcome)) channel →
      channel.transformed = some (.ok result) →
      Consumes s .work { s with consumer := .validating report result, channel := channel }
  | failTransform {s : Pipeline} {report batch callback outcome channel error} :
      s.consumer = .transforming report batch → transform = some callback → callback batch outcome →
      ChannelStep env.memorySizes env.config.kind s.channel (.transform (callbackOutcome report outcome)) channel →
      channel.transformed = some (.error error) →
      Consumes s .work { s with consumer := .unwinding (.error error), channel := channel }
  | reject {s : Pipeline} {report batch source} : s.consumer = .validating report batch →
      CheckedIngestBatch.tryNew batch = .error source →
      Consumes s .work { s with consumer := .unwinding (.error (.io source)) }
  | accept {s : Pipeline} {report batch checked} : s.consumer = .validating report batch →
      CheckedIngestBatch.tryNew batch = .ok checked →
      Consumes s .work { s with consumer := .writing report checked }
  | failWrite {s : Pipeline} {report checked source} : s.consumer = .writing report checked →
      Consumes s .fault { s with
        consumer := .unwinding (.error (failure env.output .write (.writeParquet source))) }
  | write {s : Pipeline} {report checked} : s.consumer = .writing report checked →
      Consumes s .work { s with
        consumer := .releasing (accumulateBatchStats env.hashRow report checked),
        written := s.written ++ [checked.batch] }
  | release {s : Pipeline} {report channel} : s.consumer = .releasing report →
      ChannelStep env.memorySizes env.config.kind s.channel .dropLease channel →
      Consumes s .work { s with channel := channel }
  | next {s : Pipeline} {report channel} : s.consumer = .releasing report →
      ChannelStep env.memorySizes env.config.kind s.channel .recv channel →
      s.channel.held = [] ∧ s.channel.expiring = [] →
      Consumes s .work { s with consumer := .receiving report, channel := channel }
  | abandon {s : Pipeline} {report} : s.consumer = .draining report → s.flag = true →
      Consumes s .work { s with consumer := .unwinding (.error .cancelled) }
  | drain {s : Pipeline} {report} : s.consumer = .draining report → s.flag = false →
      Consumes s .work { s with consumer := .closing report }
  | failClose {s : Pipeline} {report source} : s.consumer = .closing report →
      Consumes s .fault { s with
        consumer := .unwinding (.error (failure env.output .close (.writeParquet source))) }
  | close {s : Pipeline} {report} : s.consumer = .closing report →
      Consumes s .work { s with consumer := .unwinding (.ok report), closed := true }
  | unwindLease {s : Pipeline} {result channel} : s.consumer = .unwinding result →
      ChannelStep env.memorySizes env.config.kind s.channel .dropLease channel →
      Consumes s .work { s with channel := channel }
  | unwindExpired {s : Pipeline} {result channel} : s.consumer = .unwinding result →
      ChannelStep env.memorySizes env.config.kind s.channel .expire channel →
      Consumes s .work { s with channel := channel }
  | drop {s : Pipeline} {result channel} : s.consumer = .unwinding result →
      s.channel.held = [] ∧ s.channel.expiring = [] →
      ChannelStep env.memorySizes env.config.kind s.channel .dropReceiver channel →
      Consumes s .work { s with consumer := .finished result, channel := channel }

/-- The slots of a count-limited channel are allocated up front. -/
def SlotsAllocate : Prop :=
  env.config.maxAdmittedBytes = none → Allocates env env.config.channelCapacity env.slotBytes

inductive Controls : Pipeline → Cause → Pipeline → Prop
  | refuse {s : Pipeline} : s.main = .start → s.flag = true →
      Controls s .work { s with main := .done (.error .cancelled) }
  | enter {s : Pipeline} : s.main = .start → s.flag = false →
      Controls s .work { s with main := .creating }
  | failCreate {s : Pipeline} {source} : s.main = .creating →
      Controls s .fault { s with main := .done (.error (ioFailure env.output .create source)) }
  | failWriter {s : Pipeline} {source} : s.main = .creating →
      Controls s .fault { s with main := .done (.error (failure env.output .write (.writeParquet source))) }
  | create {s : Pipeline} : s.main = .creating → Controls s .work { s with main := .connecting }
  | connect {s : Pipeline} : s.main = .connecting → SlotsAllocate env →
      Controls s .work { s with main := .running }
  | overflow {s : Pipeline} : s.main = .connecting → ¬ SlotsAllocate env →
      Controls s .work { s with main := .panicked }
  | join {s : Pipeline} {production result} : s.main = .running →
      s.producer = .finished (some production) → s.consumer = .finished result →
      Controls s .work { s with main := .deciding (joined env.config s.channel result production) }
  | panic {s : Pipeline} {result} : s.main = .running → s.producer = .finished none →
      s.consumer = .finished result → Controls s .work { s with main := .panicked }
  | fail {s : Pipeline} {error} : s.main = .deciding (.error error) →
      Controls s .work { s with main := .done (.error error) }
  | abandon {s : Pipeline} {report} : s.main = .deciding (.ok report) → s.flag = true →
      Controls s .work { s with main := .done (.error .cancelled) }
  | decide {s : Pipeline} {report} : s.main = .deciding (.ok report) → s.flag = false →
      Controls s .work { s with main := .syncing report }
  | failSync {s : Pipeline} {report source} : s.main = .syncing report →
      Controls s .fault { s with main := .done (.error (ioFailure env.output .fileSync source)) }
  | sync {s : Pipeline} {report} : s.main = .syncing report →
      Controls s .work { s with main := .renaming report }
  | failRename {s : Pipeline} {report source} : s.main = .renaming report →
      Controls s .fault { s with main := .done (.error (ioFailure env.output .rename source)) }
  | rename {s : Pipeline} {report} : s.main = .renaming report →
      Controls s .work { s with main := .syncingParent report, published := some (s.written, s.closed) }
  | failParent {s : Pipeline} {report source} : s.main = .syncingParent report →
      Controls s .fault { s with main := .done (.error (ioFailure env.output .parentSync source)) }
  | publish {s : Pipeline} {report} : s.main = .syncingParent report →
      Controls s .work { s with main := .done (.ok report) }

/-- A step of the run. Once the flag of the token is up, the transport is
cancelled at any moment or not at all, as it is registered. -/
inductive PipelineStep : Pipeline → Cause → Pipeline → Prop
  | control {s t : Pipeline} {cause} : Controls env s cause t → PipelineStep s cause t
  | produce {s t : Pipeline} : Produces env s t → PipelineStep s .work t
  | consume {s t : Pipeline} {cause} : Consumes env transform s cause t → PipelineStep s cause t
  | channel {s : Pipeline} {action channel} : Internal action →
      ChannelStep env.memorySizes env.config.kind s.channel action channel →
      PipelineStep s .work { s with channel := channel }
  | wake {s : Pipeline} {action channel} : action = .wakeSender ∨ action = .wakeReceiver →
      ChannelStep env.memorySizes env.config.kind s.channel action channel →
      PipelineStep s .spurious { s with channel := channel }
  | requestCancel {s : Pipeline} : PipelineStep s .cancellation { s with flag := true }
  | cancelTransport {s : Pipeline} {channel} : s.flag = true →
      ChannelStep env.memorySizes env.config.kind s.channel .cancel channel →
      PipelineStep s .cancellation { s with channel := channel }

def PipelineMoves (s t : Pipeline) : Prop :=
  ∃ cause, PipelineStep env transform s cause t

end

end Datacrate.Bounded
