import Datacrate.Bounded.Atomicity
import Datacrate.Bounded.Staging
import Datacrate.Lib.Fleet

namespace Datacrate.Bounded

open Datacrate.Ingest
open Disk (NamedTempFile Staging)

section Runs

variable {env : Setting} {transform : Option Callback} {s t : Pipeline} {cause : Cause}

/-- The file is closed once, as the last thing that the consumer does well. -/
def ClosedHolds (s : Pipeline) : Prop :=
  s.closed = true → ∃ report, s.consumer = .unwinding (.ok report) ∨ s.consumer = .finished (.ok report)

theorem Consumes.closed_holds (step : Consumes env transform s cause t) (old : ClosedHolds s) : ClosedHolds t := by
  intro closed
  cases step with
  | close => exact ⟨_, Or.inl rfl⟩
  | drop unwinding =>
    obtain ⟨report, same | same⟩ := old closed
    · cases unwinding.symm.trans same
      exact ⟨report, Or.inr rfl⟩
    · cases unwinding.symm.trans same
  | unwindLease | unwindExpired => exact old closed
  | refuse _ phase | start _ phase | fail phase | exhaust phase | receive phase | interrupt phase | check phase
  | skip phase | transform phase | failTransform phase | reject phase | accept phase | failWrite phase
  | write phase | release phase | next phase | abandon phase | drain phase | failClose phase =>
    obtain ⟨report, same | same⟩ := old closed <;> cases phase.symm.trans same

theorem reachable_closed (reach : Transition.Reachable .initial (PipelineMoves env transform) s) : ClosedHolds s := by
  refine reach.invariant ClosedHolds (fun closed => by cases closed) ?_
  intro s t before old ⟨_, step⟩
  rcases step.unreceived with moved | ⟨⟨consumer, _, closed⟩, _⟩
  · exact moved.closed_holds old
  · rw [ClosedHolds, consumer, closed]
    exact old

theorem ClosedHolds.encodes (holds : ClosedHolds s) (encodes : s.consumer.Encodes) : s.closed = false := by
  cases closed : s.closed with
  | false => rfl
  | true =>
    obtain ⟨report, same | same⟩ := holds closed <;> rw [same] at encodes <;> exact encodes.elim

/-- Outside the Parquet writer the consumer leaves its file alone. -/
theorem PipelineStep.unencoded (step : PipelineStep env transform s cause t)
    (outside : s.consumer.Encodes → t.consumer = s.consumer) : t.written = s.written ∧ t.closed = s.closed := by
  rcases step.unreceived with moved | ⟨⟨_, written, closed⟩, _⟩
  · cases moved with
    | failWrite phase | write phase | failClose phase | close phase =>
      rw [phase] at outside
      cases outside trivial
    | _ => exact ⟨rfl, rfl⟩
  · exact ⟨written, closed⟩

/-- Outside the scope of its threads the consumer has yet to start, or has
returned. -/
def ScopeHolds (s : Pipeline) : Prop :=
  s.main ≠ .running → s.consumer = .start ∨ ∃ result, s.consumer = .finished result

theorem ScopeHolds.encodes (holds : ScopeHolds s) (encodes : s.consumer.Encodes) : s.main = .running := by
  by_contra outside
  rcases holds outside with same | ⟨result, same⟩ <;> rw [same] at encodes <;> exact encodes

theorem Controls.scope_holds (step : Controls env s cause t) (old : ScopeHolds s) : ScopeHolds t := by
  intro outside
  cases step with
  | join _ _ finished | panic _ _ finished => exact Or.inr ⟨_, finished⟩
  | connect => exact absurd rfl outside
  | refuse here | enter here | failCreate here | failWriter here | create here | overflow here | fail here
  | abandon here | decide here | failSync here | sync here | failRename here | «rename» here | failParent here
  | publish here => exact old (by simp [here])

theorem Consumes.scope_holds (step : Consumes env transform s cause t) (old : ScopeHolds s) : ScopeHolds t := by
  intro outside
  have before : s.main ≠ .running → False := by
    intro elsewhere
    have idle := old elsewhere
    cases step with
    | refuse running | start running => exact elsewhere running
    | fail phase | exhaust phase | receive phase | interrupt phase | check phase | skip phase | transform phase
    | failTransform phase | reject phase | accept phase | failWrite phase | write phase | release phase | next phase
    | abandon phase | drain phase | failClose phase | close phase | unwindLease phase | unwindExpired phase
    | drop phase => simp [phase] at idle
  have same : t.main = s.main := by
    cases step <;> rfl
  exact (before (same ▸ outside)).elim

theorem reachable_scope (reach : Transition.Reachable .initial (PipelineMoves env transform) s) : ScopeHolds s := by
  refine reach.invariant ScopeHolds (fun _ => Or.inl rfl) ?_
  intro s t before old ⟨_, step⟩
  rcases step.undecided with moved | ⟨main, _⟩
  · exact moved.scope_holds old
  · rcases step.unreceived with moved | ⟨⟨consumer, _⟩, _⟩
    · exact moved.scope_holds old
    · rw [ScopeHolds, main, consumer]
      exact old

end Runs

section Contents

variable {δ β : Type} {encode : List RecordBatch → β} {disk : Disk δ β} {s t : Pipeline}

/-- The calling thread has yet to open its file. -/
def Main.Early : Main → Prop
  | .start | .creating => True
  | _ => False

/-- What the file of a run holds. Once published it is on disk. -/
def ContentsHold (encode : List RecordBatch → β) (disk : Disk δ β) (run : Pipeline) : Staging δ → Prop
  | .absent => run.published = none ∧ run.closed = false
  | .owned temp => run.published = none ∧
    (run.closed = true → ¬ run.main.Early ∧ disk.contents temp.file = encode run.written) ∧
    ∀ report, run.main = .renaming report → disk.flushed temp.file = true
  | .persisted n => ∃ file, run.published = some file ∧ disk.contents n = encode file.1 ∧ disk.flushed n = true
  | .dropped _ _ => run.published = none

/-- The run went on without its file. -/
theorem ContentsHold.kept {staging : Staging δ} (old : ContentsHold encode disk s staging)
    (published : t.published = s.published) (file : t.written = s.written ∧ t.closed = s.closed)
    (early : t.main.Early → s.main.Early) (moving : ∀ report, t.main = .renaming report → s.main = .renaming report) :
    ContentsHold encode disk t staging := by
  obtain ⟨written, closed⟩ := file
  cases staging with
  | absent => exact ⟨published.trans old.1, closed.trans old.2⟩
  | owned temp =>
    refine ⟨published.trans old.1, fun shut => ?_, fun report same => old.2.2 report (moving report same)⟩
    obtain ⟨late, content⟩ := old.2.1 (closed.symm.trans shut)
    exact ⟨fun now => late (early now), written ▸ content⟩
  | persisted n =>
    obtain ⟨file, known, content⟩ := old
    exact ⟨file, published.trans known, content⟩
  | dropped temp removed => exact published.trans old

theorem contents_hold_open {temp : NamedTempFile δ} (unpublished : s.published = none) (unclosed : s.closed = false)
    (early : ∀ report, s.main ≠ .renaming report) : ContentsHold encode disk s (.owned temp) := by
  refine ⟨unpublished, fun closed => ?_, fun report same => absurd same (early report)⟩
  cases unclosed.symm.trans closed

/-- The file is not renamed before the consumer is out of it. -/
theorem PublicationHolds.outside {env : Setting} {transform : Option Callback} {report : PipelineReport}
    (holds : PublicationHolds env transform s) (moving : s.main = .renaming report) :
    ¬ s.consumer.Encodes ∧ s.closed = true := by
  simp only [PublicationHolds, moving] at holds
  obtain ⟨_, ⟨result, finished⟩, closed, _⟩ := holds
  rw [finished]
  exact ⟨id, closed⟩

/-- Another run has left the file alone. -/
theorem ContentsHold.beside {disk' : Disk δ β} {staging : Staging δ} (old : ContentsHold encode disk s staging)
    (same : ∀ n, staging.file = some n → disk'.contents n = disk.contents n ∧ disk'.flushed n = disk.flushed n) :
    ContentsHold encode disk' s staging := by
  cases staging with
  | absent | dropped => exact old
  | owned temp =>
    obtain ⟨contents, flushed⟩ := same temp.file rfl
    obtain ⟨unpublished, closed, moving⟩ := old
    exact ⟨unpublished, fun shut => ⟨(closed shut).1, contents.trans (closed shut).2⟩,
      fun report here => flushed.trans (moving report here)⟩
  | persisted n =>
    obtain ⟨contents, flushed⟩ := same n rfl
    obtain ⟨file, published, content, mark⟩ := old
    exact ⟨file, published, contents.trans content, flushed.trans mark⟩

end Contents

section Owners

variable {δ β : Type} [DecidableEq δ] {resolve : String → δ} {encode : List RecordBatch → β} {job : LocalRun}
  {disk disk' : Disk δ β} {owner owner' : Owner δ}

theorem StagedStep.contents_hold (step : StagedStep resolve encode job disk owner disk' owner')
    (reach : Transition.Reachable .initial (PipelineMoves job.env job.transform) owner.run)
    (old : ContentsHold encode disk owner.run owner.staging) : ContentsHold encode disk' owner'.run owner'.staging := by
  have publication := (reachable_atomic reach).publication
  have closing := reachable_closed reach
  cases step with
  | @control staging s t cause moved phase =>
    dsimp only at old ⊢
    cases moved with
    | refuse here | enter here | overflow here | connect here | join here | panic here | fail here | abandon here
    | decide here => exact old.kept rfl ⟨rfl, rfl⟩ (by simp [Main.Early, here]) (by simp)
    | failCreate here | failWriter here | create here | failSync here | sync here | failRename here
    | «rename» here | failParent here | publish here => simp [here] at phase
  | @thread staging s t cause moved main outside =>
    dsimp only at old ⊢
    rcases moved.undecided with controlled | ⟨_, published, _⟩
    · cases controlled <;> simp_all
    · exact old.kept published (moved.unencoded outside) (by rw [main]; exact id) (by rw [main]; exact fun _ => id)
  | tempfile creating => exact contents_hold_open old.1 old.2 (by simp [creating])
  | failWriter creating | create creating =>
    refine contents_hold_open old.1 ?_ (by simp)
    cases closed : Pipeline.closed _ with
    | false => rfl
    | true => exact absurd (by rw [creating]; trivial) (old.2.1 closed).1
  | @write temp s t cause report checked content phase moved =>
    have encodes : s.consumer.Encodes := by
      rw [phase]
      trivial
    have unclosed := closing.encodes encodes
    cases moved with
    | failWrite | write => exact contents_hold_open old.1 unclosed fun report same => (publication.outside same).1 encodes
    | refuse _ other | start _ other | fail other | exhaust other | receive other | interrupt other | check other
    | skip other | transform other | failTransform other | reject other | accept other | release other | next other
    | abandon other | drain other | failClose other | close other | unwindLease other | unwindExpired other
    | drop other => cases phase.symm.trans other
  | @close temp s report phase =>
    refine ⟨old.1, fun _ => ⟨?_, Function.update_self ..⟩, ?_⟩
    · have running := (reachable_scope reach).encodes (by rw [phase]; trivial)
      rw [running]
      exact id
    · intro report same
      exact absurd (by rw [phase]; trivial) (publication.outside same).1
  | @failClose temp s report source content phase =>
    have encodes : s.consumer.Encodes := by
      rw [phase]
      trivial
    exact contents_hold_open old.1 (closing.encodes encodes) fun report same => (publication.outside same).1 encodes
  | sync syncing =>
    refine ⟨old.1, fun closed => ⟨id, (old.2.1 closed).2⟩, fun _ _ => Function.update_self ..⟩
  | failTempfile | failReopen | failSync | failRename => exact old.kept rfl ⟨rfl, rfl⟩ (by simp [Main.Early]) (by simp)
  | «rename» moving =>
    exact ⟨_, rfl, (old.2.1 (publication.outside moving).2).2, old.2.2 _ moving⟩
  | publish | failParent => exact old
  | drop | failDrop => exact old.1

/-- A run only ends well by synchronizing the directory of what it has
renamed. -/
theorem StagedStep.done (step : StagedStep resolve encode job disk owner disk' owner') {report : PipelineReport}
    (ended : owner'.run.main = .done (.ok report)) :
    owner.run.main = .done (.ok report) ∨
      disk' = disk.syncDirectory (job.entry resolve).directory ∧
        ∃ n, owner.staging = .persisted n ∧ owner'.staging = owner.staging := by
  cases step with
  | control moved phase =>
    cases moved with
    | publish here => simp [here] at phase
    | refuse | enter | failCreate | failWriter | create | overflow | connect | join | panic | fail | abandon | decide
    | failSync | sync | failRename | «rename» | failParent => cases ended
  | thread _ main => exact Or.inl (main.symm.trans ended)
  | write phase moved =>
    refine Or.inl (Eq.trans ?_ ended)
    cases moved <;> rfl
  | tempfile | close | failClose | drop | failDrop => exact Or.inl ended
  | failTempfile | failReopen | failWriter | create | sync | failSync | «rename» | failRename | failParent => cases ended
  | publish => exact Or.inr ⟨rfl, _, rfl, rfl⟩

end Owners

section Fleets

variable {ι δ β : Type} {resolve : String → δ} {encode : List RecordBatch → β}
  {jobs : ι → LocalRun} {start disk disk' after : Disk δ β} {owners owners' : ι → Owner δ}

/-- What holds of all runs that share files. -/
structure Stored (resolve : String → δ) (encode : List RecordBatch → β) (jobs : ι → LocalRun) (start disk : Disk δ β)
    (owners : ι → Owner δ) : Prop where
  names : Disk.Sound IsStaging (fun i => (jobs i).entry resolve) start disk fun i => (owners i).staging
  contents : ∀ i, ContentsHold encode disk (owners i).run (owners i).staging
  settled : ∀ i report, (owners i).run.main = .done (.ok report) →
    Disk.Settled (fun i => (jobs i).entry resolve) disk (fun i => (owners i).staging) i

/-- The whole of what this run makes of its input, as the Parquet writer
spells it. -/
def CompleteFile (encode : List RecordBatch → β) (job : LocalRun) (content : Option β) : Prop :=
  ∃ batches, NewFile job.env job.transform (batches, true) ∧ content = some (encode batches)

/-- A published file outlasts a crash. -/
theorem Stored.whole {i : ι} {n : Nat} {e : Disk.Entry δ} (stored : Stored resolve encode jobs start disk owners)
    (reach : Transition.Reachable .initial (PipelineMoves (jobs i).env (jobs i).transform) (owners i).run)
    (placed : (owners i).staging = .persisted n) (crash : Disk.Survives disk after) (means : after.files e = some n) :
    CompleteFile encode (jobs i) (after.read e) := by
  have contents := stored.contents i
  rw [placed] at contents
  obtain ⟨file, published, content, flushed⟩ := contents
  rcases (reachable_atomic reach).publication.whole with unpublished | ⟨other, known, whole⟩
  · cases published.symm.trans unpublished
  · cases published.symm.trans known
    obtain ⟨batches, closed⟩ := file
    have shut : closed = true := whole.1
    refine ⟨batches, shut ▸ whole, ?_⟩
    rw [Disk.read, means, Option.map_some, crash.contents n flushed, content]

/-- The file of a run that has published is where it was renamed to. -/
theorem Stored.persisted {i : ι} (stored : Stored resolve encode jobs start disk owners)
    (published : (owners i).run.published ≠ none) : ∃ n, (owners i).staging = .persisted n := by
  have contents := stored.contents i
  generalize (owners i).staging = staging at contents
  cases staging with
  | absent | owned => exact absurd contents.1 published
  | dropped => exact absurd contents published
  | persisted n => exact ⟨n, rfl⟩

/-- The entry of a published run holds some run's complete file. -/
theorem Stored.replaced {i : ι} (stored : Stored resolve encode jobs start disk owners)
    (member : ∀ i, Transition.Reachable .initial (PipelineMoves (jobs i).env (jobs i).transform) (owners i).run)
    (published : (owners i).run.published ≠ none) : ∃ j, (jobs j).entry resolve = (jobs i).entry resolve ∧
      CompleteFile encode (jobs j) (disk.read ((jobs i).entry resolve)) := by
  obtain ⟨n, persisted⟩ := stored.persisted published
  obtain ⟨j, m, holds, same, means⟩ := stored.names.placed i n persisted
  exact ⟨j, same, stored.whole (member j) holds (.refl disk) means⟩

/-- The file of a run that published nothing has a reserved name at most. -/
theorem Stored.hidden {i : ι} {n : Nat} {e : Disk.Entry δ} (stored : Stored resolve encode jobs start disk owners)
    (unpublished : (owners i).run.published = none) (mine : (owners i).staging.file = some n)
    (unreserved : ¬ IsStaging e.name) (crash : Disk.Survives disk after) : after.files e ≠ some n := by
  intro means
  rcases stored.names.hidden i n e mine (means ▸ crash.files e) with staged | ⟨placed, _⟩
  · exact unreserved staged
  · have contents := stored.contents i
    rw [placed] at contents
    obtain ⟨file, published, _⟩ := contents
    cases unpublished.symm.trans published

variable [DecidableEq ι] [DecidableEq δ]

/-- Runs that share files, each taking its own steps. -/
def StagedRuns (resolve : String → δ) (encode : List RecordBatch → β) (jobs : ι → LocalRun) :
    Disk δ β × (ι → Owner δ) → Disk δ β × (ι → Owner δ) → Prop :=
  Transition.Together fun i => StagedStep resolve encode (jobs i)

theorem reachable_member
    (reach : Transition.Reachable (start, fun _ => Owner.initial δ) (StagedRuns resolve encode jobs) (disk, owners))
    (i : ι) : Transition.Reachable .initial (PipelineMoves (jobs i).env (jobs i).transform) (owners i).run :=
  Transition.Together.member Owner.run i (fun step => step.refines) reach

theorem Stored.step {i : ι} {next : Owner δ} (stored : Stored resolve encode jobs start disk owners)
    (bounded : start.Bounded) (free : ∀ i, ¬ IsStaging (jobs i).output.fileName)
    (reach : Transition.Reachable .initial (PipelineMoves (jobs i).env (jobs i).transform) (owners i).run)
    (step : StagedStep resolve encode (jobs i) disk (owners i) disk' next) :
    Stored resolve encode jobs start disk' (Function.update owners i next) := by
  have here : Function.update owners i next i = next := Function.update_self ..
  have others : ∀ j, j ≠ i → Function.update owners i next j = owners j := fun j ne => Function.update_of_ne ne ..
  generalize Function.update owners i next = owners' at here others ⊢
  subst here
  have handles := step.handles
  have held : ∀ j, j ≠ i → (owners' j).staging = (owners j).staging := fun j ne => by rw [others j ne]
  refine ⟨handles.sound bounded free stored.names held, fun j => ?_, fun j report ended => ?_⟩
  · by_cases same : j = i
    · subst same
      exact step.contents_hold reach (stored.contents j)
    · rw [others j same]
      refine (stored.contents j).beside fun n known => ?_
      refine handles.frame (stored.names.fresh j n known).2 fun mine => ?_
      exact same (stored.names.apart j i n known mine)
  · by_cases same : j = i
    · subst same
      rcases step.done ended with before | ⟨rfl, n, placed, same⟩
      · exact (stored.settled j report before).kept stored.names (free j) handles held
      · have unmoved : (fun i => (owners' i).staging) = fun i => (owners i).staging := by
          funext k
          by_cases here : k = j
          · rw [here, same]
          · exact held k here
        rw [unmoved]
        exact stored.names.settled placed
    · rw [others j same] at ended
      exact (stored.settled j report ended).kept stored.names (free j) handles held

theorem reachable_stored (bounded : start.Bounded) (free : ∀ i, ¬ IsStaging (jobs i).output.fileName)
    (reach : Transition.Reachable (start, fun _ => Owner.initial δ) (StagedRuns resolve encode jobs) (disk, owners)) :
    Stored resolve encode jobs start disk owners := by
  refine reach.invariant (fun now => Stored resolve encode jobs start now.1 now.2) ?_ ?_
  · refine ⟨Disk.sound_start bounded, fun i => ⟨rfl, rfl⟩, fun i report ended => by cases ended⟩
  · rintro _ _ before stored ⟨step⟩
    exact stored.step bounded free (reachable_member before _) step

/-- At some moment the entry of this run meant its file, which was
complete. -/
def Shown (resolve : String → δ) (encode : List RecordBatch → β) (jobs : ι → LocalRun) (start disk : Disk δ β)
    (owners : ι → Owner δ) (i : ι) : Prop :=
  ∃ then_ members n, Transition.Reachable (start, fun _ => Owner.initial δ) (StagedRuns resolve encode jobs)
      (then_, members) ∧
    Transition.Reachable (then_, members) (StagedRuns resolve encode jobs) (disk, owners) ∧
    (members i).staging = .persisted n ∧ then_.files ((jobs i).entry resolve) = some n ∧
    CompleteFile encode (jobs i) (then_.read ((jobs i).entry resolve))

/-- The file of a run was visible once it was renamed. -/
theorem reachable_shown (bounded : start.Bounded) (free : ∀ i, ¬ IsStaging (jobs i).output.fileName) {i : ι} {n : Nat}
    (reach : Transition.Reachable (start, fun _ => Owner.initial δ) (StagedRuns resolve encode jobs) (disk, owners))
    (placed : (owners i).staging = .persisted n) : Shown resolve encode jobs start disk owners i := by
  generalize config : (disk, owners) = now at reach
  induction reach generalizing disk owners with
  | start =>
    cases config
    cases placed
  | @next before now reach move ih =>
    have after := Transition.Reachable.next reach move
    subst config
    by_cases known : (before.2 i).staging = .persisted n
    · obtain ⟨then_, members, m, began, later, rest⟩ := ih known rfl
      exact ⟨then_, members, m, began, .next later move, rest⟩
    · have stored := reachable_stored bounded free after
      suffices means : disk.files ((jobs i).entry resolve) = some n from
        ⟨disk, owners, n, after, .start, placed, means,
          stored.whole (reachable_member after i) placed (.refl disk) means⟩
      have earlier := reachable_stored bounded free reach
      cases move with
      | @move _ _ members j next step =>
        by_cases same : i = j
        · subst same
          rw [Function.update_self] at placed
          exact (Disk.Handling.replaces earlier.names (free i) (placed ▸ step.handles)).resolve_left known
        · rw [Function.update_of_ne same] at placed
          exact absurd placed known

/-- Any number of runs that publish into the same directories, at the same
outputs or others, leave each output whole, at every moment and after a crash
at any moment: as it would have been without them, or one run's complete file.
A run that reports success, or a failure to sync its directory, has shown its
file, and success is never undone. One that reports another failure has not.
No temporary file stays behind but those in use and those that could not be
removed, and no other file of such a name is touched. -/
theorem concurrent_outputs_durable (bounded : start.Bounded) (free : ∀ i, ¬ IsStaging (jobs i).output.fileName)
    (reach : Transition.Reachable (start, fun _ => Owner.initial δ) (StagedRuns resolve encode jobs) (disk, owners))
    (crash : Disk.Survives disk after) :
    (∀ e : Disk.Entry δ, ¬ IsStaging e.name →
      (disk.read e = start.read e ∨ ∃ i, (jobs i).entry resolve = e ∧ CompleteFile encode (jobs i) (disk.read e)) ∧
      ((∃ before, Disk.Survives start before ∧ after.read e = before.read e) ∨
        ∃ i, (jobs i).entry resolve = e ∧ CompleteFile encode (jobs i) (after.read e))) ∧
    (∀ i report, (owners i).run.main = .done (.ok report) → Shown resolve encode jobs start disk owners i ∧
      ∃ j, (jobs j).entry resolve = (jobs i).entry resolve ∧
        CompleteFile encode (jobs j) (after.read ((jobs i).entry resolve))) ∧
    (∀ i error, (owners i).run.main = .done (.error error) →
      (AtParentSync error → Shown resolve encode jobs start disk owners i ∧
        ∃ j, (jobs j).entry resolve = (jobs i).entry resolve ∧
          CompleteFile encode (jobs j) (disk.read ((jobs i).entry resolve))) ∧
      (¬ AtParentSync error → ∀ e n, ¬ IsStaging e.name → (owners i).staging.file = some n →
        after.files e ≠ some n)) ∧
    ∀ e n, IsStaging e.name →
      (start.files e = some n → disk.files e = some n ∧ disk.contents n = start.contents n) ∧
      (disk.files e = some n → start.files e = some n ∨
        ∃ i, (owners i).staging = .owned ⟨e, n⟩ ∨ (owners i).staging = .dropped ⟨e, n⟩ false) := by
  have stored := reachable_stored bounded free reach
  have member := reachable_member reach
  have shown : ∀ i, (owners i).run.published ≠ none → Shown resolve encode jobs start disk owners i := by
    intro i published
    obtain ⟨n, placed⟩ := stored.persisted published
    exact reachable_shown bounded free reach placed
  refine ⟨fun e unreserved => ⟨?_, ?_⟩, fun i report ended => ?_, fun i error ended => ?_, fun e n staged => ⟨?_, ?_⟩⟩
  · rcases stored.names.visible e unreserved with same | ⟨i, n, placed, same, means⟩
    · left
      rw [Disk.read, Disk.read, same]
      cases known : start.files e with
      | none => rfl
      | some n => rw [Option.map_some, Option.map_some, (stored.names.old n (bounded e n (Or.inl known.symm))).1]
    · exact Or.inr ⟨i, same, stored.whole (member i) placed (.refl disk) means⟩
  · refine (stored.names.after_crash crash unreserved bounded).imp id ?_
    rintro ⟨i, n, placed, same, means⟩
    exact ⟨i, same, stored.whole (member i) placed crash means⟩
  · have publication := (reachable_atomic (member i)).publication
    simp only [PublicationHolds, ended] at publication
    obtain ⟨file, published, _⟩ := publication
    obtain ⟨j, n, placed, same, means⟩ := stored.settled i report ended _ (crash.files _)
    exact ⟨shown i (by simp [published]), j, same, stored.whole (member j) placed crash means⟩
  · have publication := (reachable_atomic (member i)).publication
    simp only [PublicationHolds, ended] at publication
    rcases publication with ⟨unpublished, unblamed⟩ | ⟨⟨file, published, _⟩, source, rfl⟩
    · exact ⟨fun late => absurd late unblamed.early,
        fun _ e n unreserved mine => stored.hidden unpublished mine unreserved crash⟩
    · have visible : (owners i).run.published ≠ none := by simp [published]
      exact ⟨fun _ => ⟨shown i visible, stored.replaced member visible⟩, fun early => absurd rfl early⟩
  · intro known
    exact ⟨stored.names.kept e n staged known, (stored.names.old n (bounded e n (Or.inl known.symm))).1⟩
  · exact stored.names.litter e n staged

end Fleets

section Covering

variable {ι δ β : Type} [DecidableEq ι] [DecidableEq δ] {resolve : String → δ} {encode : List RecordBatch → β}
  {jobs : ι → LocalRun} {i : ι} {begun : Disk δ β × (ι → Owner δ)} {disk : Disk δ β} {s t : Pipeline} {cause : Cause}

/-- The staged output that a run needs to go on. -/
def Equipped (resolve : String → δ) (job : LocalRun) (disk : Disk δ β) (staging : Staging δ) : Main → Prop
  | .start | .creating => staging = .absent ∧ ∃ name, IsStaging name ∧ disk.files ⟨resolve job.output.parent, name⟩ = none
  | .connecting | .running | .deciding _ | .syncing _ | .renaming _ =>
    ∃ temp : NamedTempFile δ, staging = .owned temp ∧ disk.files temp.path = some temp.file
  | .syncingParent _ => ∃ n, staging = .persisted n
  | .done _ | .panicked => True

/-- A run among others that stand still, with this disk and its state. -/
def Lone (resolve : String → δ) (encode : List RecordBatch → β) (jobs : ι → LocalRun) (i : ι)
    (begun : Disk δ β × (ι → Owner δ)) (disk : Disk δ β) (owner : Owner δ) : Prop :=
  Transition.Reachable begun (StagedRuns resolve encode jobs) (disk, Function.update begun.2 i owner)

theorem Lone.next {disk' : Disk δ β} {owner owner' : Owner δ} (reach : Lone resolve encode jobs i begun disk owner)
    (step : StagedStep resolve encode (jobs i) disk owner disk' owner') :
    Lone resolve encode jobs i begun disk' owner' := by
  have moved : StagedRuns resolve encode jobs (disk, Function.update begun.2 i owner)
      (disk', Function.update (Function.update begun.2 i owner) i owner') := by
    refine .move ?_
    rwa [Function.update_self]
  rw [Function.update_idem] at moved
  exact Transition.Reachable.next reach moved

theorem Lone.begin (reach : Lone resolve encode jobs i begun disk ⟨s, .absent⟩) (here : s.main = .creating)
    (vacant : ∃ name, IsStaging name ∧ disk.files ⟨resolve (jobs i).output.parent, name⟩ = none) :
    ∃ (disk' : Disk δ β) (temp : NamedTempFile δ), Lone resolve encode jobs i begun disk' ⟨s, .owned temp⟩ ∧
      disk'.files temp.path = some temp.file := by
  obtain ⟨name, staged, free⟩ := vacant
  have step : StagedStep resolve encode (jobs i) disk ⟨s, .absent⟩
      (disk.create ⟨resolve (jobs i).output.parent, name⟩ (disk.contents 0))
      ⟨s, .owned ⟨⟨resolve (jobs i).output.parent, name⟩, disk.created⟩⟩ := .tempfile here staged free
  exact ⟨_, _, reach.next step, Disk.assign_files_self⟩

theorem Lone.control {staging : Staging δ} (reach : Lone resolve encode jobs i begun disk ⟨s, staging⟩)
    (equipped : Equipped resolve (jobs i) disk staging s.main) (step : Controls (jobs i).env s cause t) :
    ∃ disk' staging', Lone resolve encode jobs i begun disk' ⟨t, staging'⟩ ∧
      Equipped resolve (jobs i) disk' staging' t.main := by
  cases step with
  | refuse here =>
    rw [here] at equipped
    exact ⟨disk, staging, reach.next (.control (.refuse here ‹_›) (Or.inl here)), trivial⟩
  | enter here =>
    rw [here] at equipped
    exact ⟨disk, staging, reach.next (.control (.enter here ‹_›) (Or.inl here)), equipped⟩
  | failCreate here =>
    rw [here] at equipped
    obtain ⟨rfl, _⟩ := equipped
    exact ⟨disk, .absent, reach.next (.failTempfile here), trivial⟩
  | @failWriter source here =>
    rw [here] at equipped
    obtain ⟨rfl, vacant⟩ := equipped
    obtain ⟨disk', temp, begun, placed⟩ := reach.begin here vacant
    have step : StagedStep resolve encode (jobs i) disk' ⟨s, .owned temp⟩
        (disk'.write temp.file (disk'.contents temp.file))
        ⟨{ s with main := .done (.error (failure (jobs i).env.output .write (.writeParquet source))) }, .owned temp⟩ :=
      .failWriter here placed
    exact ⟨_, _, begun.next step, trivial⟩
  | create here =>
    rw [here] at equipped
    obtain ⟨rfl, vacant⟩ := equipped
    obtain ⟨disk', temp, begun, placed⟩ := reach.begin here vacant
    have step : StagedStep resolve encode (jobs i) disk' ⟨s, .owned temp⟩
        (disk'.write temp.file (disk'.contents temp.file)) ⟨{ s with main := .connecting }, .owned temp⟩ :=
      .create here placed
    exact ⟨_, _, begun.next step, temp, rfl, placed⟩
  | connect here slots =>
    rw [here] at equipped
    exact ⟨disk, staging, reach.next (.control (.connect here slots) (Or.inr (Or.inl here))), equipped⟩
  | overflow here slots =>
    exact ⟨disk, staging, reach.next (.control (.overflow here slots) (Or.inr (Or.inl here))), trivial⟩
  | join here produced consumed =>
    rw [here] at equipped
    exact ⟨disk, staging, reach.next (.control (.join here produced consumed) (Or.inr (Or.inr (Or.inl here)))), equipped⟩
  | panic here produced consumed =>
    exact ⟨disk, staging, reach.next (.control (.panic here produced consumed) (Or.inr (Or.inr (Or.inl here)))), trivial⟩
  | fail here =>
    exact ⟨disk, staging, reach.next (.control (.fail here) (Or.inr (Or.inr (Or.inr ⟨_, here⟩)))), trivial⟩
  | abandon here raised =>
    exact ⟨disk, staging, reach.next (.control (.abandon here raised) (Or.inr (Or.inr (Or.inr ⟨_, here⟩)))), trivial⟩
  | decide here lowered =>
    rw [here] at equipped
    exact ⟨disk, staging, reach.next (.control (.decide here lowered) (Or.inr (Or.inr (Or.inr ⟨_, here⟩)))), equipped⟩
  | failSync here =>
    rw [here] at equipped
    obtain ⟨temp, rfl, _⟩ := equipped
    exact ⟨disk, _, reach.next (.failSync here), trivial⟩
  | sync here =>
    rw [here] at equipped
    obtain ⟨temp, rfl, placed⟩ := equipped
    exact ⟨_, _, reach.next (.sync here), temp, rfl, placed⟩
  | failRename here =>
    rw [here] at equipped
    obtain ⟨temp, rfl, _⟩ := equipped
    exact ⟨disk, _, reach.next (.failRename here), trivial⟩
  | «rename» here =>
    rw [here] at equipped
    obtain ⟨temp, rfl, placed⟩ := equipped
    exact ⟨_, _, reach.next (.rename here placed), temp.file, rfl⟩
  | failParent here =>
    rw [here] at equipped
    obtain ⟨n, rfl⟩ := equipped
    exact ⟨disk, _, reach.next (.failParent here), trivial⟩
  | publish here =>
    rw [here] at equipped
    obtain ⟨n, rfl⟩ := equipped
    exact ⟨_, _, reach.next (.publish here), trivial⟩

theorem Lone.step {staging : Staging δ} (reach : Lone resolve encode jobs i begun disk ⟨s, staging⟩)
    (equipped : Equipped resolve (jobs i) disk staging s.main) (scope : ScopeHolds s)
    (step : PipelineStep (jobs i).env (jobs i).transform s cause t) :
    ∃ disk' staging', Lone resolve encode jobs i begun disk' ⟨t, staging'⟩ ∧
      Equipped resolve (jobs i) disk' staging' t.main := by
  rcases step.undecided with controlled | ⟨main, _⟩
  · exact reach.control equipped controlled
  · rw [main]
    by_cases outside : s.consumer.Encodes → t.consumer = s.consumer
    · exact ⟨disk, staging, reach.next (.thread step main outside), equipped⟩
    · rw [Classical.not_imp] at outside
      obtain ⟨encodes, changed⟩ := outside
      rw [scope.encodes encodes] at equipped ⊢
      obtain ⟨temp, rfl, placed⟩ := equipped
      rcases step.unreceived with moved | ⟨⟨same, _⟩, _⟩
      · cases moved with
        | failWrite phase =>
          exact ⟨disk.write temp.file (disk.contents 0), _, reach.next (.write phase (.failWrite phase)), temp, rfl, placed⟩
        | write phase =>
          exact ⟨disk.write temp.file (disk.contents 0), _, reach.next (.write phase (.write phase)), temp, rfl, placed⟩
        | close phase => exact ⟨_, _, reach.next (.close phase), temp, rfl, placed⟩
        | failClose phase =>
          exact ⟨disk.write temp.file (disk.contents 0), _, reach.next (.failClose phase), temp, rfl, placed⟩
        | refuse _ phase | start _ phase | fail phase | exhaust phase | receive phase | interrupt phase | check phase
        | skip phase | transform phase | failTransform phase | reject phase | accept phase | release phase | next phase
        | abandon phase | drain phase | unwindLease phase | unwindExpired phase | drop phase =>
          rw [phase] at encodes
          exact encodes.elim
      · exact absurd same changed

/-- On a disk with room for a temporary file a run can do all that it can do
by itself. -/
theorem lone_of_reachable (idle : begun.2 i = .initial δ)
    (vacant : ∃ name, IsStaging name ∧ begun.1.files ⟨resolve (jobs i).output.parent, name⟩ = none)
    (reach : Transition.Reachable .initial (PipelineMoves (jobs i).env (jobs i).transform) s) :
    ∃ (disk : Disk δ β) (staging : Staging δ), Lone resolve encode jobs i begun disk ⟨s, staging⟩ ∧
      Equipped resolve (jobs i) disk staging s.main := by
  induction reach with
  | start =>
    have still : Function.update begun.2 i ⟨.initial, .absent⟩ = begun.2 := by
      rw [show (⟨.initial, .absent⟩ : Owner δ) = begun.2 i from idle.symm, Function.update_eq_self]
    refine ⟨begun.1, .absent, ?_, rfl, vacant⟩
    rw [Lone, still]
    exact .start
  | next before move ih =>
    obtain ⟨disk, staging, lone, equipped⟩ := ih
    obtain ⟨cause, step⟩ := move
    exact lone.step equipped (reachable_scope before) step

end Covering

def oneRowRun : LocalRun where
  env := oneRow
  transform := some keepBatch
  output := ⟨none, "output.parquet"⟩

/-- Something stands at the output of the run. -/
def oldOutput : Disk String (List RecordBatch) where
  files := fun e => if e = ⟨".", "output.parquet"⟩ then some 0 else none
  pending := fun _ => []
  contents := fun _ => []
  flushed := fun _ => true
  created := 1

/-- A crash that takes back all that was not synchronized. -/
def withdrawn {δ β : Type} (disk : Disk δ β) (lost : β) : Disk δ β :=
  { disk with
    files := fun e => (disk.pending e).getLastD (disk.files e)
    contents := fun n => if disk.flushed n then disk.contents n else lost }

theorem withdrawn_survives {δ β : Type} (disk : Disk δ β) (lost : β) : Disk.Survives disk (withdrawn disk lost) where
  files := by
    intro e
    show disk.May e ((disk.pending e).getLastD (disk.files e))
    cases pending : disk.pending e with
    | nil => exact Or.inl rfl
    | cons first rest =>
      refine Or.inr ?_
      rw [pending, List.getLastD_cons]
      exact List.getLastD_mem_cons ..
  contents := fun _ flushed => if_pos flushed

/-- One run leaves a name free. -/
theorem Stored.vacant {ι δ β : Type} {resolve : String → δ} {encode : List RecordBatch → β} {jobs : ι → LocalRun}
    {start disk : Disk δ β} {owners : ι → Owner δ} (stored : Stored resolve encode jobs start disk owners) {i : ι}
    (idle : ∀ j, j ≠ i → (owners j).staging = .absent) {d : δ}
    (clean : ∀ name, IsStaging name → start.files ⟨d, name⟩ = none) :
    ∃ name, IsStaging name ∧ disk.files ⟨d, name⟩ = none := by
  have first : IsStaging ".datacrate-a1b2c3" := ⟨"a1b2c3".toList, by decide +kernel⟩
  have second : IsStaging ".datacrate-d4e5f6" := ⟨"d4e5f6".toList, by decide +kernel⟩
  have mine : ∀ name n, IsStaging name → disk.files ⟨d, name⟩ = some n →
      (owners i).staging = .owned ⟨⟨d, name⟩, n⟩ ∨ (owners i).staging = .dropped ⟨⟨d, name⟩, n⟩ false := by
    intro name n staged means
    rcases stored.names.litter _ n staged means with old | ⟨j, held⟩
    · cases (clean name staged).symm.trans old
    · by_cases same : j = i
      · rwa [same] at held
      · rw [idle j same] at held
        rcases held with held | held <;> cases held
  cases here : disk.files ⟨d, ".datacrate-a1b2c3"⟩ with
  | none => exact ⟨_, first, here⟩
  | some n =>
    cases there : disk.files ⟨d, ".datacrate-d4e5f6"⟩ with
    | none => exact ⟨_, second, there⟩
    | some m =>
      rcases mine _ n first here with one | one <;> rcases mine _ m second there with other | other <;>
        exact absurd (one.symm.trans other) (by simp)

/-- Two runs at one output. -/
def twoRuns : Bool → LocalRun :=
  fun _ => oneRowRun

/-- One run reports success, then another replaces its output and fails to
sync the directory. A crash takes the second file back, and the output of the
first run stays. -/
theorem twoRuns_durable : ∃ disk owners report,
    Transition.Reachable (oldOutput, fun _ => Owner.initial String) (StagedRuns id id twoRuns) (disk, owners) ∧
      (owners true).run.main = .done (.ok report) ∧
      (owners false).run.main = .done (.error (ioFailure "output.parquet" .parentSync "unplugged")) ∧
      Shown id id twoRuns oldOutput disk owners false ∧
      ∃ i, CompleteFile id (twoRuns i) ((withdrawn disk []).read ⟨".", "output.parquet"⟩) := by
  obtain ⟨s, report, reach, succeeded, _⟩ := @oneRow_succeeds "input.csv" "output.parquet"
  obtain ⟨t, reach', failed⟩ := oneRow_run
  have bounded : oldOutput.Bounded := by
    rintro e n (means | pending)
    · simp only [oldOutput] at means
      split at means
      · cases means
        decide
      · cases means
    · cases pending
  have free : ∀ i, ¬ IsStaging (twoRuns i).output.fileName := by
    rintro _ ⟨rest, same⟩
    have first := congrArg List.head? same
    simp [stagingPrefix, twoRuns, oneRowRun] at first
  have clean : ∀ name, IsStaging name → oldOutput.files ⟨".", name⟩ = none := by
    rintro name ⟨rest, same⟩
    refine if_neg fun clash => ?_
    rw [(Disk.Entry.mk.inj clash).2] at same
    have first := congrArg List.head? same
    simp [stagingPrefix] at first
  have named : IsStaging ".datacrate-a1b2c3" := ⟨"a1b2c3".toList, by decide +kernel⟩
  obtain ⟨disk, staging, lone, _⟩ := @lone_of_reachable Bool String _ _ _ id id twoRuns true
    (oldOutput, fun _ => .initial String) s rfl ⟨_, named, clean _ named⟩ reach
  have idle : ∀ j, j ≠ true → (Function.update (fun _ => Owner.initial String) true ⟨s, staging⟩ j).staging = .absent := by
    intro j other
    rw [Function.update_of_ne other]
    rfl
  have vacant := (reachable_stored bounded free lone).vacant idle clean
  obtain ⟨disk', staging', later, _⟩ := @lone_of_reachable Bool String _ _ _ id id twoRuns false
    (disk, Function.update (fun _ => Owner.initial String) true ⟨s, staging⟩) t
    (Function.update_of_ne (show false ≠ true by decide) ⟨s, staging⟩ fun _ => Owner.initial String) vacant reach'
  have whole := lone.trans later
  have ok : (Function.update (Function.update (fun _ => Owner.initial String) true ⟨s, staging⟩) false ⟨t, staging'⟩
      true).run.main = .done (.ok report) := by
    rw [Function.update_of_ne (show true ≠ false by decide), Function.update_self]
    exact succeeded
  have error : (Function.update (Function.update (fun _ => Owner.initial String) true ⟨s, staging⟩) false ⟨t, staging'⟩
      false).run.main = .done (.error (ioFailure "output.parquet" .parentSync "unplugged")) := by
    rw [Function.update_self]
    exact failed
  obtain ⟨_, survives, ends, _⟩ := concurrent_outputs_durable bounded free whole (withdrawn_survives disk' [])
  obtain ⟨_, j, _, complete⟩ := survives true report ok
  exact ⟨disk', _, report, whole, ok, error, ((ends false _ error).1 rfl).1, j, complete⟩

end Datacrate.Bounded
