import Datacrate.Lib.Transition

namespace Datacrate.Ballista

/-- An error of the executor, or one that the app makes itself. -/
inductive BallistaError where
  | general (text : String)
  | other (text : String)
  deriving DecidableEq, Repr

abbrev BallistaResult := Except BallistaError Unit

/-- The scheduler's process, with the text of its exit status. One that was
waited for is reaped. -/
inductive Process where
  | unspawned
  | running
  | exited (status : String)
  | reaped (status : String)
  deriving DecidableEq, Repr

/-- Killing a process that was waited for sends nothing. -/
def Process.takesSignal : Process → Bool
  | .reaped _ => false
  | _ => true

/-- Where `run` is. Between two polls it sleeps; a run that is dropped at an
await, or that a panic of the executor unwinds, is abandoned. -/
inductive Stage where
  | start
  | polling
  | sleeping
  | selected (result : BallistaResult)
  | killed (result : BallistaResult)
  | done (result : BallistaResult)
  | abandoned

/-- The app, its scheduler, what its executor has come to, and whether the app
has sent the kill signal. -/
structure App where
  stage : Stage
  process : Process
  executor : Option BallistaResult
  signalled : Bool

def App.initial : App :=
  ⟨.start, .unspawned, none, false⟩

/-- Why a step happens: the app, its timer and its signal do their work, or the
scheduler or the executor ends by itself, or something goes wrong. -/
inductive Cause where
  | work
  | ending
  | spawnFault
  | pollFault
  | killFault
  | waitFault
  | abandon
  deriving DecidableEq

/-- The select is waiting for its first branch. -/
def Stage.Supervising : Stage → Prop
  | .polling | .sleeping => True
  | _ => False

def notStarted (source : String) : BallistaError :=
  .general ("failed to start ballista-scheduler: " ++ source)

def exitedUnexpectedly (status : String) : BallistaError :=
  .general ("ballista-scheduler exited unexpectedly: " ++ status)

def notPolled (source : String) : BallistaError :=
  .general ("failed to poll ballista-scheduler: " ++ source)

/-- The steps of the app, of the scheduler's process and of the executor, in
any order. One poll of the select looks at both branches, so it sleeps only
while the executor has not come to a result. -/
inductive AppStep : App → Cause → App → Prop
  | failSpawn {s} (source : String) : s.stage = .start →
      AppStep s .spawnFault { s with stage := .done (.error (notStarted source)) }
  | spawn {s} : s.stage = .start → AppStep s .work { s with stage := .polling, process := .running }
  | exit {s} (status : String) : s.process = .running → AppStep s .ending { s with process := .exited status }
  | execute {s} (result : BallistaResult) : s.stage.Supervising → s.executor = none →
      AppStep s .ending { s with executor := some result }
  | finish {s result} : s.stage.Supervising → s.executor = some result →
      AppStep s .work { s with stage := .selected result }
  | alive {s} : s.stage = .polling → s.process = .running → s.executor = none →
      AppStep s .work { s with stage := .sleeping }
  | notice {s status} : s.stage = .polling → s.process = .exited status →
      AppStep s .work { s with stage := .selected (.error (exitedUnexpectedly status)), process := .reaped status }
  | failPoll {s} (source : String) : s.stage = .polling →
      AppStep s .pollFault { s with stage := .selected (.error (notPolled source)) }
  | wake {s} : s.stage = .sleeping → AppStep s .work { s with stage := .polling }
  | abandon {s} : s.stage.Supervising → AppStep s .abandon { s with stage := .abandoned }
  | kill {s result} : s.stage = .selected result →
      AppStep s .work { s with stage := .killed result, signalled := s.process.takesSignal }
  | failKill {s result} : s.stage = .selected result → AppStep s .killFault { s with stage := .killed result }
  | die {s} (status : String) : s.signalled = true → s.process = .running →
      AppStep s .work { s with process := .exited status }
  | wait {s result status} : s.stage = .killed result → s.process = .exited status ∨ s.process = .reaped status →
      AppStep s .work { s with stage := .done result, process := .reaped status }
  | failWait {s result} : s.stage = .killed result → AppStep s .waitFault { s with stage := .done result }

def AppMoves (s t : App) : Prop :=
  ∃ cause, AppStep s cause t

/-- A result that the select may have chosen: the executor's own, that the
scheduler has exited, or that it could not be polled. -/
def Accounted (s : App) (result : BallistaResult) : Prop :=
  s.executor = some result ∨ (∃ status, result = .error (exitedUnexpectedly status) ∧ s.process = .reaped status) ∨
    ∃ source, result = .error (notPolled source)

/-- What the app knows at each stage. -/
def StageHolds (s : App) : Prop :=
  match s.stage with
  | .start => s.process = .unspawned ∧ s.signalled = false
  | .polling | .sleeping | .abandoned =>
    (s.process = .running ∨ ∃ status, s.process = .exited status) ∧ s.signalled = false
  | .selected result => s.process ≠ .unspawned ∧ s.signalled = false ∧ Accounted s result
  | .killed result => s.process ≠ .unspawned ∧ Accounted s result
  | .done result => (s.process = .unspawned ∧ ∃ source, result = .error (notStarted source)) ∨
      (s.process ≠ .unspawned ∧ Accounted s result)

section Runs

variable {s t : App} {cause : Cause} {result : BallistaResult}

theorem Stage.supervising_iff {stage : Stage} : stage.Supervising ↔ stage = .polling ∨ stage = .sleeping := by
  cases stage <;> simp [Supervising]

theorem Accounted.kept (old : Accounted s result) (executor : t.executor = s.executor)
    (process : ∀ status, s.process = .reaped status → t.process = .reaped status) : Accounted t result := by
  rcases old with own | ⟨status, failed, reaped⟩ | unpolled
  · exact Or.inl (executor.trans own)
  · exact Or.inr (Or.inl ⟨status, failed, process status reaped⟩)
  · exact Or.inr (Or.inr unpolled)

/-- The end of a process that runs is no matter to a stage. -/
theorem StageHolds.exited {status : String} (old : StageHolds s) (running : s.process = .running) :
    StageHolds { s with process := .exited status } := by
  unfold StageHolds at old ⊢
  have kept : ∀ result, Accounted s result → Accounted { s with process := .exited status } result :=
    fun result accounted => accounted.kept rfl fun _ reaped => by simp [running] at reaped
  dsimp only
  generalize s.stage = stage at old ⊢
  cases stage with
  | start => simp [running] at old
  | polling | sleeping | abandoned => exact ⟨Or.inr ⟨status, rfl⟩, old.2⟩
  | selected result => exact ⟨by simp, old.2.1, kept result old.2.2⟩
  | killed result => exact ⟨by simp, kept result old.2⟩
  | done result =>
    rcases old with ⟨unspawned, _⟩ | ⟨_, accounted⟩
    · simp [running] at unspawned
    · exact Or.inr ⟨by simp, kept result accounted⟩

/-- While the app supervises, its scheduler was spawned and is not waited for,
and has had no signal. -/
theorem stageHolds_iff (supervising : s.stage.Supervising) :
    StageHolds s ↔ (s.process = .running ∨ ∃ status, s.process = .exited status) ∧ s.signalled = false := by
  rcases Stage.supervising_iff.mp supervising with stage | stage
  · simp only [StageHolds, stage]
  · simp only [StageHolds, stage]

theorem spawned {process : Process} (alive : process = .running ∨ ∃ status, process = .exited status) :
    process ≠ .unspawned := by
  rcases alive with rfl | ⟨status, rfl⟩ <;> simp

theorem AppStep.holds (step : AppStep s cause t) (old : StageHolds s) : StageHolds t := by
  cases step with
  | failSpawn source stage =>
    simp only [StageHolds, stage] at old
    exact Or.inl ⟨old.1, source, rfl⟩
  | spawn stage =>
    simp only [StageHolds, stage] at old
    exact ⟨Or.inl rfl, old.2⟩
  | exit status running => exact old.exited running
  | die status signalled running => exact old.exited running
  | execute result supervising =>
    have known := (stageHolds_iff supervising).mp old
    exact (stageHolds_iff (s := { s with executor := some result }) supervising).mpr known
  | finish supervising executed =>
    obtain ⟨process, signalled⟩ := (stageHolds_iff supervising).mp old
    exact ⟨spawned process, signalled, Or.inl executed⟩
  | alive stage =>
    simp only [StageHolds, stage] at old
    exact old
  | notice stage exited =>
    simp only [StageHolds, stage] at old
    exact ⟨by simp, old.2, Or.inr (Or.inl ⟨_, rfl, rfl⟩)⟩
  | failPoll source stage =>
    simp only [StageHolds, stage] at old
    exact ⟨spawned old.1, old.2, Or.inr (Or.inr ⟨source, rfl⟩)⟩
  | wake stage =>
    simp only [StageHolds, stage] at old
    exact old
  | abandon supervising =>
    have known := (stageHolds_iff supervising).mp old
    exact known
  | kill stage | failKill stage =>
    simp only [StageHolds, stage] at old
    exact ⟨old.1, old.2.2⟩
  | wait stage ended =>
    simp only [StageHolds, stage] at old
    refine Or.inr ⟨by simp, old.2.kept rfl fun other reaped => ?_⟩
    rcases ended with exited | already
    · simp [reaped] at exited
    · exact already.symm.trans reaped
  | failWait stage =>
    simp only [StageHolds, stage] at old
    exact Or.inr old

theorem reachable_stage (reach : Transition.Reachable .initial AppMoves s) : StageHolds s :=
  reach.invariant StageHolds ⟨rfl, rfl⟩ fun _ old ⟨_, step⟩ => step.holds old

/-- A run without a fault of waiting returns when its scheduler is reaped, if
it was spawned at all. -/
def ReapedWhenDone (s : App) : Prop :=
  ∀ result, s.stage = .done result → s.process = .unspawned ∨ ∃ status, s.process = .reaped status

theorem AppStep.reaped (step : AppStep s cause t) (waits : cause ≠ .waitFault) (holds : StageHolds s)
    (old : ReapedWhenDone s) : ReapedWhenDone t := by
  cases step with
  | failSpawn source stage =>
    simp only [StageHolds, stage] at holds
    exact fun _ _ => Or.inl holds.1
  | exit status running | die status _ running =>
    intro result stage
    rcases old result stage with unspawned | ⟨status, reaped⟩
    · simp [running] at unspawned
    · simp [running] at reaped
  | execute => exact old
  | wait => exact fun _ _ => Or.inr ⟨_, rfl⟩
  | failWait => exact absurd rfl waits
  | _ =>
    intro result stage
    cases stage

/-- The run is about to end: the scheduler has exited or the executor has come
to a result, or the select is already over. -/
def Ending (s : App) : Prop :=
  match s.stage with
  | .polling | .sleeping => (∃ status, s.process = .exited status) ∨ s.executor.isSome = true
  | .selected _ => True
  | .killed _ => s.process = .running → s.signalled = true
  | .done _ => ∃ status, s.process = .reaped status
  | .start | .abandoned => False

theorem AppStep.ending (step : AppStep s .work t) (old : Ending s) : Ending t := by
  cases step with
  | spawn stage => simp [Ending, stage] at old
  | finish | notice => trivial
  | alive stage running executing =>
    simp only [Ending, stage] at old
    rcases old with ⟨status, exited⟩ | executed
    · simp [running] at exited
    · simp [executing] at executed
  | wake stage =>
    simp only [Ending, stage] at old
    exact old
  | kill =>
    intro running
    show Process.takesSignal _ = true
    rw [running]
    rfl
  | die status signalled running =>
    unfold Ending at old ⊢
    dsimp only
    generalize s.stage = stage at old ⊢
    cases stage with
    | polling | sleeping => exact Or.inl ⟨status, rfl⟩
    | selected result => trivial
    | killed result => exact fun still => by cases still
    | done result =>
      obtain ⟨other, reaped⟩ := old
      simp [running] at reaped
    | start | abandoned => exact old
  | wait => exact ⟨_, rfl⟩

def Stage.rank : Stage → Nat
  | .start => 5
  | .sleeping => 4
  | .polling => 3
  | .selected _ => 2
  | .killed _ => 1
  | .done _ | .abandoned => 0

/-- What is left to do of a run that is about to end. -/
def App.rank (s : App) : Nat :=
  s.stage.rank + if s.process = .running then 1 else 0

theorem AppStep.lowers (step : AppStep s .work t) (old : Ending s) : t.rank < s.rank := by
  have supervising : ∀ {stage : Stage}, stage.Supervising → 3 ≤ stage.rank := by
    intro stage here
    rcases Stage.supervising_iff.mp here with rfl | rfl <;> simp [Stage.rank]
  cases step with
  | spawn stage => simp [Ending, stage] at old
  | finish here =>
    have high := supervising here
    have low : ∀ result, (Stage.selected result).rank = 2 := fun _ => rfl
    simp only [App.rank, low]
    omega
  | alive stage running executing =>
    simp only [Ending, stage] at old
    rcases old with ⟨status, exited⟩ | executed
    · simp [running] at exited
    · simp [executing] at executed
  | notice stage exited => simp [App.rank, stage, exited, Stage.rank]
  | wake stage | kill stage =>
    simp only [App.rank, stage, Stage.rank]
    omega
  | die status signalled running => simp [App.rank, running]
  | wait stage ended =>
    have stopped : s.process ≠ .running := by rcases ended with exited | reaped <;> simp [*]
    simp [App.rank, stage, stopped, Stage.rank]

theorem Ending.moves (ending : Ending s) (holds : StageHolds s) :
    (∃ result status, s.stage = .done result ∧ s.process = .reaped status) ∨ ∃ t, AppStep s .work t := by
  cases stage : s.stage with
  | start | abandoned => simp [Ending, stage] at ending
  | sleeping => exact Or.inr ⟨_, .wake stage⟩
  | polling =>
    simp only [Ending, stage] at ending
    rcases ending with ⟨status, exited⟩ | executed
    · exact Or.inr ⟨_, .notice stage exited⟩
    · obtain ⟨result, executed⟩ := Option.isSome_iff_exists.mp executed
      exact Or.inr ⟨_, .finish (by rw [stage]; trivial) executed⟩
  | selected result => exact Or.inr ⟨_, .kill stage⟩
  | killed result =>
    simp only [Ending, stage] at ending
    simp only [StageHolds, stage] at holds
    cases process : s.process with
    | unspawned => exact absurd process holds.1
    | running => exact Or.inr ⟨_, .die "" (ending process) process⟩
    | exited status => exact Or.inr ⟨_, .wait stage (Or.inl process)⟩
    | reaped status => exact Or.inr ⟨_, .wait stage (Or.inr process)⟩
  | done result =>
    simp only [Ending, stage] at ending
    obtain ⟨status, reaped⟩ := ending
    exact Or.inl ⟨result, status, rfl, reaped⟩

theorem Ending.ends (ending : Ending s) (holds : StageHolds s) :
    Transition.Inevitable (AppStep · .work ·)
      (fun t => ∃ result status, t.stage = .done result ∧ t.process = .reaped status ∧ Accounted t result) s := by
  have kept : ∀ {t}, Transition.Reachable s (AppStep · .work ·) t → StageHolds t ∧ Ending t := fun reach =>
    reach.invariant (fun t => StageHolds t ∧ Ending t) ⟨holds, ending⟩ fun _ old step =>
      ⟨step.holds old.1, step.ending old.2⟩
  refine Transition.Reachable.inevitable App.rank id (fun reach => ?_) (fun reach step => step.lowers (kept reach).2) .start
  refine (kept reach).2.moves (kept reach).1 |>.imp_left ?_
  rintro ⟨result, status, stage, reaped⟩
  have told := (kept reach).1
  simp only [StageHolds, stage] at told
  rcases told with ⟨unspawned, _⟩ | ⟨_, accounted⟩
  · simp [reaped] at unspawned
  · exact ⟨result, status, stage, reaped, accounted⟩

end Runs

/-- A run of the app in any order of steps. It returns an error of its own if
the scheduler was never started, and otherwise the executor's own result, or
an error if the scheduler has really exited or could not be polled; and it
then has reaped the scheduler, unless waiting failed. While it supervises, and
once it is abandoned, it has not signalled the scheduler. As soon as the
scheduler exits or the executor ends, it returns by its own work, the
scheduler reaped. -/
theorem app_supervises :
    (∀ s, Transition.Reachable .initial AppMoves s →
      (∀ result, s.stage = .done result → (s.process = .unspawned ∧ ∃ source, result = .error (notStarted source)) ∨
        (s.process ≠ .unspawned ∧ Accounted s result)) ∧
      (s.stage.Supervising ∨ s.stage = .abandoned → s.signalled = false ∧ ∀ status, s.process ≠ .reaped status) ∧
      (s.stage.Supervising → (∃ status, s.process = .exited status) ∨ s.executor.isSome = true →
        Transition.Inevitable (AppStep · .work ·)
          (fun t => ∃ result status, t.stage = .done result ∧ t.process = .reaped status ∧ Accounted t result) s)) ∧
    ∀ s, Transition.Reachable .initial (fun s t => ∃ cause, cause ≠ .waitFault ∧ AppStep s cause t) s →
      ∀ result, s.stage = .done result → s.process = .unspawned ∨ ∃ status, s.process = .reaped status := by
  refine ⟨fun s reach => ⟨fun result stage => ?_, fun here => ?_, fun supervising final => ?_⟩, fun s reach => ?_⟩
  · have holds := reachable_stage reach
    simpa only [StageHolds, stage] using holds
  · have known : (s.process = .running ∨ ∃ status, s.process = .exited status) ∧ s.signalled = false := by
      have holds := reachable_stage reach
      rcases here with supervising | stage
      · exact (stageHolds_iff supervising).mp holds
      · simpa only [StageHolds, stage] using holds
    refine ⟨known.2, fun status reaped => ?_⟩
    rcases known.1 with running | ⟨other, exited⟩
    · simp [running] at reaped
    · simp [exited] at reaped
  · have ending : Ending s := by
      rcases Stage.supervising_iff.mp supervising with stage | stage
      · simpa only [Ending, stage] using final
      · simpa only [Ending, stage] using final
    exact ending.ends (reachable_stage reach)
  · refine reach.invariant ReapedWhenDone (fun _ stage => by cases stage) fun before old ⟨_, waits, step⟩ => ?_
    exact step.reaped waits (reachable_stage (before.mono fun ⟨_, _, move⟩ => ⟨_, move⟩)) old

end Datacrate.Ballista
