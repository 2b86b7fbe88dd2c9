import Datacrate.Lib.Disk

namespace Disk

structure NamedTempFile (δ : Type) where
  path : Entry δ
  file : Nat

/-- A temporary file from the view of its owner. `dropped` tells whether its
entry was removed then. -/
inductive Staging (δ : Type) where
  | absent
  | owned (file : NamedTempFile δ)
  | persisted (file : Nat)
  | dropped (file : NamedTempFile δ) (removed : Bool)

def Staging.file {δ : Type} : Staging δ → Option Nat
  | .absent => none
  | .owned temp | .dropped temp _ => some temp.file
  | .persisted n => some n

variable {ι δ β : Type}

/-- What holds of the disk and of all temporary files, given the disk that
the owners started on. -/
structure Sound (reserved : String → Prop) (target : ι → Entry δ) (start disk : Disk δ β) (held : ι → Staging δ) :
    Prop where
  bounded : disk.Bounded
  grown : start.created ≤ disk.created
  old : ∀ n, n < start.created → disk.contents n = start.contents n ∧ disk.flushed n = start.flushed n
  fresh : ∀ i n, (held i).file = some n → start.created ≤ n ∧ n < disk.created
  apart : ∀ i j n, (held i).file = some n → (held j).file = some n → i = j
  owned : ∀ i temp, held i = .owned temp → reserved temp.path.name ∧ disk.files temp.path = some temp.file
  hidden : ∀ i n e, (held i).file = some n → disk.May e (some n) →
    reserved e.name ∨ held i = .persisted n ∧ target i = e
  placed : ∀ i n, held i = .persisted n →
    ∃ j m, held j = .persisted m ∧ target j = target i ∧ disk.files (target i) = some m
  names : ∀ e, ¬ reserved e.name → ∀ v, disk.May e v →
    start.May e v ∨ ∃ i n, held i = .persisted n ∧ target i = e ∧ v = some n
  visible : ∀ e, ¬ reserved e.name →
    disk.files e = start.files e ∨ ∃ i n, held i = .persisted n ∧ target i = e ∧ disk.files e = some n
  kept : ∀ e n, reserved e.name → start.files e = some n → disk.files e = some n
  litter : ∀ e n, reserved e.name → disk.files e = some n →
    start.files e = some n ∨ ∃ i, held i = .owned ⟨e, n⟩ ∨ held i = .dropped ⟨e, n⟩ false

/-- What the owner of a temporary file does to replace an entry by it. The
temporary names are reserved. -/
inductive Handling [DecidableEq δ] (reserved : String → Prop) (target : Entry δ) :
    Disk δ β → Staging δ → Disk δ β → Staging δ → Prop
  | quiet {disk staging} : Handling reserved target disk staging disk staging
  | begin {disk name content} : reserved name → disk.files ⟨target.directory, name⟩ = none →
      Handling reserved target disk .absent (disk.create ⟨target.directory, name⟩ content)
        (.owned ⟨⟨target.directory, name⟩, disk.created⟩)
  | write {disk content} {temp : NamedTempFile δ} :
      Handling reserved target disk (.owned temp) (disk.write temp.file content) (.owned temp)
  | sync {disk} {temp : NamedTempFile δ} :
      Handling reserved target disk (.owned temp) (disk.sync temp.file) (.owned temp)
  | rename {disk} {temp : NamedTempFile δ} :
      Handling reserved target disk (.owned temp) (disk.rename temp.path target) (.persisted temp.file)
  | settle {disk n} :
      Handling reserved target disk (.persisted n) (disk.syncDirectory target.directory) (.persisted n)
  | drop {disk} {temp : NamedTempFile δ} :
      Handling reserved target disk (.owned temp) (disk.remove temp.path) (.dropped temp true)
  | abandon {disk} {temp : NamedTempFile δ} :
      Handling reserved target disk (.owned temp) disk (.dropped temp false)

section Rules

variable {reserved : String → Prop} {target : ι → Entry δ} {start disk disk' after : Disk δ β}
  {held : ι → Staging δ} {next : Staging δ} {e : Entry δ} {i : ι}

theorem sound_start (bounded : start.Bounded) : Sound reserved target start start fun _ => .absent where
  bounded := bounded
  grown := Nat.le_refl _
  old _ _ := ⟨rfl, rfl⟩
  fresh _ _ known := by cases known
  apart _ _ _ known := by cases known
  owned _ _ known := by cases known
  hidden _ _ _ known := by cases known
  placed _ _ known := by cases known
  names _ _ _ may := Or.inl may
  visible _ _ := Or.inl rfl
  kept _ _ _ known := known
  litter _ _ _ known := Or.inl known

/-- Files may change as long as those of the start do not. -/
theorem Sound.rewritten (sound : Sound reserved target start disk held) (files : disk'.files = disk.files)
    (pending : disk'.pending = disk.pending) (created : disk'.created = disk.created)
    (old : ∀ n, n < start.created → disk'.contents n = disk.contents n ∧ disk'.flushed n = disk.flushed n) :
    Sound reserved target start disk' held := by
  have may : ∀ e v, disk'.May e v ↔ disk.May e v := by
    intro e v
    rw [May, May, files, pending]
  constructor
  · intro e n known
    rw [created]
    exact sound.bounded e n ((may e _).mp known)
  · rw [created]
    exact sound.grown
  · intro n before
    obtain ⟨content, flushed⟩ := sound.old n before
    exact ⟨(old n before).1.trans content, (old n before).2.trans flushed⟩
  · rw [created]
    exact sound.fresh
  · exact sound.apart
  · rw [files]
    exact sound.owned
  · intro i n e known means
    exact sound.hidden i n e known ((may e _).mp means)
  · rw [files]
    exact sound.placed
  · intro e free v known
    exact sound.names e free v ((may e v).mp known)
  · rw [files]
    exact sound.visible
  · rw [files]
    exact sound.kept
  · rw [files]
    exact sound.litter

variable [DecidableEq δ]

/-- No owner touches a file that is not its own. -/
theorem Handling.frame {entry : Entry δ} {staging : Staging δ} {n : Nat}
    (step : Handling reserved entry disk staging disk' next) (known : n < disk.created)
    (other : staging.file ≠ some n) : disk'.contents n = disk.contents n ∧ disk'.flushed n = disk.flushed n := by
  cases step with
  | quiet | settle | abandon | rename | drop => exact ⟨rfl, rfl⟩
  | begin =>
    have ne : n ≠ disk.created := by omega
    simp [create, ne]
  | write | sync =>
    have ne : n ≠ _ := fun same => other (congrArg some same.symm)
    constructor
    · first | exact Function.update_of_ne ne _ _ | rfl
    · exact Function.update_of_ne ne _ _

theorem Sound.settle (sound : Sound reserved target start disk held) (directory : δ) :
    Sound reserved target start (disk.syncDirectory directory) held := by
  have may : ∀ e v, (disk.syncDirectory directory).May e v → disk.May e v := by
    intro e v known
    rcases may_syncDirectory.mp known with now | ⟨_, before⟩
    · exact Or.inl now
    · exact before
  exact {
    bounded := fun e n known => sound.bounded e n (may e _ known)
    grown := sound.grown
    old := sound.old
    fresh := sound.fresh
    apart := sound.apart
    owned := sound.owned
    hidden := fun i n e known means => sound.hidden i n e known (may e _ means)
    placed := sound.placed
    names := fun e free v known => sound.names e free v (may e v known)
    visible := sound.visible
    kept := sound.kept
    litter := sound.litter }

theorem Sound.begin {held' : ι → Staging δ} {content : β} {directory : δ} {name : String}
    (sound : Sound reserved target start disk held) (absent : held i = .absent) (granted : reserved name)
    (free : disk.files ⟨directory, name⟩ = none)
    (now : held' i = .owned ⟨⟨directory, name⟩, disk.created⟩) (others : ∀ j, j ≠ i → held' j = held j) :
    Sound reserved target start (disk.create ⟨directory, name⟩ content) held' := by
  have grown := sound.grown
  have apart : ∀ e, e ≠ (⟨directory, name⟩ : Entry δ) →
      (disk.create ⟨directory, name⟩ content).files e = disk.files e := fun e ne => assign_files_of_ne ne
  have ne_of_free : ∀ e : Entry δ, ¬ reserved e.name → e ≠ ⟨directory, name⟩ := by
    rintro e unreserved rfl
    exact unreserved granted
  have persisted : ∀ j n, held' j = .persisted n ↔ held j = .persisted n := by
    intro j n
    by_cases same : j = i
    · subst same
      rw [now, absent]
      simp
    · rw [others j same]
  have file : ∀ j n, (held' j).file = some n → j = i ∧ n = disk.created ∨ j ≠ i ∧ (held j).file = some n := by
    intro j n known
    by_cases same : j = i
    · subst same
      rw [now] at known
      exact Or.inl ⟨rfl, (Option.some.inj known).symm⟩
    · rw [others j same] at known
      exact Or.inr ⟨same, known⟩
  constructor
  · intro e n known
    show n < disk.created + 1
    rcases may_create.mp known with before | ⟨_, fresh⟩
    · have bound := sound.bounded e n before
      omega
    · have same := Option.some.inj fresh
      omega
  · show start.created ≤ disk.created + 1
    omega
  · intro n before
    have ne : n ≠ disk.created := by omega
    simpa [create, assign, ne] using sound.old n before
  · intro j n known
    show start.created ≤ n ∧ n < disk.created + 1
    rcases file j n known with ⟨_, rfl⟩ | ⟨_, before⟩
    · omega
    · have bound := sound.fresh j n before
      omega
  · intro j k n first second
    rcases file j n first with ⟨rfl, new⟩ | ⟨_, before⟩ <;> rcases file k n second with ⟨rfl, new'⟩ | ⟨_, before'⟩
    · rfl
    · have bound := (sound.fresh k n before').2
      omega
    · have bound := (sound.fresh j n before).2
      omega
    · exact sound.apart j k n before before'
  · intro j temp known
    by_cases same : j = i
    · subst same
      cases now.symm.trans known
      exact ⟨granted, assign_files_self⟩
    · rw [others j same] at known
      obtain ⟨staged, means⟩ := sound.owned j temp known
      refine ⟨staged, ?_⟩
      rw [apart]
      · exact means
      · intro clash
        rw [clash, free] at means
        cases means
  · intro j n e known means
    rcases may_create.mp means with before | ⟨rfl, _⟩
    · rcases file j n known with ⟨_, rfl⟩ | ⟨other, old⟩
      · exact absurd (sound.bounded e _ before) (Nat.lt_irrefl _)
      · rw [others j other]
        exact sound.hidden j n e old before
    · exact Or.inl granted
  · intro j n known
    obtain ⟨k, m, placed, same, means⟩ := sound.placed j n ((persisted j n).mp known)
    refine ⟨k, m, (persisted k m).mpr placed, same, ?_⟩
    rw [apart]
    · exact means
    · intro clash
      rw [clash, free] at means
      cases means
  · intro e unreserved v known
    rcases may_create.mp known with before | ⟨same, _⟩
    · simp only [persisted]
      exact sound.names e unreserved v before
    · exact absurd same (ne_of_free e unreserved)
  · intro e unreserved
    rw [apart e (ne_of_free e unreserved)]
    simp only [persisted]
    exact sound.visible e unreserved
  · intro e n staged known
    have means := sound.kept e n staged known
    rw [apart]
    · exact means
    · rintro rfl
      cases free.symm.trans means
  · intro e n staged known
    by_cases same : e = ⟨directory, name⟩
    · subst same
      have means : some disk.created = some n := assign_files_self.symm.trans known
      cases Option.some.inj means
      exact Or.inr ⟨i, Or.inl now⟩
    · rw [apart e same] at known
      refine (sound.litter e n staged known).imp id ?_
      rintro ⟨j, holds⟩
      refine ⟨j, ?_⟩
      rw [others]
      · exact holds
      · rintro rfl
        simp [absent] at holds

/-- The owner gives its file up. Its entry is removed, or left behind. -/
theorem Sound.drop {held' : ι → Staging δ} {temp : NamedTempFile δ} {removed : Bool}
    (bounded : start.Bounded) (sound : Sound reserved target start disk held) (owned : held i = .owned temp)
    (now : held' i = .dropped temp removed) (others : ∀ j, j ≠ i → held' j = held j)
    (gone : disk' = if removed then disk.remove temp.path else disk) :
    Sound reserved target start disk' held' := by
  obtain ⟨staged, means⟩ := sound.owned i temp owned
  have fresh := sound.fresh i temp.file (by rw [owned]; rfl)
  have same : disk'.contents = disk.contents ∧ disk'.flushed = disk.flushed ∧ disk'.created = disk.created := by
    subst gone
    split <;> exact ⟨rfl, rfl, rfl⟩
  obtain ⟨contents, flushed, created⟩ := same
  have may : ∀ e v, disk'.May e v → disk.May e v ∨ e = temp.path ∧ v = none := by
    intro e v known
    subst gone
    split at known
    · exact may_remove.mp known
    · exact Or.inl known
  have apart : ∀ e, e ≠ temp.path → disk'.files e = disk.files e := by
    intro e ne
    subst gone
    split
    · exact assign_files_of_ne ne
    · rfl
  have ne_of_free : ∀ e : Entry δ, ¬ reserved e.name → e ≠ temp.path := by
    rintro e unreserved rfl
    exact unreserved staged
  have persisted : ∀ j n, held' j = .persisted n ↔ held j = .persisted n := by
    intro j n
    by_cases same : j = i
    · subst same
      rw [now, owned]
      simp
    · rw [others j same]
  have file : ∀ j, (held' j).file = (held j).file := by
    intro j
    by_cases same : j = i
    · subst same
      rw [now, owned]
      rfl
    · rw [others j same]
  constructor
  · intro e n known
    rw [created]
    rcases may e _ known with before | ⟨_, impossible⟩
    · exact sound.bounded e n before
    · cases impossible
  · rw [created]
    exact sound.grown
  · rw [contents, flushed]
    exact sound.old
  · intro j n known
    rw [created]
    exact sound.fresh j n ((file j).symm.trans known)
  · intro j k n first second
    exact sound.apart j k n ((file j).symm.trans first) ((file k).symm.trans second)
  · intro j other known
    by_cases same : j = i
    · subst same
      cases now.symm.trans known
    · rw [others j same] at known
      obtain ⟨staged', means'⟩ := sound.owned j other known
      refine ⟨staged', ?_⟩
      rw [apart]
      · exact means'
      · intro clash
        rw [clash, means] at means'
        exact same (sound.apart j i temp.file (by rw [known, Option.some.inj means']; rfl) (by rw [owned]; rfl))
  · intro j n e known means
    rcases may e _ means with before | ⟨_, impossible⟩
    · simp only [persisted]
      exact sound.hidden j n e ((file j).symm.trans known) before
    · cases impossible
  · intro j n known
    obtain ⟨k, m, placed, same, means'⟩ := sound.placed j n ((persisted j n).mp known)
    refine ⟨k, m, (persisted k m).mpr placed, same, ?_⟩
    rw [apart]
    · exact means'
    · intro clash
      rw [clash, means] at means'
      have distinct := sound.apart k i temp.file (by rw [placed, Option.some.inj means']; rfl) (by rw [owned]; rfl)
      rw [distinct, owned] at placed
      cases placed
  · intro e unreserved v known
    simp only [persisted]
    rcases may e v known with before | ⟨same, _⟩
    · exact sound.names e unreserved v before
    · exact absurd same (ne_of_free e unreserved)
  · intro e unreserved
    rw [apart e (ne_of_free e unreserved)]
    simp only [persisted]
    exact sound.visible e unreserved
  · intro e n granted known
    have before := sound.kept e n granted known
    rw [apart]
    · exact before
    · rintro rfl
      have clash := Option.some.inj (means.symm.trans before)
      have bound := bounded _ n (Or.inl known.symm)
      omega
  · intro e n granted known
    by_cases same : e = temp.path
    · subst same
      subst gone
      split at known
      · cases assign_files_self.symm.trans known
      · cases means.symm.trans known
        rename_i left
        rw [Bool.not_eq_true] at left
        exact Or.inr ⟨i, Or.inr (by rw [now, left])⟩
    · rw [apart e same] at known
      refine (sound.litter e n granted known).imp id ?_
      rintro ⟨j, holds⟩
      refine ⟨j, ?_⟩
      rw [others]
      · exact holds
      · rintro rfl
        rcases holds with holds | holds
        · cases owned.symm.trans holds
          exact same rfl
        · cases owned.symm.trans holds

/-- The temporary file takes the place of the target. -/
theorem Sound.rename {held' : ι → Staging δ} {temp : NamedTempFile δ} (bounded : start.Bounded)
    (free : ∀ j, ¬ reserved (target j).name) (sound : Sound reserved target start disk held)
    (owned : held i = .owned temp) (now : held' i = .persisted temp.file)
    (others : ∀ j, j ≠ i → held' j = held j) :
    Sound reserved target start (disk.rename temp.path (target i)) held' := by
  obtain ⟨staged, means⟩ := sound.owned i temp owned
  have fresh := sound.fresh i temp.file (by rw [owned]; rfl)
  have ne_of_free : ∀ e : Entry δ, ¬ reserved e.name → e ≠ temp.path := by
    rintro e unreserved rfl
    exact unreserved staged
  have placed_here : (disk.rename temp.path (target i)).files (target i) = some temp.file :=
    (rename_files_new (ne_of_free _ (free i))).trans means
  have apart : ∀ e, e ≠ temp.path → e ≠ target i → (disk.rename temp.path (target i)).files e = disk.files e :=
    fun e notOld notNew => rename_files_of_ne notOld notNew
  have may : ∀ e v, (disk.rename temp.path (target i)).May e v →
      (disk.May e v ∨ e = target i ∧ v = some temp.file) ∨ e = temp.path ∧ v = none := by
    intro e v known
    rw [← means]
    exact may_rename.mp known
  have file : ∀ j, (held' j).file = (held j).file := by
    intro j
    by_cases same : j = i
    · subst same
      rw [now, owned]
      rfl
    · rw [others j same]
  have persisted : ∀ j n, held j = .persisted n → held' j = .persisted n := by
    intro j n known
    rw [others]
    · exact known
    · rintro rfl
      cases owned.symm.trans known
  have newest : ∀ j n, held' j = .persisted n → j = i ∧ n = temp.file ∨ held j = .persisted n := by
    intro j n known
    by_cases same : j = i
    · subst same
      cases now.symm.trans known
      exact Or.inl ⟨rfl, rfl⟩
    · exact Or.inr (by rwa [← others j same])
  constructor
  · intro e n known
    rcases may e _ known with (before | ⟨_, fresh'⟩) | ⟨_, impossible⟩
    · exact sound.bounded e n before
    · cases fresh'
      exact fresh.2
    · cases impossible
  · exact sound.grown
  · exact sound.old
  · intro j n known
    exact sound.fresh j n ((file j).symm.trans known)
  · intro j k n first second
    exact sound.apart j k n ((file j).symm.trans first) ((file k).symm.trans second)
  · intro j other known
    by_cases same : j = i
    · subst same
      cases now.symm.trans known
    · rw [others j same] at known
      obtain ⟨staged', means'⟩ := sound.owned j other known
      refine ⟨staged', ?_⟩
      rw [apart]
      · exact means'
      · intro clash
        rw [clash, means] at means'
        exact same (sound.apart j i temp.file (by rw [known, Option.some.inj means']; rfl) (by rw [owned]; rfl))
      · intro clash
        exact free i (clash ▸ staged')
  · intro j n e known means'
    have before := (file j).symm.trans known
    rcases may e _ means' with (earlier | ⟨rfl, same⟩) | ⟨_, impossible⟩
    · exact (sound.hidden j n e before earlier).imp id fun ⟨placed, same⟩ => ⟨persisted j n placed, same⟩
    · cases same
      have distinct := sound.apart j i temp.file before (by rw [owned]; rfl)
      subst distinct
      exact Or.inr ⟨now, rfl⟩
    · cases impossible
  · intro j n known
    by_cases same : target j = target i
    · rw [same]
      exact ⟨i, temp.file, now, rfl, placed_here⟩
    · rcases newest j n known with ⟨rfl, _⟩ | before
      · exact absurd rfl same
      · obtain ⟨k, m, placed, here, means'⟩ := sound.placed j n before
        refine ⟨k, m, persisted k m placed, here, ?_⟩
        rw [apart (target j) (ne_of_free _ (free j)) same]
        exact means'
  · intro e unreserved v known
    rcases may e v known with (before | ⟨same, now'⟩) | ⟨same, _⟩
    · refine (sound.names e unreserved v before).imp id ?_
      rintro ⟨j, n, placed, rest⟩
      exact ⟨j, n, persisted j n placed, rest⟩
    · exact Or.inr ⟨i, temp.file, now, same.symm, now'⟩
    · exact absurd same (ne_of_free e unreserved)
  · intro e unreserved
    by_cases same : e = target i
    · subst same
      exact Or.inr ⟨i, temp.file, now, rfl, placed_here⟩
    · rw [apart e (ne_of_free e unreserved) same]
      refine (sound.visible e unreserved).imp id ?_
      rintro ⟨j, n, placed, rest⟩
      exact ⟨j, n, persisted j n placed, rest⟩
  · intro e n granted known
    have before := sound.kept e n granted known
    rw [apart]
    · exact before
    · rintro rfl
      have clash := Option.some.inj (means.symm.trans before)
      have bound := bounded _ n (Or.inl known.symm)
      omega
    · rintro rfl
      exact free i granted
  · intro e n granted known
    have notTarget : e ≠ target i := by
      rintro rfl
      exact free i granted
    by_cases same : e = temp.path
    · subst same
      cases assign_files_self.symm.trans known
    · rw [apart e same notTarget] at known
      refine (sound.litter e n granted known).imp id ?_
      rintro ⟨j, holds⟩
      refine ⟨j, ?_⟩
      rw [others]
      · exact holds
      · rintro rfl
        rcases holds with holds | holds
        · cases owned.symm.trans holds
          exact same rfl
        · cases owned.symm.trans holds

theorem Handling.sound {held' : ι → Staging δ} (bounded : start.Bounded) (free : ∀ j, ¬ reserved (target j).name)
    (sound : Sound reserved target start disk held)
    (step : Handling reserved (target i) disk (held i) disk' (held' i)) (others : ∀ j, j ≠ i → held' j = held j) :
    Sound reserved target start disk' held' := by
  have unmoved : held' i = held i → held' = held := by
    intro same
    funext j
    by_cases here : j = i
    · rw [here, same]
    · exact others j here
  have foreign : ∀ n, n < start.created → (held i).file ≠ some n := by
    intro n before known
    have bound := (sound.fresh i n known).1
    omega
  have frame := fun n (before : n < start.created) =>
    step.frame (Nat.lt_of_lt_of_le before sound.grown) (foreign n before)
  generalize mine : held i = here at step
  generalize then_ : held' i = there at step
  cases step with
  | quiet =>
    rw [unmoved (then_.trans mine.symm)]
    exact sound
  | begin granted vacant => exact sound.begin mine granted vacant then_ others
  | write | sync =>
    rw [unmoved (then_.trans mine.symm)]
    exact sound.rewritten rfl rfl rfl frame
  | rename => exact sound.rename bounded free mine then_ others
  | settle =>
    rw [unmoved (then_.trans mine.symm)]
    exact sound.settle _
  | drop => exact sound.drop bounded mine then_ others rfl
  | abandon => exact sound.drop bounded mine then_ others rfl

/-- What a crash leaves at an unreserved entry is what it would have left
without the owners, or a file that replaced it. -/
theorem Sound.after_crash (sound : Sound reserved target start disk held) (crash : Survives disk after)
    (unreserved : ¬ reserved e.name) (bounded : start.Bounded) :
    (∃ before, Survives start before ∧ after.read e = before.read e) ∨
      ∃ i n, held i = .persisted n ∧ target i = e ∧ after.files e = some n := by
  rcases sound.names e unreserved _ (crash.files e) with old | ⟨i, n, placed, same, means⟩
  · left
    let before : Disk δ β :=
      { start with
        files := Function.update start.files e (after.files e)
        contents := fun n => if n < start.created then after.contents n else start.contents n }
    refine ⟨before, ⟨fun x => ?_, fun n flushed => ?_⟩, ?_⟩
    · by_cases here : x = e
      · subst here
        simp only [before, Function.update_self]
        exact old
      · simp only [before, Function.update_of_ne here]
        exact Or.inl rfl
    · by_cases known : n < start.created
      · obtain ⟨content, mark⟩ := sound.old n known
        simp only [before, known, if_true]
        rw [crash.contents n (mark.trans flushed), content]
      · simp only [before, known, if_false]
    · simp only [read, before, Function.update_self]
      cases means : after.files e with
      | none => rfl
      | some n =>
        have known := bounded e n (means ▸ old)
        simp [known]
  · exact Or.inr ⟨i, n, placed, same, means⟩

theorem Handling.persisted {entry : Entry δ} {staging : Staging δ} {n : Nat}
    (step : Handling reserved entry disk staging disk' next) (known : staging = .persisted n) : next = .persisted n := by
  cases step with
  | quiet | settle => exact known
  | begin | write | sync | rename | drop | abandon => cases known

/-- What an unreserved entry may mean after a step, it might have meant
before, unless it was just replaced. -/
theorem Handling.may (sound : Sound reserved target start disk held)
    (step : Handling reserved (target i) disk (held i) disk' next) (unreserved : ¬ reserved e.name) {v : Option Nat}
    (means : disk'.May e v) : disk.May e v ∨ ∃ n, next = .persisted n ∧ target i = e ∧ v = some n := by
  have owned := sound.owned i
  generalize mine : held i = here at step owned
  cases step with
  | quiet | write | sync | abandon => exact Or.inl means
  | begin granted =>
    rcases may_create.mp means with before | ⟨rfl, _⟩
    · exact Or.inl before
    · exact absurd granted unreserved
  | @rename temp =>
    obtain ⟨staged, placed⟩ := owned temp rfl
    rcases may_rename.mp means with (before | ⟨same, now⟩) | ⟨rfl, _⟩
    · exact Or.inl before
    · exact Or.inr ⟨temp.file, rfl, same.symm, now.trans placed⟩
    · exact absurd staged unreserved
  | settle =>
    rcases may_syncDirectory.mp means with now | ⟨_, before⟩
    · exact Or.inl (Or.inl now)
    · exact Or.inl before
  | @drop temp =>
    obtain ⟨staged, _⟩ := owned temp rfl
    rcases may_remove.mp means with before | ⟨rfl, _⟩
    · exact Or.inl before
    · exact absurd staged unreserved

/-- When a file is put at the target, the target means it. -/
theorem Handling.replaces {n : Nat} (sound : Sound reserved target start disk held)
    (unreserved : ¬ reserved (target i).name)
    (step : Handling reserved (target i) disk (held i) disk' (.persisted n)) :
    held i = .persisted n ∨ disk'.files (target i) = some n := by
  have owned := sound.owned i
  generalize held i = here at step owned
  cases step with
  | quiet | settle => exact Or.inl rfl
  | @rename temp =>
    obtain ⟨staged, placed⟩ := owned temp rfl
    have apart : target i ≠ temp.path := by
      intro same
      rw [same] at unreserved
      exact unreserved staged
    exact Or.inr ((rename_files_new apart).trans placed)

/-- Whatever happens, the target of this owner has been replaced. -/
def Settled (target : ι → Entry δ) (disk : Disk δ β) (held : ι → Staging δ) (i : ι) : Prop :=
  ∀ v, disk.May (target i) v → ∃ j n, held j = .persisted n ∧ target j = target i ∧ v = some n

/-- The directory was synchronized after the target was replaced. -/
theorem Sound.settled {n : Nat} (sound : Sound reserved target start disk held) (placed : held i = .persisted n) :
    Settled target (disk.syncDirectory (target i).directory) held i := by
  intro v means
  obtain ⟨j, m, replaced, same, now⟩ := sound.placed i n placed
  rcases may_syncDirectory.mp means with current | ⟨elsewhere, _⟩
  · exact ⟨j, m, replaced, same, current.trans now⟩
  · exact absurd rfl elsewhere

theorem Settled.kept {held' : ι → Staging δ} {k : ι} (settled : Settled target disk held i)
    (sound : Sound reserved target start disk held) (unreserved : ¬ reserved (target i).name)
    (step : Handling reserved (target k) disk (held k) disk' (held' k)) (others : ∀ j, j ≠ k → held' j = held j) :
    Settled target disk' held' i := by
  intro v means
  rcases step.may sound unreserved means with before | ⟨n, placed, same, now⟩
  · obtain ⟨j, n, placed, same, now⟩ := settled v before
    refine ⟨j, n, ?_, same, now⟩
    by_cases here : j = k
    · subst here
      exact step.persisted placed
    · rw [others j here, placed]
  · exact ⟨k, n, placed, same, now⟩

end Rules

end Disk
