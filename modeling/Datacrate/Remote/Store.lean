import Datacrate.Remote.Publish

namespace Datacrate.Remote

open Datacrate.Ingest Interaction

/-- An object of the store, and when it was written. -/
structure Object where
  bytes : Bytes
  eTag : Option String
  version : Option String
  birth : Nat

/-- A store knows the current object under each key and all objects it has
held there. Its clock counts the objects written. -/
structure Store where
  current : ObjectPath → Option Object
  history : ObjectPath → List Object
  clock : Nat
  recorded : ∀ key object, current key = some object → object ∈ history key
  aged : ∀ key, ∀ object ∈ history key, object.birth < clock

section Operations

variable (store : Store) (key : ObjectPath)

def Store.write (bytes : Bytes) (eTag version : Option String) : Store where
  current := fun other =>
    if other = key then some { bytes, eTag, version, birth := store.clock } else store.current other
  history := fun other =>
    if other = key then { bytes, eTag, version, birth := store.clock } :: store.history other
    else store.history other
  clock := store.clock + 1
  recorded := by
    intro other object present
    split at present
    · rename_i same
      cases present
      simp [same]
    · rename_i differ
      simpa [differ] using store.recorded other object present
  aged := by
    intro other object member
    split at member
    · rcases List.mem_cons.mp member with rfl | earlier
      · exact Nat.lt_succ_self _
      · exact (store.aged other object earlier).trans (Nat.lt_succ_self _)
    · exact (store.aged other object member).trans (Nat.lt_succ_self _)

def Store.remove : Store where
  current := fun other => if other = key then none else store.current other
  history := store.history
  clock := store.clock
  recorded := by
    intro other object present
    split at present
    · cases present
    · exact store.recorded other object present
  aged := store.aged

end Operations

/-- The store, and the run ids given out with the runs they were given to. -/
structure Site where
  store : Store
  runs : List (String × Job)

/-- A write of these bytes, under whatever identity the store gives it. -/
def Writes (key : ObjectPath) (bytes : Bytes) (s t : Store) : Prop :=
  ∃ eTag version, t = s.write key bytes eTag version

/-- A request that changes the store succeeds, fails with no effect, or fails
after taking effect. -/
def Takes (effect : Store → Store → Prop) (s : Site) (response : Except StoreError Unit) (t : Site) : Prop :=
  t.runs = s.runs ∧ (effect s.store t.store ∨ (∃ error, response = .error error) ∧ t = s)

/-- What may follow from a request of a run of `job`. A new run id was never
given out before. A deletion that reports no object leaves none. What `head`
reports of an object is `truthful`. -/
def Handles (truthful : Object → ObjectMeta → Prop) (job : Job) (s : Site) :
    (request : PublishRequest) → PublishResponse request → Site → Prop
  | .tempdir, .ok runId, t => (∃ suffix, runId = "datacrate-run-" ++ suffix) ∧ (∀ run ∈ s.runs, run.1 ≠ runId) ∧
      t = { s with runs := s.runs ++ [(runId, job)] }
  | .tempdir, .error _, t => t = s
  | .openFile _, _, t | .read _, _, t | .putMultipart _, _, t | .nextPart _, _, t | .abort _, _, t => t = s
  | .complete key parts, response, t => Takes (Writes key parts.flatten) s response t
  | .delete key, response, t => Takes (fun s t => t = s.remove key) s response t ∧
      ∀ source, response = .error (.notFound source) → t.store.current key = none
  | .copy source target, response, t =>
      Takes (fun s t => ∃ object, s.current source = some object ∧ Writes target object.bytes s t) s response t
  | .head key, response, t => t = s ∧ ∀ metadata object, response = .ok metadata →
      s.store.current key = some object → truthful object metadata
  | .put key body, response, t => Takes (Writes key body) s response t

/-- Nothing but the current object of this key has changed, and nothing is
forgotten. -/
structure Changes (key : ObjectPath) (s t : Site) : Prop where
  current : ∀ other, other ≠ key → t.store.current other = s.store.current other
  history : ∀ other, s.store.history other ⊆ t.store.history other
  clock : s.store.clock ≤ t.store.clock
  runs : t.runs = s.runs

section Frames

variable {key : ObjectPath} {s t u : Site} {bytes : Bytes}

theorem Changes.refl (key : ObjectPath) (s : Site) : Changes key s s :=
  ⟨fun _ _ => rfl, fun _ => List.Subset.refl _, le_rfl, rfl⟩

theorem Writes.changes (written : Writes key bytes s.store t.store) (runs : t.runs = s.runs) :
    Changes key s t ∧ ∃ object, t.store.current key = some object ∧ object.bytes = bytes ∧
      object.birth = s.store.clock := by
  obtain ⟨eTag, version, same⟩ := written
  refine ⟨⟨fun other differ => ?_, fun other => ?_, ?_, runs⟩, ?_⟩
  · simp [same, Store.write, differ]
  · rw [same]
    by_cases here : other = key
    · simp [Store.write, here]
    · simp [Store.write, here]
  · simp [same, Store.write]
  · rw [same]
    exact ⟨{ bytes, eTag, version, birth := s.store.clock }, by simp [Store.write], rfl, rfl⟩

theorem Store.remove_changes (removed : t.store = s.store.remove key) (runs : t.runs = s.runs) :
    Changes key s t ∧ t.store.current key = none := by
  refine ⟨⟨fun other differ => ?_, fun other => ?_, ?_, runs⟩, ?_⟩
  · simp [removed, Store.remove, differ]
  · simp [removed, Store.remove]
  · simp [removed, Store.remove]
  · simp [removed, Store.remove]

theorem Takes.changes {effect : Store → Store → Prop} {response : Except StoreError Unit}
    (takes : Takes effect s response t)
    (frame : effect s.store t.store → t.runs = s.runs → Changes key s t) : Changes key s t := by
  obtain ⟨runs, effect | ⟨_, rfl⟩⟩ := takes
  · exact frame effect runs
  · exact Changes.refl _ _

/-- Objects and run ids are only added, and run ids stay distinct. -/
structure Grows (s t : Site) : Prop where
  history : ∀ key, s.store.history key ⊆ t.store.history key
  runs : s.runs ⊆ t.runs
  distinct : (s.runs.map Prod.fst).Nodup → (t.runs.map Prod.fst).Nodup

theorem Grows.refl (s : Site) : Grows s s :=
  ⟨fun _ => List.Subset.refl _, List.Subset.refl _, id⟩

theorem Grows.trans (first : Grows s t) (second : Grows t u) : Grows s u where
  history := fun key => List.Subset.trans (first.history key) (second.history key)
  runs := List.Subset.trans first.runs second.runs
  distinct := fun distinct => second.distinct (first.distinct distinct)

theorem Changes.grows (changes : Changes key s t) : Grows s t where
  history := changes.history
  runs := changes.runs ▸ List.Subset.refl _
  distinct := fun distinct => changes.runs.symm ▸ distinct

theorem Handles.grows {truthful : Object → ObjectMeta → Prop} {job : Job} {request : PublishRequest}
    {response : PublishResponse request} (handled : Handles truthful job s request response t) : Grows s t := by
  cases request with
  | tempdir =>
    cases response with
    | ok runId =>
      obtain ⟨_, fresh, rfl⟩ := handled
      refine ⟨fun _ => List.Subset.refl _, List.subset_append_left _ _, fun distinct => ?_⟩
      rw [List.map_append, List.map_singleton, List.nodup_append]
      refine ⟨distinct, by simp, fun earlier member other same => ?_⟩
      obtain ⟨run, inside, rfl⟩ := List.mem_map.mp member
      rw [List.mem_singleton.mp same]
      exact fresh run inside
    | error failed =>
      obtain rfl : t = s := handled
      exact .refl t
  | openFile path | read path | putMultipart key | nextPart key | abort key =>
    obtain rfl : t = s := handled
    exact .refl t
  | complete key parts | put key body =>
    exact (Takes.changes handled fun written runs => (Writes.changes written runs).1).grows
  | delete key =>
    exact (Takes.changes handled.1 fun removed runs => (Store.remove_changes removed runs).1).grows
  | copy source target =>
    obtain ⟨runs, ⟨object, _, written⟩ | ⟨_, rfl⟩⟩ := handled
    · exact (written.changes runs).1.grows
    · exact .refl _
  | head key => exact handled.1 ▸ .refl s

end Frames

end Datacrate.Remote
