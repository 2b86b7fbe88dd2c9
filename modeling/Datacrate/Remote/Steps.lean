import Datacrate.Remote.Store

namespace Datacrate.Remote

open Datacrate.Ingest Datacrate.Bounded Interaction Chunks

variable {truthful : Object → ObjectMeta → Prop} {job : Job} {s t : Site} {key : ObjectPath}

/-- The key holds these bytes, written no earlier than this. -/
def Holds (key : ObjectPath) (bytes : Bytes) (since : Nat) (t : Site) : Prop :=
  ∃ object, t.store.current key = some object ∧ object.bytes = bytes ∧ since ≤ object.birth

theorem Writes.holds {bytes : Bytes} (written : Writes key bytes s.store t.store) (runs : t.runs = s.runs) :
    Changes key s t ∧ Holds key bytes s.store.clock t := by
  obtain ⟨changes, object, present, same, birth⟩ := written.changes runs
  exact ⟨changes, object, present, same, birth.ge⟩

theorem Takes.written {bytes : Bytes} {response : Except StoreError Unit}
    (takes : Takes (Writes key bytes) s response t) :
    Changes key s t ∧ (Holds key bytes s.store.clock t ∨ (∃ error, response = .error error) ∧ t = s) := by
  obtain ⟨runs, written | failed⟩ := takes
  · obtain ⟨changes, held⟩ := written.holds runs
    exact ⟨changes, Or.inl held⟩
  · exact ⟨failed.2 ▸ Changes.refl _ _, Or.inr failed⟩

section Steps

/-- A request that leaves the site as it is. -/
theorem idle_spec (request : PublishRequest)
    (idle : ∀ response u, Handles truthful job s request response u → u = s) :
    Ensures (Handles truthful job) Eq (Changes key) (fun _ t => t = s) (perform request) s := by
  refine Ensures.ask_alone fun response u handled => ?_
  obtain rfl := idle response u handled
  exact ⟨Changes.refl _ _, rfl⟩

theorem makeRoom_spec (pending : Nat) :
    Ensures (Handles truthful job) Eq (Changes key) (fun _ t => t = s) (makeRoom key pending) s := by
  unfold makeRoom
  split
  · exact Ensures.attemptThen (idle_spec (.nextPart key) fun _ _ same => same)
      (fun _ _ same => Ensures.returns same) fun _ _ same => same
  · exact Ensures.returns rfl

/-- The loop puts all buffers of the contents under way. -/
theorem sendParts_spec (src : String) (contents : Bytes) (pending : Nat) (sent : List Bytes) :
    Ensures (Handles truthful job) Eq (Changes key)
      (fun outcome t => t = s ∧ ∀ result, outcome = .ok result → result.2 = sent ++ chunksOf chunkBytes contents)
      (sendParts src key (chunksOf chunkBytes contents) pending sent) s := by
  fun_induction chunksOf chunkBytes contents generalizing pending sent with
  | case1 contents empty =>
    unfold sendParts
    refine Ensures.andThen (makeRoom_spec pending) (fun room t same => ?_) fun _ _ same => ⟨same, by simp⟩
    subst same
    refine Ensures.attemptThen (idle_spec (.read src) fun _ _ same => same) (fun _ u same => ?_) fun _ _ same =>
      ⟨same, by simp⟩
    exact Ensures.returns ⟨same, by simp⟩
  | case2 contents more ih =>
    unfold sendParts
    refine Ensures.andThen (makeRoom_spec pending) (fun room t same => ?_) fun _ _ same => ⟨same, by simp⟩
    subst same
    refine Ensures.attemptThen (idle_spec (.read src) fun _ _ same => same) (fun _ u same => ?_) fun _ _ same =>
      ⟨same, by simp⟩
    subst same
    split
    · rename_i short
      have last : contents.drop chunkBytes = [] := by
        rw [List.length_take] at short
        rw [List.drop_eq_nil_iff]
        omega
      refine Ensures.returns ⟨rfl, ?_⟩
      rintro _ same
      cases same
      simp [last]
    · refine Ensures.mono (ih _ _) fun outcome t holds => ⟨holds.1, fun result ok => ?_⟩
      rw [holds.2 result ok]
      simp

theorem awaitParts_spec (pending : Nat) :
    Ensures (Handles truthful job) Eq (Changes key) (fun _ t => t = s) (awaitParts key pending) s := by
  induction pending with
  | zero => exact Ensures.returns rfl
  | succ pending ih =>
    unfold awaitParts
    refine Ensures.attemptThen (idle_spec (.nextPart key) fun _ _ same => same) (fun _ u same => ?_)
      fun _ _ same => same
    subst same
    exact ih

theorem sendAll_spec (src : String) (contents : Bytes) :
    Ensures (Handles truthful job) Eq (Changes key)
      (fun outcome t => Changes key s t ∧ (outcome = .ok () → Holds key contents s.store.clock t))
      (sendAll src contents key) s := by
  unfold sendAll
  refine Ensures.andThen (sendParts_spec src contents 0 []) ?_ fun _ _ holds => ?_
  · rintro ⟨pending, parts⟩ t ⟨same, all⟩
    obtain rfl := same
    obtain rfl : parts = chunksOf chunkBytes contents := by simpa using all _ rfl
    refine Ensures.andThen (awaitParts_spec pending) (fun _ u same => ?_) fun _ _ same => ?_
    · obtain rfl := same
      refine Ensures.attempt (Ensures.ask_alone fun response u handled => ?_) fun _ _ holds => holds
      obtain ⟨changes, effect⟩ := Takes.written handled
      rw [flatten_chunksOf (by decide)] at effect
      refine ⟨changes, changes, fun ok => effect.resolve_right ?_⟩
      rintro ⟨⟨error, rfl⟩, _⟩
      cases ok
    · exact ⟨same ▸ Changes.refl _ _, by simp⟩
  · exact ⟨holds.1 ▸ Changes.refl _ _, by simp⟩

/-- An upload touches its own key alone, and success leaves the contents
there. -/
theorem uploadFromTemp_spec (src : String) (contents : Bytes) :
    Ensures (Handles truthful job) Eq (Changes key)
      (fun outcome t => Changes key s t ∧ (outcome = .ok () → Holds key contents s.store.clock t))
      (uploadFromTemp src contents key) s := by
  unfold uploadFromTemp
  refine Ensures.attemptThen (idle_spec (.openFile src) fun _ _ same => same) (fun _ t same => ?_)
    fun _ _ same => ⟨same ▸ Changes.refl _ _, by simp⟩
  subst same
  refine Ensures.attemptThen (idle_spec (.putMultipart key) fun _ _ same => same) (fun _ t same => ?_)
    fun _ _ same => ⟨same ▸ Changes.refl _ _, by simp⟩
  subst same
  refine Ensures.bind (sendAll_spec src contents) fun outcome u holds => ?_
  obtain ⟨changes, held⟩ := holds
  rcases outcome with source | done
  · refine Ensures.bind (idle_spec (.abort key) fun _ _ same => same) fun aborted v same => ?_
    exact ⟨same ▸ changes, by simp⟩
  · exact ⟨changes, held⟩

/-- A deletion that succeeds leaves no object. -/
theorem deleteObject_spec {guarantee : Site → Site → Prop}
    (within : ∀ t, Changes key s t → t = s ∨ t.store.current key = none → guarantee s t) :
    Ensures (Handles truthful job) Eq guarantee
      (fun outcome t => Changes key s t ∧ (t = s ∨ t.store.current key = none) ∧
        (outcome = .ok () → t.store.current key = none)) (deleteObject key) s := by
  unfold deleteObject
  have deleted : Ensures (Handles truthful job) Eq guarantee
      (fun outcome t => Changes key s t ∧ (t = s ∨ t.store.current key = none) ∧
        (deletion key outcome = .ok () → t.store.current key = none)) (perform (.delete key)) s := by
    refine Ensures.ask_alone fun response u handled => ?_
    obtain ⟨⟨runs, removed | ⟨⟨error, rfl⟩, same⟩⟩, missing⟩ := handled
    · obtain ⟨changes, none⟩ := Store.remove_changes removed runs
      exact ⟨within u changes (Or.inr none), changes, Or.inr none, fun _ => none⟩
    · have changes : Changes key s u := same ▸ Changes.refl _ _
      refine ⟨within u changes (Or.inl same), changes, Or.inl same, fun ok => ?_⟩
      cases error with
      | notFound source => exact missing source rfl
      | precondition | notModified | other => cases ok
  exact Ensures.bind deleted fun _ _ holds => holds

/-- A failed copy may have taken effect. -/
theorem copyStagedObject_spec {guarantee : Site → Site → Prop} {source target : ObjectPath} {contents : Bytes}
    {since : Nat} (staged : Holds source contents since s)
    (within : ∀ t, Changes target s t → t = s ∨ Holds target contents s.store.clock t → guarantee s t) :
    Ensures (Handles truthful job) Eq guarantee
      (fun outcome t => Changes target s t ∧ (t = s ∨ Holds target contents s.store.clock t) ∧
        (outcome = .ok () → Holds target contents s.store.clock t)) (copyStagedObject source target) s := by
  unfold copyStagedObject
  refine Ensures.attempt (Ensures.ask_alone fun response u handled => ?_) fun _ _ holds => holds
  obtain ⟨object, present, rfl, _⟩ := staged
  obtain ⟨runs, ⟨copied, same, written⟩ | ⟨⟨error, rfl⟩, same⟩⟩ := handled
  · rw [present, Option.some.injEq] at same
    subst same
    obtain ⟨changes, held⟩ := written.holds runs
    exact ⟨within u changes (Or.inr held), changes, Or.inr held, fun _ => held⟩
  · have changes : Changes target s u := same ▸ Changes.refl _ _
    refine ⟨within u changes (Or.inl same), changes, Or.inl same, fun ok => ?_⟩
    cases ok

theorem headObject_spec {guarantee : Site → Site → Prop} (within : guarantee s s) :
    Ensures (Handles truthful job) Eq guarantee
      (fun outcome t => t = s ∧ ∀ metadata object, outcome = .ok metadata → s.store.current key = some object →
        truthful object metadata) (headObject key) s := by
  unfold headObject
  refine Ensures.attempt (Ensures.ask_alone fun response u handled => ?_) fun _ _ holds => holds
  obtain ⟨rfl, honest⟩ := handled
  refine ⟨within, rfl, fun metadata object ok => ?_⟩
  cases response with
  | ok reported =>
    cases ok
    exact honest metadata object rfl
  | error source => cases ok

/-- Only a failure of the write itself leaves it open whether the record was
written. -/
theorem putManifest_spec {formats : Formats} {manifest : CompletionManifest} {guarantee : Site → Site → Prop}
    (valid : manifest.validate = .ok ())
    (within : ∀ t bytes, Changes key s t → formats.toVec manifest = .ok bytes →
      t = s ∨ Holds key bytes s.store.clock t → guarantee s t) :
    Ensures (Handles truthful job) Eq guarantee
      (fun outcome t => (t = s ∧ ∃ error, outcome = .error error) ∨
        (Changes key s t ∧ (∃ bytes, formats.toVec manifest = .ok bytes ∧ Holds key bytes s.store.clock t) ∧
          ∀ error, outcome = .error error → completionOutcome error = .completionUnknown))
      (putManifest formats manifest key) s := by
  unfold putManifest
  rw [valid]
  rcases made : formats.toVec manifest with source | bytes
  · exact Or.inl ⟨rfl, _, rfl⟩
  refine Ensures.attempt (Ensures.ask_alone fun response u handled => ?_) fun _ _ holds => holds
  obtain ⟨changes, held | ⟨⟨error, rfl⟩, same⟩⟩ := Takes.written handled
  · refine ⟨within u bytes changes made (Or.inr held), Or.inr ⟨changes, ⟨bytes, rfl, held⟩, ?_⟩⟩
    intro error failed
    cases response with
    | ok done => cases failed
    | error source =>
      cases failed
      rfl
  · exact ⟨within u bytes changes made (Or.inl same), Or.inl ⟨same, _, rfl⟩⟩

end Steps

end Datacrate.Remote
