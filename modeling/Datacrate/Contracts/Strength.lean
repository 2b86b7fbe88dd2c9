import Datacrate.Contracts.Laws

namespace Datacrate.Contracts

theorem fieldKeys_ci_of_eq {xs ys : List FieldShape} (keys : fieldKeys false xs = fieldKeys false ys) :
    fieldKeys true xs = fieldKeys true ys := by
  have folded : ∀ fields, fieldKeys true fields = (fieldKeys false fields).map (List.map toAsciiLower) := by
    intro fields
    rw [fieldKeys, fieldKeys, List.map_map]
    rfl
  rw [folded, folded, keys]

/-- Names that differ modulo case differ. -/
theorem UniqueNames.of_ci {fields : List FieldShape} (unique : UniqueNames true fields) :
    UniqueNames false fields := by
  unfold UniqueNames List.Nodup at unique ⊢
  rw [List.pairwise_map] at unique ⊢
  exact unique.imp fun apart same => apart (nameKey_congr same)

section Policies

variable {a b : TypeShape}

theorem ordered_ci_of_ordered (fits : Fits (orderedPolicy false) a b) : Fits (orderedPolicy true) a b := by
  refine Fits.weaken ?_ ?_ (everyStruct_of_forall (fun _ => trivial) a)
    (everyStruct_of_forall (fun _ => trivial) b) fits
  · intro xs ys _ _ keys
    exact fieldKeys_ci_of_eq (show fieldKeys false xs = fieldKeys false ys from keys)
  · intro xs ys x y _ _ _ pair
    exact ⟨pair, pair.left_mem, pair.right_mem⟩

theorem position_of_ordered {ci : Bool} (fits : Fits (orderedPolicy ci) a b) : Fits positionPolicy a b := by
  refine Fits.weaken ?_ ?_ (everyStruct_of_forall (fun _ => trivial) a)
    (everyStruct_of_forall (fun _ => trivial) b) fits
  · intro xs ys _ _ keys
    exact fieldKeys_length (show fieldKeys ci xs = fieldKeys ci ys from keys)
  · intro xs ys x y _ _ _ pair
    exact ⟨pair, pair.left_mem, pair.right_mem⟩

theorem unordered_of_ordered_ci (left : EveryStruct (UniqueNames true) a)
    (right : EveryStruct (UniqueNames true) b) (fits : Fits (orderedPolicy true) a b) :
    Fits unorderedPolicy a b := by
  refine Fits.weaken ?_ ?_ left right fits
  · intro xs ys xNames yNames keys
    exact ⟨xNames, yNames, fun key => by rw [show fieldKeys true xs = fieldKeys true ys from keys]⟩
  · intro xs ys x y _ yNames keys pair
    exact ⟨pair.aligned keys yNames, pair.1, pair.2.1⟩

theorem backward_of_ordered (left : EveryStruct (UniqueNames false) a)
    (right : EveryStruct (UniqueNames false) b) (fits : Fits (orderedPolicy false) a b) :
    Fits backwardPolicy a b := by
  refine Fits.weaken ?_ ?_ left right fits
  · intro xs ys xNames yNames keys
    refine ⟨xNames, yNames, fun y member absent => ?_⟩
    rw [show fieldKeys false xs = fieldKeys false ys from keys] at absent
    exact absurd (mem_fieldKeys member) absent
  · intro xs ys x y _ yNames keys pair
    exact ⟨pair.aligned keys yNames, pair.1, pair.2.1⟩

theorem forward_of_ordered (left : EveryStruct (UniqueNames false) a)
    (right : EveryStruct (UniqueNames false) b) (fits : Fits (orderedPolicy false) a b) :
    Fits forwardPolicy a b := by
  refine Fits.weaken ?_ ?_ left right fits
  · intro xs ys xNames yNames keys
    refine ⟨xNames, yNames, fun x member => ?_⟩
    rw [← show fieldKeys false xs = fieldKeys false ys from keys]
    exact mem_fieldKeys member
  · intro xs ys x y _ yNames keys pair
    exact ⟨pair.aligned keys yNames, pair.1, pair.2.1⟩

theorem backward_of_forward (fits : Fits forwardPolicy a b) : Fits backwardPolicy b a := by
  refine Fits.flip ?_ ?_ (everyStruct_of_forall (fun _ => trivial) a) fits
  · rintro xs ys _ ⟨xNames, yNames, known⟩
    exact ⟨yNames, xNames, fun x member absent => absurd (known x member) absent⟩
  · rintro xs ys x y _ _ pair
    exact ⟨pair.symm, pair.2.1⟩

/-- With nothing to forgive in the contract, a backward match misses none of
its fields. -/
theorem forward_of_backward (nothing : EveryStruct NothingForgivable a) (fits : Fits backwardPolicy b a) :
    Fits forwardPolicy a b := by
  induction fits with
  | primitive name => exact .primitive name
  | optional _ ih => cases nothing with | optional inner => exact .optional (ih inner)
  | sequence _ ih => cases nothing with | sequence inner => exact .sequence (ih inner)
  | map _ _ keyIh valueIh => cases nothing with | map keys values => exact .map (keyIh keys) (valueIh values)
  | @struct ys xs rule _ ih =>
    obtain ⟨yNames, xNames, forgiven⟩ := rule
    refine .struct ⟨xNames, yNames, fun x member => ?_⟩ fun x y pair => ?_
    · by_contra absent
      obtain ⟨required, noDefault⟩ := nothing.here x member
      have excuse := forgiven x member absent
      simp [required, noDefault] at excuse
    · exact ih y x pair.symm (nothing.field pair.1)

end Policies

/-- The strength order of the policies, and the duality of the two
directional ones. -/
theorem conforms_policy_order (a b : TypeShape) :
    (conforms a b .exactOrdered = true → conforms a b .exactOrderedCI = true) ∧
    (conforms a b .exactOrderedCI = true → conforms a b .exactByPosition = true) ∧
    (EveryStruct (UniqueNames true) a → EveryStruct (UniqueNames true) b →
      (conforms a b .exactOrderedCI = true → conforms a b .exact = true) ∧
      (conforms a b .exactOrdered = true → conforms a b .backward = true ∧ conforms a b .forward = true)) ∧
    (conforms a b .forward = true → conforms b a .backward = true) ∧
    (EveryStruct NothingForgivable a → conforms b a .backward = true → conforms a b .forward = true) := by
  refine ⟨conforms_weaken (by decide) (by decide) ordered_ci_of_ordered,
    conforms_weaken (by decide) (by decide) position_of_ordered, ?_,
    conforms_flip (by decide) (by decide) backward_of_forward,
    fun nothing => conforms_flip (by decide) (by decide) (forward_of_backward nothing)⟩
  intro left right
  have leftNames := left.mono fun _ => UniqueNames.of_ci
  have rightNames := right.mono fun _ => UniqueNames.of_ci
  have lift : Fits SchemaPolicy.exactOrdered.fields a b → Fits SchemaPolicy.backward.fields a b :=
    backward_of_ordered leftNames rightNames
  have drop : Fits SchemaPolicy.exactOrdered.fields a b → Fits SchemaPolicy.forward.fields a b :=
    forward_of_ordered leftNames rightNames
  refine ⟨conforms_weaken (by decide) (by decide) (unordered_of_ordered_ci left right), fun ordered => ⟨?_, ?_⟩⟩
  · exact conforms_weaken (by decide) (by decide) lift ordered
  · exact conforms_weaken (by decide) (by decide) drop ordered

end Datacrate.Contracts
