import Datacrate.Contracts.Laws

namespace Datacrate.Contracts

theorem nameKey_eq_iff {x y : FieldShape} : x.key false = y.key false ↔ x.name = y.name :=
  nameKey_false_inj

/-- One index of two structs compared in order. -/
theorem fits_ordered_cons_iff {x y : FieldShape} {xs ys : List FieldShape} :
    Fits (orderedPolicy false) (.struct (x :: xs)) (.struct (y :: ys)) ↔
      x.name = y.name ∧ Fits (orderedPolicy false) x.shape y.shape ∧
        Fits (orderedPolicy false) (.struct xs) (.struct ys) := by
  constructor
  · intro fits
    cases fits with
    | struct keys parts =>
      have aligned : fieldKeys false (x :: xs) = fieldKeys false (y :: ys) := keys
      simp only [fieldKeys, List.map_cons, List.cons.injEq] at aligned
      exact ⟨nameKey_eq_iff.mp aligned.1, parts x y (KeyedList.aligned_cons_iff.mpr (Or.inl ⟨rfl, rfl⟩)),
        .struct aligned.2 fun p c aligned => parts p c (KeyedList.aligned_cons_iff.mpr (Or.inr aligned))⟩
  · rintro ⟨name, head, tail⟩
    cases tail with
    | struct keys parts =>
      refine .struct ?_ ?_
      · have heads : x.key false = y.key false := nameKey_eq_iff.mpr name
        have rests : fieldKeys false xs = fieldKeys false ys := keys
        change fieldKeys false (x :: xs) = fieldKeys false (y :: ys)
        rw [fieldKeys, fieldKeys, List.map_cons, List.map_cons, heads]
        exact congrArg _ rests
      · intro p c aligned
        rcases KeyedList.aligned_cons_iff.mp aligned with ⟨rfl, rfl⟩ | later
        · exact head
        · exact parts p c later

theorem Fits.length_eq {fields others : List FieldShape}
    (fits : Fits (orderedPolicy false) (.struct fields) (.struct others)) : fields.length = others.length := by
  cases fits with
  | struct keys _ => exact fieldKeys_length keys

theorem fits_ordered_struct_iff {fields others : List FieldShape}
    (parts : ∀ field ∈ fields, ∀ {b}, Fits (orderedPolicy false) field.shape b ↔
      field.shape.eraseDefaults = b.eraseDefaults) :
    Fits (orderedPolicy false) (.struct fields) (.struct others) ↔
      eraseFieldDefaults fields = eraseFieldDefaults others := by
  induction fields generalizing others with
  | nil =>
    cases others with
    | nil => exact iff_of_true (ordered_refl false _) rfl
    | cons other others =>
      cases other
      exact iff_of_false (fun fits => absurd fits.length_eq (by simp)) (by simp [eraseFieldDefaults])
  | cons field rest ih =>
    rw [List.forall_mem_cons] at parts
    cases others with
    | nil =>
      cases field
      exact iff_of_false (fun fits => absurd fits.length_eq (by simp)) (by simp [eraseFieldDefaults])
    | cons other others =>
      rw [fits_ordered_cons_iff, parts.1, ih parts.2]
      cases field
      cases other
      simp only [eraseFieldDefaults, List.cons.injEq, FieldShape.mk.injEq, and_true, and_assoc]

/-- Comparison in order is equality up to contract defaults. -/
theorem fits_ordered_iff {a b : TypeShape} :
    Fits (orderedPolicy false) a b ↔ a.eraseDefaults = b.eraseDefaults := by
  induction a using TypeShape.induction generalizing b with
  | primitive name =>
    cases b with
    | primitive other =>
      rw [TypeShape.eraseDefaults, TypeShape.eraseDefaults]
      exact ⟨fun fits => by cases fits; rfl, fun same => same ▸ .primitive name⟩
    | _ => exact iff_of_false (fun fits => by cases fits) (by simp [TypeShape.eraseDefaults])
  | optional inner ih =>
    cases b with
    | optional other =>
      rw [TypeShape.eraseDefaults, TypeShape.eraseDefaults, TypeShape.optional.injEq, ← ih]
      exact ⟨fun fits => by cases fits; assumption, .optional⟩
    | _ => exact iff_of_false (fun fits => by cases fits) (by simp [TypeShape.eraseDefaults])
  | sequence inner ih =>
    cases b with
    | sequence other =>
      rw [TypeShape.eraseDefaults, TypeShape.eraseDefaults, TypeShape.sequence.injEq, ← ih]
      exact ⟨fun fits => by cases fits; assumption, .sequence⟩
    | _ => exact iff_of_false (fun fits => by cases fits) (by simp [TypeShape.eraseDefaults])
  | map key value keyIh valueIh =>
    cases b with
    | map otherKey otherValue =>
      rw [TypeShape.eraseDefaults, TypeShape.eraseDefaults, TypeShape.map.injEq, ← keyIh, ← valueIh]
      exact ⟨fun fits => by cases fits; constructor <;> assumption, fun parts => .map parts.1 parts.2⟩
    | _ => exact iff_of_false (fun fits => by cases fits) (by simp [TypeShape.eraseDefaults])
  | struct fields ih =>
    cases b with
    | struct others =>
      rw [TypeShape.eraseDefaults, TypeShape.eraseDefaults, TypeShape.struct.injEq]
      exact fits_ordered_struct_iff ih
    | _ => exact iff_of_false (fun fits => by cases fits) (by simp [TypeShape.eraseDefaults])

/-- Under `ExactOrdered` a contract accepts its own shape only, up to
contract defaults. -/
theorem conforms_exactOrdered_iff {a b : TypeShape} :
    conforms a b .exactOrdered = true ↔ a.eraseDefaults = b.eraseDefaults := by
  rcases struct_or_bare a with ⟨fields, rfl⟩ | bare
  · rw [conforms_struct_iff (by decide)]
    constructor
    · rintro ⟨others, rfl, fits⟩
      exact fits_ordered_iff.mp fits
    · intro same
      cases b with
      | struct others => exact ⟨others, rfl, fits_ordered_iff.mpr same⟩
      | _ => simp [TypeShape.eraseDefaults] at same
  · exact conforms_bare_iff (by decide) bare

end Datacrate.Contracts
