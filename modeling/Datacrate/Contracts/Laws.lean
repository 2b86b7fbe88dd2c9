import Datacrate.Contracts.Relation

namespace Datacrate.Contracts

/-- A property of the field list of every struct inside a shape. -/
inductive EveryStruct (P : List FieldShape → Prop) : TypeShape → Prop
  | primitive (name : String) : EveryStruct P (.primitive name)
  | optional {inner : TypeShape} : EveryStruct P inner → EveryStruct P (.optional inner)
  | sequence {inner : TypeShape} : EveryStruct P inner → EveryStruct P (.sequence inner)
  | map {key value : TypeShape} : EveryStruct P key → EveryStruct P value → EveryStruct P (.map key value)
  | struct {fields : List FieldShape} : P fields → (∀ field ∈ fields, EveryStruct P field.shape) →
      EveryStruct P (.struct fields)

/-- The triples of shapes reached together when two comparisons in a row
descend through the same parts and the same field names. -/
inductive Along (a b c : TypeShape) : TypeShape → TypeShape → TypeShape → Prop
  | here : Along a b c a b c
  | optional {x y z : TypeShape} : Along a b c (.optional x) (.optional y) (.optional z) → Along a b c x y z
  | sequence {x y z : TypeShape} : Along a b c (.sequence x) (.sequence y) (.sequence z) → Along a b c x y z
  | mapKey {xk xv yk yv zk zv : TypeShape} : Along a b c (.map xk xv) (.map yk yv) (.map zk zv) →
      Along a b c xk yk zk
  | mapValue {xk xv yk yv zk zv : TypeShape} : Along a b c (.map xk xv) (.map yk yv) (.map zk zv) →
      Along a b c xv yv zv
  | field {xs ys zs : List FieldShape} {x y z : FieldShape} :
      Along a b c (.struct xs) (.struct ys) (.struct zs) → x ∈ xs → y ∈ ys → z ∈ zs →
      x.name = y.name → y.name = z.name → Along a b c x.shape y.shape z.shape

/-- No struct level drops a field on the way to the middle shape and brings
it back on the way to the last. -/
def NoReintroduction (a b c : TypeShape) : Prop :=
  ∀ {xs ys zs}, Along a b c (.struct xs) (.struct ys) (.struct zs) →
    ∀ x ∈ xs, ∀ z ∈ zs, x.name = z.name → ∃ y ∈ ys, y.name = x.name

def NoDefaults (fields : List FieldShape) : Prop :=
  ∀ field ∈ fields, field.hasDefault = false

def NothingForgivable (fields : List FieldShape) : Prop :=
  ∀ field ∈ fields, isOptional field.shape = false ∧ field.hasDefault = false

theorem Along.trans {a b c a' b' c' x y z : TypeShape} (first : Along a b c a' b' c')
    (second : Along a' b' c' x y z) : Along a b c x y z := by
  induction second with
  | here => exact first
  | optional _ ih => exact .optional ih
  | sequence _ ih => exact .sequence ih
  | mapKey _ ih => exact .mapKey ih
  | mapValue _ ih => exact .mapValue ih
  | field _ xMem yMem zMem left right ih => exact .field ih xMem yMem zMem left right

theorem NoReintroduction.of_along {a b c a' b' c' : TypeShape} (keeps : NoReintroduction a b c)
    (reached : Along a b c a' b' c') : NoReintroduction a' b' c' :=
  fun deeper => keeps (reached.trans deeper)

theorem EveryStruct.field {P : List FieldShape → Prop} {fields : List FieldShape}
    (every : EveryStruct P (.struct fields)) {field : FieldShape} (member : field ∈ fields) :
    EveryStruct P field.shape := by
  cases every with
  | struct _ parts => exact parts field member

theorem EveryStruct.here {P : List FieldShape → Prop} {fields : List FieldShape}
    (every : EveryStruct P (.struct fields)) : P fields := by
  cases every with
  | struct here _ => exact here

theorem EveryStruct.mono {P Q : List FieldShape → Prop} (weaker : ∀ fields, P fields → Q fields)
    {shape : TypeShape} (every : EveryStruct P shape) : EveryStruct Q shape := by
  induction every with
  | primitive name => exact .primitive name
  | optional _ ih => exact .optional ih
  | sequence _ ih => exact .sequence ih
  | map _ _ keyIh valueIh => exact .map keyIh valueIh
  | struct here _ ih => exact .struct (weaker _ here) ih

/-- A property that holds of all field lists holds at every level. -/
theorem everyStruct_of_forall {P : List FieldShape → Prop} (all : ∀ fields, P fields) (shape : TypeShape) :
    EveryStruct P shape := by
  induction shape using TypeShape.induction with
  | primitive name => exact .primitive name
  | optional inner ih => exact .optional ih
  | sequence inner ih => exact .sequence ih
  | map key value keyIh valueIh => exact .map keyIh valueIh
  | struct fields ih => exact .struct (all fields) ih

section FieldPolicies

variable {fp gp : FieldPolicy} {P : List FieldShape → Prop} {a b c : TypeShape}

theorem Fits.refl (rule : ∀ fields, P fields → fp.rule fields fields)
    (matched : ∀ fields x y, P fields → fp.matched fields fields x y → x = y ∧ x ∈ fields)
    (every : EveryStruct P a) : Fits fp a a := by
  induction every with
  | primitive name => exact .primitive name
  | optional _ ih => exact .optional ih
  | sequence _ ih => exact .sequence ih
  | map _ _ keyIh valueIh => exact .map keyIh valueIh
  | struct here _ ih =>
    refine .struct (rule _ here) fun x y pair => ?_
    obtain ⟨rfl, member⟩ := matched _ x y here pair
    exact ih x member

theorem Fits.trans (rule : ∀ xs ys zs, fp.rule xs ys → fp.rule ys zs → fp.rule xs zs)
    (through : ∀ xs ys zs x z, fp.rule xs ys → fp.rule ys zs → fp.matched xs zs x z →
      ∃ y, fp.matched xs ys x y ∧ fp.matched ys zs y z)
    (first : Fits fp a b) (second : Fits fp b c) : Fits fp a c := by
  induction first generalizing c with
  | primitive name => exact second
  | optional _ ih => cases second with | optional inner => exact .optional (ih inner)
  | sequence _ ih => cases second with | sequence inner => exact .sequence (ih inner)
  | map _ _ keyIh valueIh => cases second with | map keys values => exact .map (keyIh keys) (valueIh values)
  | struct left _ ih =>
    cases second with
    | struct right parts =>
      refine .struct (rule _ _ _ left right) fun x z pair => ?_
      obtain ⟨y, before, after⟩ := through _ _ _ x z left right pair
      exact ih x y before (parts y z after)

/-- Between shapes whose struct levels satisfy `P`, a policy implies another
that asks no more and compares no more. -/
theorem Fits.weaken (rule : ∀ xs ys, P xs → P ys → fp.rule xs ys → gp.rule xs ys)
    (matched : ∀ xs ys x y, P xs → P ys → fp.rule xs ys → gp.matched xs ys x y →
      fp.matched xs ys x y ∧ x ∈ xs ∧ y ∈ ys)
    (left : EveryStruct P a) (right : EveryStruct P b) (fits : Fits fp a b) : Fits gp a b := by
  induction fits with
  | primitive name => exact .primitive name
  | optional _ ih => cases left with | optional l => cases right with | optional r => exact .optional (ih l r)
  | sequence _ ih => cases left with | sequence l => cases right with | sequence r => exact .sequence (ih l r)
  | map _ _ keyIh valueIh =>
    cases left with
    | map lk lv => cases right with | map rk rv => exact .map (keyIh lk rk) (valueIh lv rv)
  | struct holds _ ih =>
    refine .struct (rule _ _ left.here right.here holds) fun x y pair => ?_
    obtain ⟨before, xMem, yMem⟩ := matched _ _ x y left.here right.here holds pair
    exact ih x y before (left.field xMem) (right.field yMem)

/-- Between shapes of which the first satisfies `P` at its struct levels, a
policy implies another with the two sides exchanged. -/
theorem Fits.flip (rule : ∀ xs ys, P xs → fp.rule xs ys → gp.rule ys xs)
    (matched : ∀ xs ys x y, P xs → fp.rule xs ys → gp.matched ys xs y x → fp.matched xs ys x y ∧ x ∈ xs)
    (every : EveryStruct P a) (fits : Fits fp a b) : Fits gp b a := by
  induction fits with
  | primitive name => exact .primitive name
  | optional _ ih => cases every with | optional inner => exact .optional (ih inner)
  | sequence _ ih => cases every with | sequence inner => exact .sequence (ih inner)
  | map _ _ keyIh valueIh => cases every with | map keys values => exact .map (keyIh keys) (valueIh values)
  | struct holds _ ih =>
    refine .struct (rule _ _ every.here holds) fun y x pair => ?_
    obtain ⟨before, member⟩ := matched _ _ x y every.here holds pair
    exact ih x y before (every.field member)

end FieldPolicies

section Root

variable {policy other : SchemaPolicy} {a b c : TypeShape}

/-- A struct conforms to structs only, by the policy's relation. -/
theorem conforms_struct_iff (strict : policy ≠ .full) {fields : List FieldShape} :
    conforms (.struct fields) b policy = true ↔
      ∃ others, b = .struct others ∧ Fits policy.fields (.struct fields) (.struct others) := by
  rw [conforms_iff_conformsTo]
  unfold ConformsTo
  rw [or_iff_right strict]
  cases b <;> simp [TypeShape.eraseDefaults]

/-- Any other root conforms exactly to its equals up to defaults. -/
theorem conforms_bare_iff (strict : policy ≠ .full) (bare : ∀ fields, a ≠ .struct fields) :
    conforms a b policy = true ↔ a.eraseDefaults = b.eraseDefaults := by
  rw [conforms_iff_conformsTo]
  unfold ConformsTo
  rw [or_iff_right strict]
  split
  · exact absurd rfl (bare _)
  · rfl

theorem bare_of_eraseDefaults_eq (bare : ∀ fields, a ≠ .struct fields)
    (same : a.eraseDefaults = b.eraseDefaults) : ∀ fields, b ≠ .struct fields := by
  rintro fields rfl
  cases a with
  | struct others => exact bare others rfl
  | _ => simp [TypeShape.eraseDefaults] at same

theorem struct_or_bare (a : TypeShape) : (∃ fields, a = .struct fields) ∨ ∀ fields, a ≠ .struct fields := by
  cases a <;> simp

theorem conforms_self (strict : policy ≠ .full) (fits : Fits policy.fields a a) :
    conforms a a policy = true := by
  rcases struct_or_bare a with ⟨fields, rfl⟩ | bare
  · exact (conforms_struct_iff strict).mpr ⟨fields, rfl, fits⟩
  · exact (conforms_bare_iff strict bare).mpr rfl

theorem conforms_weaken (strict : policy ≠ .full) (otherStrict : other ≠ .full)
    (weaker : Fits policy.fields a b → Fits other.fields a b) (conform : conforms a b policy = true) :
    conforms a b other = true := by
  rcases struct_or_bare a with ⟨fields, rfl⟩ | bare
  · obtain ⟨others, rfl, fits⟩ := (conforms_struct_iff strict).mp conform
    exact (conforms_struct_iff otherStrict).mpr ⟨others, rfl, weaker fits⟩
  · exact (conforms_bare_iff otherStrict bare).mpr ((conforms_bare_iff strict bare).mp conform)

theorem conforms_flip (strict : policy ≠ .full) (otherStrict : other ≠ .full)
    (flip : Fits policy.fields a b → Fits other.fields b a) (conform : conforms a b policy = true) :
    conforms b a other = true := by
  rcases struct_or_bare a with ⟨fields, rfl⟩ | bare
  · obtain ⟨others, rfl, fits⟩ := (conforms_struct_iff strict).mp conform
    exact (conforms_struct_iff otherStrict).mpr ⟨fields, rfl, flip fits⟩
  · have same := (conforms_bare_iff strict bare).mp conform
    exact (conforms_bare_iff otherStrict (bare_of_eraseDefaults_eq bare same)).mpr same.symm

theorem conforms_chain (strict : policy ≠ .full)
    (chain : Fits policy.fields a b → Fits policy.fields b c → Fits policy.fields a c)
    (first : conforms a b policy = true) (second : conforms b c policy = true) :
    conforms a c policy = true := by
  rcases struct_or_bare a with ⟨fields, rfl⟩ | bare
  · obtain ⟨middle, rfl, left⟩ := (conforms_struct_iff strict).mp first
    obtain ⟨others, rfl, right⟩ := (conforms_struct_iff strict).mp second
    exact (conforms_struct_iff strict).mpr ⟨others, rfl, chain left right⟩
  · have left := (conforms_bare_iff strict bare).mp first
    have right := (conforms_bare_iff strict (bare_of_eraseDefaults_eq bare left)).mp second
    exact (conforms_bare_iff strict bare).mpr (left.trans right)

end Root

theorem fieldKeys_length {ci : Bool} {xs ys : List FieldShape} (keys : fieldKeys ci xs = fieldKeys ci ys) :
    xs.length = ys.length := by
  simpa only [fieldKeys, List.length_map] using congrArg List.length keys

theorem mem_fieldKeys {ci : Bool} {fields : List FieldShape} {field : FieldShape} (member : field ∈ fields) :
    field.key ci ∈ fieldKeys ci fields :=
  List.mem_map_of_mem member

theorem Fits.isOptional_eq {fp : FieldPolicy} {a b : TypeShape} (fits : Fits fp a b) :
    isOptional a = isOptional b := by
  cases fits <;> rfl

section Policies

variable {a b c : TypeShape}

theorem ordered_refl (ci : Bool) (a : TypeShape) : Fits (orderedPolicy ci) a a :=
  Fits.refl (fun _ _ => rfl) (fun _ _ _ _ pair => ⟨pair.eq_self, pair.left_mem⟩)
    (everyStruct_of_forall (fun _ => trivial) a)

theorem ordered_symm {ci : Bool} (fits : Fits (orderedPolicy ci) a b) : Fits (orderedPolicy ci) b a :=
  Fits.flip (fun _ _ _ keys => Eq.symm keys) (fun _ _ _ _ _ _ pair => ⟨pair.symm, pair.right_mem⟩)
    (everyStruct_of_forall (fun _ => trivial) a) fits

theorem ordered_trans {ci : Bool} (first : Fits (orderedPolicy ci) a b) (second : Fits (orderedPolicy ci) b c) :
    Fits (orderedPolicy ci) a c :=
  Fits.trans (fun _ _ _ left right => Eq.trans left right)
    (fun _ _ _ _ _ left _ pair => pair.through (fieldKeys_length left)) first second

theorem position_refl (a : TypeShape) : Fits positionPolicy a a :=
  Fits.refl (fun _ _ => rfl) (fun _ _ _ _ pair => ⟨pair.eq_self, pair.left_mem⟩)
    (everyStruct_of_forall (fun _ => trivial) a)

theorem position_symm (fits : Fits positionPolicy a b) : Fits positionPolicy b a :=
  Fits.flip (fun _ _ _ length => Eq.symm length) (fun _ _ _ _ _ _ pair => ⟨pair.symm, pair.right_mem⟩)
    (everyStruct_of_forall (fun _ => trivial) a) fits

theorem position_trans (first : Fits positionPolicy a b) (second : Fits positionPolicy b c) :
    Fits positionPolicy a c :=
  Fits.trans (fun _ _ _ left right => Eq.trans left right)
    (fun _ _ _ _ _ left _ pair => pair.through left) first second

theorem unordered_refl (unique : EveryStruct (UniqueNames true) a) : Fits unorderedPolicy a a :=
  Fits.refl (fun _ names => ⟨names, names, fun _ => Iff.rfl⟩)
    (fun _ _ _ names pair => ⟨pair.eq_self names, pair.1⟩) unique

theorem unordered_symm (fits : Fits unorderedPolicy a b) : Fits unorderedPolicy b a := by
  refine Fits.flip ?_ (fun _ _ _ _ _ _ pair => ⟨pair.symm, pair.2.1⟩)
    (everyStruct_of_forall (fun _ => trivial) a) fits
  rintro xs ys _ ⟨left, right, same⟩
  exact ⟨right, left, fun key => (same key).symm⟩

theorem unordered_trans (first : Fits unorderedPolicy a b) (second : Fits unorderedPolicy b c) :
    Fits unorderedPolicy a c := by
  refine Fits.trans ?_ ?_ first second
  · rintro xs ys zs ⟨left, _, same⟩ ⟨_, right, again⟩
    exact ⟨left, right, fun key => (same key).trans (again key)⟩
  · rintro xs ys zs x z ⟨_, _, same⟩ _ pair
    exact pair.through ((same _).mp (mem_fieldKeys pair.1))

theorem forward_refl (unique : EveryStruct (UniqueNames false) a) : Fits forwardPolicy a a :=
  Fits.refl (fun _ names => ⟨names, names, fun _ => mem_fieldKeys⟩)
    (fun _ _ _ names pair => ⟨pair.eq_self names, pair.1⟩) unique

theorem forward_trans (first : Fits forwardPolicy a b) (second : Fits forwardPolicy b c) :
    Fits forwardPolicy a c := by
  refine Fits.trans ?_ ?_ first second
  · rintro xs ys zs ⟨left, _, known⟩ ⟨_, right, again⟩
    refine ⟨left, right, fun x member => ?_⟩
    obtain ⟨y, yMem, atKey⟩ := List.mem_map.mp (known x member)
    exact atKey ▸ again y yMem
  · rintro xs ys zs x z ⟨_, _, known⟩ _ pair
    exact pair.through (known x pair.1)

theorem backward_refl (unique : EveryStruct (UniqueNames false) a) : Fits backwardPolicy a a :=
  Fits.refl (fun _ names => ⟨names, names, fun _ member absent => absurd (mem_fieldKeys member) absent⟩)
    (fun _ _ _ names pair => ⟨pair.eq_self names, pair.1⟩) unique

/-- A field the producer lacks is forgiven at the end of the chain: the
middle shape either lacks it too, or holds it as an optional field. -/
theorem backward_trans (first : Fits backwardPolicy a b) (second : Fits backwardPolicy b c)
    (noDefaults : EveryStruct NoDefaults b) (keeps : NoReintroduction a b c) : Fits backwardPolicy a c := by
  induction first generalizing c with
  | primitive name => exact second
  | optional _ ih =>
    cases second with
    | optional inner => cases noDefaults with | optional none => exact .optional (ih inner none (keeps.of_along (.optional .here)))
  | sequence _ ih =>
    cases second with
    | sequence inner => cases noDefaults with | sequence none => exact .sequence (ih inner none (keeps.of_along (.sequence .here)))
  | map _ _ keyIh valueIh =>
    cases second with
    | map keys values =>
      cases noDefaults with
      | map keyNone valueNone =>
        exact .map (keyIh keys keyNone (keeps.of_along (.mapKey .here)))
          (valueIh values valueNone (keeps.of_along (.mapValue .here)))
  | @struct xs ys left _ ih =>
    cases second with
    | @struct _ zs right parts =>
      refine .struct ⟨left.1, right.2.1, ?_⟩ ?_
      · intro z zMem absent
        by_cases known : z.key false ∈ fieldKeys false ys
        · obtain ⟨y, yMem, atKey⟩ := List.mem_map.mp known
          have forgiven := left.2.2 y yMem (atKey ▸ absent)
          have required := noDefaults.here y yMem
          have fits := parts y z ⟨yMem, zMem, atKey⟩
          rw [required, fits.isOptional_eq] at forgiven
          exact Or.inl (forgiven.resolve_right Bool.false_ne_true)
        · exact right.2.2 z zMem known
      · rintro x z ⟨xMem, zMem, same⟩
        have sameName : x.name = z.name := nameKey_false_inj.mp same
        obtain ⟨y, yMem, yName⟩ := keeps .here x xMem z zMem sameName
        have before : x.key false = y.key false := congrArg (nameKey false) yName.symm
        exact ih x y ⟨xMem, yMem, before⟩ (parts y z ⟨yMem, zMem, before.symm.trans same⟩)
          (noDefaults.field yMem)
          (keeps.of_along (.field .here xMem yMem zMem yName.symm (yName.trans sameName)))

end Policies

/-- The relational laws of conformance, policy by policy. -/
theorem conforms_relational_laws :
    (∀ policy ∈ [SchemaPolicy.exactOrdered, .exactOrderedCI, .exactByPosition],
      (∀ a, conforms a a policy = true) ∧
      (∀ a b, conforms a b policy = true → conforms b a policy = true) ∧
      ∀ a b c, conforms a b policy = true → conforms b c policy = true → conforms a c policy = true) ∧
    (∀ policy ∈ [SchemaPolicy.exact, .exactUnorderedCI],
      (∀ a b, conforms a b policy = true → conforms b a policy = true) ∧
      (∀ a b c, conforms a b policy = true → conforms b c policy = true → conforms a c policy = true) ∧
      ∀ a, EveryStruct (UniqueNames true) a → conforms a a policy = true) ∧
    ((∀ a b c, conforms a b .forward = true → conforms b c .forward = true → conforms a c .forward = true) ∧
      ∀ a, EveryStruct (UniqueNames false) a → conforms a a .forward = true) ∧
    (∀ a, EveryStruct (UniqueNames false) a → conforms a a .backward = true) ∧
    ∀ a b c, conforms a b .backward = true → conforms b c .backward = true →
      EveryStruct NoDefaults b → NoReintroduction a b c → conforms a c .backward = true := by
  refine ⟨?_, ?_, ⟨?_, ?_⟩, ?_, ?_⟩
  · intro policy member
    simp only [List.mem_cons, List.not_mem_nil, or_false] at member
    rcases member with rfl | rfl | rfl
    · exact ⟨fun a => conforms_self (by decide) (ordered_refl false a),
        fun a b => conforms_flip (by decide) (by decide) ordered_symm,
        fun a b c => conforms_chain (by decide) ordered_trans⟩
    · exact ⟨fun a => conforms_self (by decide) (ordered_refl true a),
        fun a b => conforms_flip (by decide) (by decide) ordered_symm,
        fun a b c => conforms_chain (by decide) ordered_trans⟩
    · exact ⟨fun a => conforms_self (by decide) (position_refl a),
        fun a b => conforms_flip (by decide) (by decide) position_symm,
        fun a b c => conforms_chain (by decide) position_trans⟩
  · intro policy member
    simp only [List.mem_cons, List.not_mem_nil, or_false] at member
    rcases member with rfl | rfl
    all_goals exact ⟨fun a b => conforms_flip (by decide) (by decide) unordered_symm,
      fun a b c => conforms_chain (by decide) unordered_trans,
      fun a unique => conforms_self (by decide) (unordered_refl unique)⟩
  · exact fun a b c => conforms_chain (by decide) forward_trans
  · exact fun a unique => conforms_self (by decide) (forward_refl unique)
  · exact fun a unique => conforms_self (by decide) (backward_refl unique)
  · intro a b c first second noDefaults keeps
    exact conforms_chain (by decide) (fun left right => backward_trans left right noDefaults keeps) first second

end Datacrate.Contracts
