import Mathlib.Data.List.Basic
import Mathlib.Data.List.Nodup
import Mathlib.Data.List.Perm.Basic

namespace KeyedList

variable {α κ : Type*}

/-- The first element found to repeat an earlier one, scanning the pairs in
the order of two nested index loops. -/
def firstRepeat (same : α → α → Bool) : List α → Option α
  | [] => none
  | x :: rest => (rest.find? (same x)).or (firstRepeat same rest)

theorem firstRepeat_eq_none_iff {same : α → α → Bool} {xs : List α} :
    firstRepeat same xs = none ↔ xs.Pairwise (fun x y => same x y = false) := by
  induction xs with
  | nil => simp [firstRepeat]
  | cons x rest ih =>
    rw [firstRepeat, Option.or_eq_none_iff, ih, List.pairwise_cons, List.find?_eq_none]
    simp only [Bool.not_eq_true]

/-- A scan with a test that decides equality of keys finds nothing exactly
when the keys are distinct. -/
theorem firstRepeat_eq_none_iff_nodup {same : α → α → Bool} {key : α → κ}
    (decides : ∀ x y, same x y = true ↔ key x = key y) {xs : List α} :
    firstRepeat same xs = none ↔ (xs.map key).Nodup := by
  have apart : ∀ x y, same x y = false ↔ key x ≠ key y := by
    intro x y
    rw [← Bool.not_eq_true, decides]
  rw [firstRepeat_eq_none_iff, List.Nodup, List.pairwise_map]
  simp only [apart]

theorem eq_of_key_eq {key : α → κ} {xs : List α} (unique : (xs.map key).Nodup) {x y : α}
    (xMem : x ∈ xs) (yMem : y ∈ xs) (same : key x = key y) : x = y :=
  List.inj_on_of_nodup_map unique xMem yMem same

theorem find?_eq_some_iff {key : α → κ} {xs : List α} (unique : (xs.map key).Nodup)
    {test : α → Bool} {k : κ} (decides : ∀ x, test x = true ↔ key x = k) {x : α} :
    xs.find? test = some x ↔ x ∈ xs ∧ key x = k := by
  constructor
  · intro found
    exact ⟨List.mem_of_find?_eq_some found, (decides x).mp (List.find?_some found)⟩
  · rintro ⟨member, atKey⟩
    cases found : xs.find? test with
    | none => exact absurd ((decides x).mpr atKey) (List.find?_eq_none.mp found x member)
    | some y =>
      have yKey := (decides y).mp (List.find?_some found)
      rw [eq_of_key_eq unique (List.mem_of_find?_eq_some found) member (yKey.trans atKey.symm)]

theorem find?_eq_none_iff {key : α → κ} {xs : List α} {test : α → Bool} {k : κ}
    (decides : ∀ x, test x = true ↔ key x = k) : xs.find? test = none ↔ k ∉ xs.map key := by
  rw [List.find?_eq_none, List.mem_map]
  simp only [decides]
  exact ⟨fun apart ⟨x, member, atKey⟩ => apart x member atKey,
    fun absent x member atKey => absent ⟨x, member, atKey⟩⟩

/-- Lists with equal keys in order agree in all that the key determines. -/
theorem map_eq_of_map_eq {β : Type*} {key : α → κ} {view : α → β} {xs ys : List α}
    (determined : ∀ x ∈ xs, ∀ y ∈ ys, key x = key y → view x = view y) (keys : xs.map key = ys.map key) :
    xs.map view = ys.map view := by
  induction xs generalizing ys with
  | nil => rw [List.map_eq_nil_iff.mp keys.symm]
  | cons x xs ih =>
    cases ys with
    | nil => simp at keys
    | cons y ys =>
      rw [List.map_cons, List.map_cons, List.cons.injEq] at keys
      rw [List.map_cons, List.map_cons, determined x List.mem_cons_self y List.mem_cons_self keys.1,
        ih (fun x' xMem y' yMem => determined x' (.tail x xMem) y' (.tail y yMem)) keys.2]

/-- Elements of two lists that carry the same key. -/
def Paired (key : α → κ) (xs ys : List α) (x y : α) : Prop :=
  x ∈ xs ∧ y ∈ ys ∧ key x = key y

/-- Elements of two lists that stand at the same index. -/
def Aligned (xs ys : List α) (x y : α) : Prop :=
  ∃ i : Nat, xs[i]? = some x ∧ ys[i]? = some y

theorem Paired.symm {key : α → κ} {xs ys : List α} {x y : α} (paired : Paired key xs ys x y) :
    Paired key ys xs y x :=
  ⟨paired.2.1, paired.1, paired.2.2.symm⟩

theorem Paired.eq_self {key : α → κ} {xs : List α} (unique : (xs.map key).Nodup) {x y : α}
    (paired : Paired key xs xs x y) : x = y :=
  eq_of_key_eq unique paired.1 paired.2.1 paired.2.2

/-- A pair across two lists passes through any list that has its key. -/
theorem Paired.through {key : α → κ} {xs zs : List α} {x z : α} (paired : Paired key xs zs x z)
    {ys : List α} (present : key x ∈ ys.map key) :
    ∃ y, Paired key xs ys x y ∧ Paired key ys zs y z := by
  obtain ⟨y, member, atKey⟩ := List.mem_map.mp present
  exact ⟨y, ⟨paired.1, member, atKey.symm⟩, ⟨member, paired.2.1, atKey.trans paired.2.2⟩⟩

theorem Aligned.symm {xs ys : List α} {x y : α} (aligned : Aligned xs ys x y) :
    Aligned ys xs y x := by
  obtain ⟨i, atX, atY⟩ := aligned
  exact ⟨i, atY, atX⟩

theorem Aligned.eq_self {xs : List α} {x y : α} (aligned : Aligned xs xs x y) : x = y := by
  obtain ⟨i, atX, atY⟩ := aligned
  exact Option.some.inj (atX.symm.trans atY)

theorem not_aligned_nil_left {ys : List α} {x y : α} : ¬ Aligned [] ys x y := by
  rintro ⟨i, atX, _⟩
  simp at atX

theorem aligned_cons_iff {a b x y : α} {xs ys : List α} :
    Aligned (a :: xs) (b :: ys) x y ↔ (x = a ∧ y = b) ∨ Aligned xs ys x y := by
  constructor
  · rintro ⟨i, atX, atY⟩
    cases i with
    | zero => exact Or.inl ⟨(Option.some.inj atX).symm, (Option.some.inj atY).symm⟩
    | succ i => exact Or.inr ⟨i, atX, atY⟩
  · rintro (⟨rfl, rfl⟩ | ⟨i, atX, atY⟩)
    · exact ⟨0, rfl, rfl⟩
    · exact ⟨i + 1, atX, atY⟩

theorem Aligned.left_mem {xs ys : List α} {x y : α} (aligned : Aligned xs ys x y) : x ∈ xs := by
  obtain ⟨i, atX, _⟩ := aligned
  exact List.mem_of_getElem? atX

theorem Aligned.right_mem {xs ys : List α} {x y : α} (aligned : Aligned xs ys x y) : y ∈ ys :=
  aligned.symm.left_mem

/-- An index pair passes through any list long enough to hold its index. -/
theorem Aligned.through {xs ys zs : List α} {x z : α} (aligned : Aligned xs zs x z)
    (length : xs.length = ys.length) : ∃ y, Aligned xs ys x y ∧ Aligned ys zs y z := by
  obtain ⟨i, atX, atZ⟩ := aligned
  have within : i < ys.length := length ▸ (List.getElem?_eq_some_iff.mp atX).1
  exact ⟨ys[i], ⟨i, atX, List.getElem?_eq_getElem within⟩,
    ⟨i, List.getElem?_eq_getElem within, atZ⟩⟩

/-- Lists with equal keys in order align elements of equal keys. -/
theorem Aligned.key_eq {key : α → κ} {xs ys : List α} (keys : xs.map key = ys.map key) {x y : α}
    (aligned : Aligned xs ys x y) : key x = key y := by
  obtain ⟨i, atX, atY⟩ := aligned
  have left : (xs.map key)[i]? = some (key x) := by rw [List.getElem?_map, atX, Option.map_some]
  have right : (ys.map key)[i]? = some (key y) := by rw [List.getElem?_map, atY, Option.map_some]
  rw [keys, right] at left
  exact (Option.some.inj left).symm

/-- Between lists with equal distinct keys in order, elements that share a
key also share an index. -/
theorem Paired.aligned {key : α → κ} {xs ys : List α} (keys : xs.map key = ys.map key)
    (unique : (ys.map key).Nodup) {x y : α} (paired : Paired key xs ys x y) :
    Aligned xs ys x y := by
  obtain ⟨xMem, yMem, same⟩ := paired
  obtain ⟨i, atX⟩ := List.getElem?_of_mem xMem
  have length : xs.length = ys.length := by
    simpa only [List.length_map] using congrArg List.length keys
  have within : i < ys.length := length ▸ (List.getElem?_eq_some_iff.mp atX).1
  have atY : ys[i]? = some ys[i] := List.getElem?_eq_getElem within
  have twin : key ys[i] = key y := (Aligned.key_eq keys ⟨i, atX, atY⟩).symm.trans same
  rw [eq_of_key_eq unique (List.getElem_mem within) yMem twin] at atY
  exact ⟨i, atX, atY⟩

end KeyedList
