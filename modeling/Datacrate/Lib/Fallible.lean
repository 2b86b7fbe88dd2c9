import Mathlib.Data.List.Forall2

namespace Fallible

variable {α β ε : Type}

/-- A sequence of two steps succeeds when both do, the second on the result
of the first. -/
theorem bind_ok_iff {step : Except ε α} {next : α → Except ε β} {result : β} :
    (step >>= next) = .ok result ↔ ∃ middle, step = .ok middle ∧ next middle = .ok result := by
  cases step with
  | error failure => simp [bind, Except.bind]
  | ok middle => simp [bind, Except.bind]

/-- A sequence of two steps fails when the first does, or the second on the
result of the first. -/
theorem bind_error_iff {step : Except ε α} {next : α → Except ε β} {failure : ε} :
    (step >>= next) = .error failure ↔ step = .error failure ∨ ∃ middle, step = .ok middle ∧ next middle = .error failure := by
  cases step with
  | error failure => simp [bind, Except.bind]
  | ok middle => simp [bind, Except.bind]

theorem pure_ok_iff {value result : α} : (pure value : Except ε α) = .ok result ↔ value = result := by
  simp [pure, Except.pure]

theorem mapError_ok_iff {φ : Type} {convert : ε → φ} {step : Except ε α} {result : α} :
    step.mapError convert = .ok result ↔ step = .ok result := by
  cases step <;> simp [Except.mapError]

/-- A loop that stops at the first failure succeeds when every step does. -/
theorem forM_ok_iff {step : α → Except ε Unit} {xs : List α} :
    xs.forM step = .ok () ↔ ∀ x ∈ xs, step x = .ok () := by
  induction xs with
  | nil => simp [pure, Except.pure]
  | cons x rest ih =>
    rw [List.forall_mem_cons, ← ih]
    exact bind_ok_iff.trans ⟨fun both => both.elim fun _ parts => parts, fun both => ⟨(), both⟩⟩

/-- A partial map over a list is defined when it is at every element. -/
theorem mapM_isSome_iff {f : α → Option β} {xs : List α} :
    (xs.mapM f).isSome = true ↔ ∀ x ∈ xs, (f x).isSome = true := by
  induction xs with
  | nil => simp
  | cons x rest ih =>
    rw [List.mapM_cons, List.forall_mem_cons, ← ih]
    cases f x with
    | none => simp
    | some y => cases rest.mapM f <;> simp

/-- A partial map undoes a map that it undoes at every element. -/
theorem mapM_map_eq_some {f : β → Option α} {g : α → β} {xs : List α} (undoes : ∀ x ∈ xs, f (g x) = some x) :
    (xs.map g).mapM f = some xs := by
  induction xs with
  | nil => rfl
  | cons x rest ih =>
    rw [List.forall_mem_cons] at undoes
    rw [List.map_cons, List.mapM_cons, undoes.1, ih undoes.2]
    rfl

/-- A loop that collects results succeeds when every step does, in order. -/
theorem mapM_ok_iff {step : α → Except ε β} {xs : List α} {results : List β} :
    xs.mapM step = .ok results ↔ List.Forall₂ (fun x result => step x = .ok result) xs results := by
  induction xs generalizing results with
  | nil =>
    rw [List.mapM_nil, pure_ok_iff, List.forall₂_nil_left_iff]
    exact eq_comm
  | cons x rest ih =>
    rw [List.mapM_cons, bind_ok_iff, List.forall₂_cons_left_iff]
    constructor
    · rintro ⟨first, done, others⟩
      obtain ⟨tail, collected, made⟩ := bind_ok_iff.mp others
      exact ⟨first, tail, done, ih.mp collected, (pure_ok_iff.mp made).symm⟩
    · rintro ⟨first, tail, done, collected, rfl⟩
      exact ⟨first, done, bind_ok_iff.mpr ⟨tail, ih.mpr collected, rfl⟩⟩

theorem forall_transfer {R : α → β → Prop} {P : α → Prop} {Q : β → Prop} {xs : List α} {ys : List β}
    (pairs : List.Forall₂ R xs ys) (agree : ∀ x y, R x y → (Q y ↔ P x)) : (∀ y ∈ ys, Q y) ↔ ∀ x ∈ xs, P x := by
  induction pairs with
  | nil => simp
  | cons related _ ih => rw [List.forall_mem_cons, List.forall_mem_cons, ih, agree _ _ related]

/-- The failure of a loop is that of one of its steps. -/
theorem mapM_error {step : α → Except ε β} {xs : List α} {failure : ε} (failed : xs.mapM step = .error failure) :
    ∃ x ∈ xs, step x = .error failure := by
  induction xs with
  | nil => cases failed
  | cons x rest ih =>
    rw [List.mapM_cons] at failed
    cases first : step x with
    | error stopped =>
      rw [first] at failed
      cases failed
      exact ⟨x, List.mem_cons_self, first⟩
    | ok result =>
      rw [first] at failed
      cases others : rest.mapM step with
      | error stopped =>
        rw [others] at failed
        cases failed
        obtain ⟨y, member, stops⟩ := ih others
        exact ⟨y, List.mem_cons_of_mem _ member, stops⟩
      | ok results =>
        rw [others] at failed
        cases failed

/-- A loop fails with the failure of the first step that fails. -/
theorem mapM_error_iff {step : α → Except ε β} {xs : List α} {failure : ε} :
    xs.mapM step = .error failure ↔ ∃ before x after, xs = before ++ x :: after ∧
      (∀ y ∈ before, ∃ result, step y = .ok result) ∧ step x = .error failure := by
  induction xs with
  | nil => simp [pure, Except.pure]
  | cons x rest ih =>
    rw [List.mapM_cons]
    cases first : step x with
    | error stopped =>
      refine ⟨fun failed => ⟨[], x, rest, rfl, by simp, ?_⟩, ?_⟩
      · cases failed
        exact first
      rintro ⟨before, y, after, split, passed, failed⟩
      cases before with
      | nil =>
        cases split
        cases first.symm.trans failed
        rfl
      | cons z before =>
        cases split
        obtain ⟨result, done⟩ := passed x List.mem_cons_self
        rw [first] at done
        cases done
    | ok result =>
      have onward : (Except.ok result >>= fun y => do return y :: (← rest.mapM step)) = .error failure ↔
          rest.mapM step = .error failure := by
        cases rest.mapM step <;> simp [bind, Except.bind, pure, Except.pure]
      rw [onward, ih]
      constructor
      · rintro ⟨before, y, after, rfl, passed, failed⟩
        exact ⟨x :: before, y, after, rfl, List.forall_mem_cons.mpr ⟨⟨result, first⟩, passed⟩, failed⟩
      · rintro ⟨before, y, after, split, passed, failed⟩
        cases before with
        | nil =>
          cases split
          rw [first] at failed
          cases failed
        | cons z before =>
          cases split
          exact ⟨before, y, after, rfl, fun w member => passed w (List.mem_cons_of_mem _ member), failed⟩

theorem mapM_eq_some_iff {f : α → Option β} {xs : List α} {ys : List β} :
    xs.mapM f = some ys ↔ List.Forall₂ (fun x y => f x = some y) xs ys := by
  induction xs generalizing ys with
  | nil =>
    rw [List.forall₂_nil_left_iff, List.mapM_nil]
    exact Option.some_inj.trans eq_comm
  | cons x rest ih =>
    rw [List.forall₂_cons_left_iff, List.mapM_cons]
    cases f x with
    | none => simp
    | some y =>
      simp only [← ih]
      cases rest.mapM f <;> simp [eq_comm]

/-- What a related list holds is related to something of the first. -/
theorem exists_of_forall₂ {R : α → β → Prop} {xs : List α} {ys : List β} (pairs : List.Forall₂ R xs ys) {y : β}
    (member : y ∈ ys) : ∃ x ∈ xs, R x y := by
  induction pairs with
  | nil => cases member
  | cons here _ ih =>
    rcases List.mem_cons.mp member with rfl | later
    · exact ⟨_, List.mem_cons_self, here⟩
    · obtain ⟨x, inRest, related⟩ := ih later
      exact ⟨x, List.mem_cons_of_mem _ inRest, related⟩

/-- A partial map over the first numbers gives a value at each. -/
theorem mapM_range_eq_some_iff {f : Nat → Option β} {n : Nat} {ys : List β} :
    (List.range n).mapM f = some ys ↔ ys.length = n ∧ ∀ i < n, f i = ys[i]? := by
  rw [mapM_eq_some_iff, List.forall₂_iff_get]
  constructor
  · rintro ⟨length, given⟩
    rw [List.length_range] at length
    refine ⟨length.symm, fun i inside => ?_⟩
    have present : i < ys.length := length ▸ inside
    rw [List.getElem?_eq_getElem present]
    simpa using given i (by rwa [List.length_range]) present
  · rintro ⟨length, given⟩
    refine ⟨by rw [List.length_range, length], fun i inside present => ?_⟩
    rw [List.length_range] at inside
    simpa [present] using given i inside

section Loops

variable {m : Type → Type} [Monad m] {σ : Type} {step other : σ → α → m σ} {start : σ}

/-- Loops whose bodies agree on what they run through are one. -/
theorem foldlM_congr {xs : List α} (agree : ∀ x ∈ xs, ∀ s, step s x = other s x) :
    xs.foldlM step start = xs.foldlM other start := by
  induction xs generalizing start with
  | nil => rfl
  | cons x rest ih =>
    rw [List.forall_mem_cons] at agree
    rw [List.foldlM_cons, List.foldlM_cons, agree.1]
    exact congrArg _ (funext fun _ => ih agree.2)

variable [LawfulMonad m]

/-- A loop inside a loop is one loop. -/
theorem foldlM_flatMap {xs : List β} {inner : β → List α} :
    (xs.flatMap inner).foldlM step start = xs.foldlM (fun s x => (inner x).foldlM step s) start := by
  induction xs generalizing start with
  | nil => rfl
  | cons x rest ih =>
    rw [List.flatMap_cons, List.foldlM_append, List.foldlM_cons]
    exact congrArg _ (funext fun _ => ih)

/-- A loop over consecutive numbers, each turn of which succeeds and brings
an invariant to the next number, succeeds and brings it to the end. -/
theorem foldlM_range' {turn : σ → Nat → Option σ} (inv : Nat → σ → Prop) {first count : Nat} {s : σ} (base : inv first s)
    (advance : ∀ {i s}, first ≤ i → i < first + count → inv i s → ∃ t, turn s i = some t ∧ inv (i + 1) t) :
    ∃ t, (List.range' first count).foldlM turn s = some t ∧ inv (first + count) t := by
  induction count generalizing first s with
  | zero => exact ⟨s, rfl, base⟩
  | succ count ih =>
    obtain ⟨t, turned, next⟩ := advance (Nat.le_refl first) (by omega) base
    obtain ⟨final, looped, last⟩ := ih next fun lower upper => advance (by omega) (by omega)
    refine ⟨final, ?_, by rwa [show first + (count + 1) = first + 1 + count by omega]⟩
    rw [List.range'_succ, List.foldlM_cons, turned]
    exact looped

end Loops

end Fallible
