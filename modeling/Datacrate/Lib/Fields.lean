import Mathlib.Data.List.Nodup

namespace Fields

variable {V : Type}

/-- The fields of a record that are written: a field without a value is
skipped. -/
def written (table : List (String × Option V)) : List (String × V) :=
  table.filterMap fun field => field.2.map (field.1, ·)

variable {table : List (String × Option V)} {name : String}

theorem names_written : ((written table).map Prod.fst).Sublist (table.map Prod.fst) := by
  induction table with
  | nil => exact .slnil
  | cons field rest ih =>
    obtain ⟨other, value⟩ := field
    cases value with
    | none => exact .cons _ ih
    | some value => exact .cons_cons _ ih

theorem lookup_eq_none (absent : name ∉ table.map Prod.fst) : table.lookup name = none := by
  rw [List.lookup_eq_none_iff]
  intro field member
  rw [bne_iff_ne]
  rintro rfl
  exact absent (List.mem_map_of_mem member)

/-- What is found under a name is the value of that field, if it has one. -/
theorem lookup_written (distinct : (table.map Prod.fst).Nodup) :
    (written table).lookup name = (table.lookup name).join := by
  induction table with
  | nil => rfl
  | cons field rest ih =>
    obtain ⟨other, value⟩ := field
    obtain ⟨fresh, others⟩ := List.nodup_cons.mp distinct
    by_cases same : name = other
    · subst same
      rw [List.lookup_cons_self, Option.join_some]
      cases value with
      | none =>
        have missing := ih others
        rw [lookup_eq_none fresh] at missing
        exact missing
      | some value => exact List.lookup_cons_self
    · have apart : (name == other) = false := beq_false_of_ne same
      rw [List.lookup_cons, apart, ← ih others]
      cases value with
      | none => rfl
      | some value =>
        rw [written, List.filterMap_cons, Option.map_some]
        exact List.lookup_cons.trans (by rw [apart]; rfl)

end Fields
