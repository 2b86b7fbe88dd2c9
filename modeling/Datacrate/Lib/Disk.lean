import Mathlib.Data.List.Basic
import Mathlib.Logic.Function.Basic

namespace Disk

/-- A name in a directory. -/
structure Entry (δ : Type) where
  directory : δ
  name : String
  deriving DecidableEq

end Disk

open Disk

/-- Numbered files and the entries that mean them. `pending` keeps what an
entry has meant since its directory was last synchronized. -/
structure Disk (δ β : Type) where
  files : Entry δ → Option Nat
  pending : Entry δ → List (Option Nat)
  contents : Nat → β
  flushed : Nat → Bool
  created : Nat

namespace Disk

variable {δ β : Type} {disk after : Disk δ β} {e : Entry δ} {v : Option Nat} {n : Nat}

def read (disk : Disk δ β) (e : Entry δ) : Option β :=
  (disk.files e).map disk.contents

/-- What the entry may mean after a crash. -/
def May (disk : Disk δ β) (e : Entry δ) (v : Option Nat) : Prop :=
  v = disk.files e ∨ v ∈ disk.pending e

/-- A crash leaves each entry with one of its pending meanings, and every
flushed file as it was. -/
structure Survives (disk after : Disk δ β) : Prop where
  files : ∀ e, disk.May e (after.files e)
  contents : ∀ n, disk.flushed n = true → after.contents n = disk.contents n

/-- Entries mean files that were created. -/
def Bounded (disk : Disk δ β) : Prop :=
  ∀ e n, disk.May e (some n) → n < disk.created

theorem Survives.refl (disk : Disk δ β) : Survives disk disk :=
  ⟨fun _ => Or.inl rfl, fun _ _ => rfl⟩

def write (disk : Disk δ β) (n : Nat) (content : β) : Disk δ β :=
  { disk with
    contents := Function.update disk.contents n content
    flushed := Function.update disk.flushed n false }

def sync (disk : Disk δ β) (n : Nat) : Disk δ β :=
  { disk with flushed := Function.update disk.flushed n true }

section Operations

variable [DecidableEq δ]

def assign (disk : Disk δ β) (e : Entry δ) (v : Option Nat) : Disk δ β where
  files := Function.update disk.files e v
  pending := Function.update disk.pending e (disk.files e :: disk.pending e)
  contents := disk.contents
  flushed := disk.flushed
  created := disk.created

def create (disk : Disk δ β) (e : Entry δ) (content : β) : Disk δ β :=
  { disk.assign e (some disk.created) with
    contents := Function.update disk.contents disk.created content
    flushed := Function.update disk.flushed disk.created false
    created := disk.created + 1 }

def rename (disk : Disk δ β) (old new : Entry δ) : Disk δ β :=
  (disk.assign new (disk.files old)).assign old none

def remove (disk : Disk δ β) (e : Entry δ) : Disk δ β :=
  disk.assign e none

def syncDirectory (disk : Disk δ β) (directory : δ) : Disk δ β :=
  { disk with pending := fun e => if e.directory = directory then [] else disk.pending e }

variable {x old new : Entry δ} {content : β} {directory : δ}

@[simp]
theorem assign_files_self : (disk.assign e v).files e = v := by
  simp [assign]

theorem assign_files_of_ne (other : x ≠ e) : (disk.assign e v).files x = disk.files x := by
  simp [assign, other]

theorem may_assign {w : Option Nat} : (disk.assign e v).May x w ↔ disk.May x w ∨ x = e ∧ w = v := by
  by_cases same : x = e
  · subst same
    simp only [May, assign, Function.update_self, List.mem_cons, true_and]
    constructor
    · rintro (now | before | earlier)
      · exact Or.inr now
      · exact Or.inl (Or.inl before)
      · exact Or.inl (Or.inr earlier)
    · rintro ((before | earlier) | now)
      · exact Or.inr (Or.inl before)
      · exact Or.inr (Or.inr earlier)
      · exact Or.inl now
  · simp [May, assign, same]

theorem may_create {w : Option Nat} :
    (disk.create e content).May x w ↔ disk.May x w ∨ x = e ∧ w = some disk.created :=
  may_assign

theorem may_remove {w : Option Nat} : (disk.remove e).May x w ↔ disk.May x w ∨ x = e ∧ w = none :=
  may_assign

theorem may_rename {w : Option Nat} :
    (disk.rename old new).May x w ↔ (disk.May x w ∨ x = new ∧ w = disk.files old) ∨ x = old ∧ w = none := by
  rw [rename, may_assign, may_assign]

theorem rename_files_new (apart : new ≠ old) : (disk.rename old new).files new = disk.files old := by
  rw [rename, assign_files_of_ne apart, assign_files_self]

theorem rename_files_of_ne (notOld : x ≠ old) (notNew : x ≠ new) : (disk.rename old new).files x = disk.files x := by
  rw [rename, assign_files_of_ne notOld, assign_files_of_ne notNew]

theorem may_syncDirectory {w : Option Nat} : (disk.syncDirectory directory).May x w ↔
    w = disk.files x ∨ x.directory ≠ directory ∧ disk.May x w := by
  by_cases inside : x.directory = directory
  · simp [May, syncDirectory, inside]
  · simp only [May, syncDirectory, inside, if_false, ne_eq, not_false_eq_true, true_and]
    constructor
    · exact Or.inr
    · rintro (now | before)
      · exact Or.inl now
      · exact before

end Operations

end Disk
