import ChamaEscrow.Library.OrderedMap

/-!
# What a browser store holds

One key of `localStorage` as the stores of the client see it (`user-scope.ts`): nothing, a text that
is not the store, or the store.  An access can fail: a failed read looks like nothing stored, a
failed write throws, and what it was to write may or may not be there afterwards.
-/

namespace ChamaEscrow

open Library

/-- The content of a key. -/
inductive Stored (α : Type)
  | missing
  | garbled
  | value (a : α)

/-- How a write can fail: before the value was stored, or after. -/
inductive WriteFault
  | lost
  | kept
  deriving DecidableEq

/-- The faults of the accesses that one function of a store makes. -/
structure Faults where
  read : Bool := false
  write : Option WriteFault := none
  deriving DecidableEq

/-- No access fails. -/
def Faults.none : Faults := {}

inductive StorageError
  | access
  | unreadable
  deriving DecidableEq

variable {α : Type}

/-- `getScopedStorageItem` and `getStrictScopedStorageItem`: a read that fails finds nothing. -/
def Stored.readItem (f : Faults) (s : Stored α) : Stored α := if f.read then .missing else s

/-- `setScopedStorageItem` and `setStrictScopedStorageItem`. -/
def Stored.writeItem (f : Faults) (s : Stored α) (a : α) : Except StorageError Unit × Stored α :=
  match f.write with
  | none => (.ok (), .value a)
  | some .lost => (.error .access, s)
  | some .kept => (.error .access, .value a)

variable {f : Faults}

@[simp]
theorem readItem_ok (h : f.read = false) (s : Stored α) : s.readItem f = s := by
  unfold Stored.readItem
  rw [h]
  rfl

@[simp]
theorem readItem_failed (h : f.read = true) (s : Stored α) : s.readItem f = .missing := by
  unfold Stored.readItem
  rw [if_pos h]

theorem writeItem_cases (f : Faults) (s : Stored α) (a : α) :
    (s.writeItem f a).2 = .value a ∨
      ((s.writeItem f a).1 = .error .access ∧ (s.writeItem f a).2 = s) := by
  unfold Stored.writeItem
  cases f.write with
  | none => exact Or.inl rfl
  | some fault =>
    cases fault with
    | lost => exact Or.inr ⟨rfl, rfl⟩
    | kept => exact Or.inl rfl

theorem writeItem_of_ok {s : Stored α} {a : α} (h : (s.writeItem f a).1 = .ok ()) :
    (s.writeItem f a).2 = .value a := by
  rcases writeItem_cases f s a with hvalue | ⟨hthrown, -⟩
  · exact hvalue
  · rw [hthrown] at h
    cases h

end ChamaEscrow
