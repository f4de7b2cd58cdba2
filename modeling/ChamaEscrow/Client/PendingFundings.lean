import ChamaEscrow.Client.PendingRedemptions

/-!
# The stash of pending fundings

`pending-fundings.ts`: the notes that were spent out of a Fedi wallet for a LOCK, one entry for each
escrow.  An entry is in the slot of its escrow (`Fundings`).  Whoever writes the stash reads it
first: a read that fails finds nothing, a text that is not a stash makes the writer throw.

What the writers leave in a slot is `get_of_writeFunding` and `get_of_clear`.
-/

namespace ChamaEscrow

open Js Library

/-! ### Entries -/

structure PendingFunding where
  escrowId : String
  oobNotes : String
  amountMsats : JsNumber
  createdAt : JsNumber
  attempts : ℕ
  lastError : Option String := none
  deriving DecidableEq

def maxFundingDrainAttempts : ℕ := 12

/-- The stash, by escrow. -/
structure Fundings where
  slots : OrderedMap String PendingFunding
  keyed : ∀ slot entry, slots.get slot = some entry → entry.escrowId = slot

namespace Fundings

/-- Nothing is stashed. -/
def empty : Fundings := ⟨.empty, fun _ _ h => by cases h⟩

def get (m : Fundings) (escrowId : String) : Option PendingFunding := m.slots.get escrowId

def put (m : Fundings) (entry : PendingFunding) : Fundings where
  slots := m.slots.set entry.escrowId entry
  keyed slot live h := by
    rw [OrderedMap.get_set] at h
    split_ifs at h with hslot
    · rw [← Option.some.inj h, hslot]
    · exact m.keyed slot live h

def erase (m : Fundings) (escrowId : String) : Fundings where
  slots := m.slots.erase escrowId
  keyed slot live h := by
    rw [OrderedMap.get_erase] at h
    split_ifs at h
    exact m.keyed slot live h

/-- The entries, in the order in which their slots were first taken. -/
def values (m : Fundings) : List PendingFunding := m.slots.values

theorem get_put (m : Fundings) (entry : PendingFunding) (slot : String) :
    (m.put entry).get slot = if slot = entry.escrowId then some entry else m.get slot :=
  OrderedMap.get_set _ _ _ _

theorem get_erase (m : Fundings) (escrowId slot : String) :
    (m.erase escrowId).get slot = if slot = escrowId then none else m.get slot :=
  OrderedMap.get_erase _ _ _

theorem mem_values {m : Fundings} {entry : PendingFunding} :
    entry ∈ m.values ↔ m.get entry.escrowId = some entry := by
  unfold values get OrderedMap.values
  rw [List.mem_map]
  constructor
  · rintro ⟨⟨slot, live⟩, hmem, rfl⟩
    have hget := (OrderedMap.get_eq_some_iff _ _ _).mpr hmem
    rw [m.keyed slot live hget]
    exact hget
  · intro hget
    exact ⟨_, (OrderedMap.get_eq_some_iff _ _ _).mp hget, rfl⟩

theorem nodup_values (m : Fundings) : (m.values.map (·.escrowId)).Nodup := by
  have hkeys : m.values.map (·.escrowId) = m.slots.entries.map Prod.fst := by
    unfold values OrderedMap.values
    rw [List.map_map]
    refine List.map_congr_left fun e he => ?_
    exact m.keyed e.1 e.2 ((OrderedMap.get_eq_some_iff _ _ _).mpr he)
  rw [hkeys]
  exact m.slots.nodup

end Fundings

/-! ### Reading and writing -/

/-- `loadStashStrict`. -/
def loadFundingsStrict (f : Faults) (s : Stored Fundings) : Except StorageError Fundings :=
  match s.readItem f with
  | .missing => .ok .empty
  | .garbled => .error .unreadable
  | .value m => .ok m

/-- `loadStash`: what cannot be read is empty. -/
def loadFundings (f : Faults) (s : Stored Fundings) : Fundings :=
  match loadFundingsStrict f s with
  | .ok m => m
  | .error _ => .empty

def updateFundings (f : Faults) (s : Stored Fundings) (change : Fundings → Option Fundings) :
    Except StorageError Unit × Stored Fundings :=
  match loadFundingsStrict f s with
  | .error e => (.error e, s)
  | .ok m =>
    match change m with
    | none => (.ok (), s)
    | some next => s.writeItem f next

/-- A function that reads the stash and puts an entry in its slot. -/
def writeFunding (f : Faults) (s : Stored Fundings) (entryOf : Fundings → Option PendingFunding) :
    Except StorageError Unit × Stored Fundings :=
  updateFundings f s fun m => (entryOf m).map m.put

/-- `assertPendingFundingWritable`: what it writes is a key of its own. -/
def assertPendingFundingWritable (f : Faults) (s : Stored Fundings) : Except StorageError Unit :=
  match loadFundingsStrict f s with
  | .error e => .error e
  | .ok _ => if f.write.isSome then .error .access else .ok ()

/-- The argument of `stashPendingFunding`. -/
structure FundingInput where
  escrowId : String
  oobNotes : String
  amountMsats : JsNumber

/-- The entry for notes that were just spent. -/
def stashedFunding (now : JsNumber) (input : FundingInput) (existing : Option PendingFunding) :
    PendingFunding :=
  { escrowId := input.escrowId
    oobNotes := input.oobNotes
    amountMsats := input.amountMsats
    createdAt := (existing.map (·.createdAt)).getD now
    attempts := (existing.map (·.attempts)).getD 0
    lastError := existing.bind (·.lastError) }

def stashPendingFunding (f : Faults) (now : JsNumber) (input : FundingInput) (s : Stored Fundings) :
    Except StorageError Unit × Stored Fundings :=
  writeFunding f s fun m => some (stashedFunding now input (m.get input.escrowId))

/-- `clearPendingFunding`: an error is let pass. -/
def clearPendingFunding (f : Faults) (escrowId : String) (s : Stored Fundings) : Stored Fundings :=
  (updateFundings f s fun m => (m.get escrowId).map fun _ => m.erase escrowId).2

def countAttempt (f : Faults) (entry : PendingFunding) (s : Stored Fundings) :
    Except StorageError Unit × Stored Fundings :=
  writeFunding f s fun _ => some entry

def noteFundingError (f : Faults) (escrowId message : String) (s : Stored Fundings) :
    Stored Fundings :=
  (writeFunding f s fun m =>
    (m.get escrowId).map fun cur => { cur with lastError := some (clipped message) }).2

/-! ### What is in a slot -/

def fundings : Stored Fundings → Fundings
  | .value m => m
  | _ => .empty

variable {f : Faults} {s : Stored Fundings}

theorem loadFundingsStrict_eq {m : Fundings} (h : loadFundingsStrict f s = .ok m) :
    m = fundings s ∨ (f.read = true ∧ m = .empty) := by
  unfold loadFundingsStrict at h
  cases hread : f.read with
  | true =>
    rw [readItem_failed hread] at h
    exact Or.inr ⟨rfl, (Except.ok.inj h).symm⟩
  | false =>
    rw [readItem_ok hread] at h
    cases s with
    | garbled => cases h
    | _ => exact Or.inl (Except.ok.inj h).symm

/-- An entry that was read is the one that is stored. -/
theorem get_loadFundings {slot : String} {live : PendingFunding}
    (h : (loadFundings f s).get slot = some live) : (fundings s).get slot = some live := by
  unfold loadFundings at h
  split at h
  · rename_i m hread
    rcases loadFundingsStrict_eq hread with rfl | ⟨-, rfl⟩
    · exact h
    · cases h
  · cases h

/-- A writer leaves the stash alone, or it stores what its change has made of the one it has
read. -/
theorem updateFundings_cases (f : Faults) (s : Stored Fundings)
    (change : Fundings → Option Fundings) : (updateFundings f s change).2 = s ∨
      ∃ m next, (m = fundings s ∨ (f.read = true ∧ m = .empty)) ∧ change m = some next ∧
        (updateFundings f s change).2 = .value next := by
  unfold updateFundings
  cases hread : loadFundingsStrict f s with
  | error e => exact Or.inl rfl
  | ok m =>
    cases hchange : change m with
    | none => exact Or.inl (by simp [hchange])
    | some next =>
      simp only [hchange]
      rcases writeItem_cases f s next with hvalue | ⟨-, hsame⟩
      · exact Or.inr ⟨m, next, loadFundingsStrict_eq hread, hchange, hvalue⟩
      · exact Or.inl hsame

theorem get_of_writeFunding (f : Faults) (s : Stored Fundings)
    (entryOf : Fundings → Option PendingFunding) (slot : String) :
    (fundings (writeFunding f s entryOf).2).get slot = (fundings s).get slot ∨
      (∃ m entry, (m = fundings s ∨ (f.read = true ∧ m = .empty)) ∧ entryOf m = some entry ∧
        slot = entry.escrowId ∧ (fundings (writeFunding f s entryOf).2).get slot = some entry) ∨
      (f.read = true ∧ (entryOf .empty).isSome = true ∧
        (fundings (writeFunding f s entryOf).2).get slot = none) := by
  rcases updateFundings_cases f s (fun m => (entryOf m).map m.put) with
    hsame | ⟨m, next, hread, hchange, hvalue⟩
  · left
    unfold writeFunding
    rw [hsame]
  · obtain ⟨entry, hentry, rfl⟩ := Option.map_eq_some_iff.mp hchange
    have hafter : (fundings (writeFunding f s entryOf).2).get slot =
        if slot = entry.escrowId then some entry else m.get slot := by
      unfold writeFunding
      rw [hvalue]
      exact Fundings.get_put m entry slot
    by_cases hslot : slot = entry.escrowId
    · rw [if_pos hslot] at hafter
      exact Or.inr (Or.inl ⟨m, entry, hread, hentry, hslot, hafter⟩)
    · rw [if_neg hslot] at hafter
      rcases hread with rfl | ⟨hfailed, rfl⟩
      · exact Or.inl hafter
      · exact Or.inr (Or.inr ⟨hfailed, by rw [hentry]; rfl, hafter⟩)

theorem writeFunding_cases (f : Faults) (s : Stored Fundings)
    (entryOf : Fundings → Option PendingFunding) : (writeFunding f s entryOf).2 = s ∨
      ∃ m entry, entryOf m = some entry ∧
        (fundings (writeFunding f s entryOf).2).get entry.escrowId = some entry := by
  unfold writeFunding
  rcases updateFundings_cases f s (fun m => (entryOf m).map m.put) with
    hsame | ⟨m, next, -, hchange, hvalue⟩
  · exact Or.inl hsame
  · obtain ⟨entry, hentry, rfl⟩ := Option.map_eq_some_iff.mp hchange
    have hput := Fundings.get_put m entry entry.escrowId
    rw [if_pos rfl] at hput
    exact Or.inr ⟨m, entry, hentry, by rw [hvalue]; exact hput⟩

theorem writeFunding_of_ok {entryOf : Fundings → Option PendingFunding}
    (h : (writeFunding f s entryOf).1 = .ok ()) (hentry : ∀ m, (entryOf m).isSome = true) :
    ∃ m entry, entryOf m = some entry ∧
      (fundings (writeFunding f s entryOf).2).get entry.escrowId = some entry := by
  unfold writeFunding updateFundings at h ⊢
  cases hread : loadFundingsStrict f s with
  | error e =>
    rw [hread] at h
    cases h
  | ok m =>
    obtain ⟨entry, hm⟩ := Option.isSome_iff_exists.mp (hentry m)
    rw [hread] at h
    simp only [hm, Option.map_some] at h ⊢
    rw [writeItem_of_ok h]
    have hput := Fundings.get_put m entry entry.escrowId
    rw [if_pos rfl] at hput
    exact ⟨m, entry, hm, hput⟩

theorem get_of_clear (f : Faults) (s : Stored Fundings) (escrowId slot : String) :
    (fundings (clearPendingFunding f escrowId s)).get slot = (fundings s).get slot ∨
      slot = escrowId ∧ (fundings (clearPendingFunding f escrowId s)).get slot = none := by
  unfold clearPendingFunding
  rcases updateFundings_cases f s (fun m => (m.get escrowId).map fun _ => m.erase escrowId) with
    hsame | ⟨m, next, hread, hchange, hvalue⟩
  · exact Or.inl (by rw [hsame])
  · obtain ⟨live, hlive, rfl⟩ := Option.map_eq_some_iff.mp hchange
    have hafter := Fundings.get_erase m escrowId slot
    rw [hvalue]
    by_cases hslot : slot = escrowId
    · rw [if_pos hslot] at hafter
      exact Or.inr ⟨hslot, hafter⟩
    · rw [if_neg hslot] at hafter
      rcases hread with rfl | ⟨-, rfl⟩
      · exact Or.inl hafter
      · cases hlive

end ChamaEscrow
