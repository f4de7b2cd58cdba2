import ChamaEscrow.Client.Storage
import ChamaEscrow.Js.Number
import Mathlib.Data.List.Infix

/-!
# The stash of pending redemptions

`pending-redemptions.ts`: bearer notes that a claim has recovered and that the mint has not yet
credited to the wallet.  The stash has one slot for each escrow; every function reads the whole
stash and writes it back.  A read that fails, or a stash that is unreadable, counts as an empty one,
and a write that fails is let pass.

`StashCall` are the functions that change the stash, as calls.  The drain, which calls some of them
between its calls to the mint, is in `Client.RedemptionDrain`.
-/

namespace ChamaEscrow

open Js Library

/-! ### Entries -/

/-- What the federation answered about a note. -/
inductive ProbeVerdict
  | recovered
  | consumedUncredited
  | dead
  | unknown
  | foreign
  deriving DecidableEq

/-- How an entry left the list of alarms. -/
inductive Resolution
  | balanceReconciled
  | userDismissed
  | probedDead
  deriving DecidableEq

structure PendingRedemption where
  escrowId : String
  oobNotes : String
  notesHash : String
  amountMsats : JsNumber
  createdAt : JsNumber
  attempts : ℕ
  creditedAt : Option JsNumber := none
  lastError : Option String := none
  poisonedAt : Option JsNumber := none
  unresolvedCredit : Bool := false
  resolvedAt : Option JsNumber := none
  resolution : Option Resolution := none
  probedAt : Option JsNumber := none
  probeVerdict : Option ProbeVerdict := none
  probeReason : Option String := none
  deriving DecidableEq

abbrev Stash := OrderedMap String PendingRedemption

def legacyManualEcashExportId : String := "manual-fund-ecash"

def maxDrainAttempts : ℕ := 12

def includes (text word : String) : Bool := decide (word.toList <:+: text.toList)

def clipped (reason : String) : String := String.ofList (reason.toList.take 500)

/-- `isConsumedCreditUnconfirmed`: the federation's answer where it was asked, a guess at the text
of the last error where it was not. -/
def isConsumedCreditUnconfirmed (entry : PendingRedemption) : Bool :=
  match entry.probeVerdict with
  | some verdict => verdict = .consumedUncredited || verdict = .dead
  | none =>
    let msg := (entry.lastError.getD "").toLower
    includes msg "mint reissue operation failed after federation consumed"
      || includes msg "mint notes were consumed by the federation"

/-! ### Reading and writing -/

/-- `loadStash`: what cannot be read is empty. -/
def loadStash (f : Faults) (s : Stored Stash) : Stash :=
  match s.readItem f with
  | .value stash => stash
  | _ => .empty

/-- `saveStash`: says nothing when it fails. -/
def saveStash (f : Faults) (s : Stored Stash) (stash : Stash) : Stored Stash :=
    (s.writeItem f stash).2

def updateStash (f : Faults) (s : Stored Stash) (change : Stash → Option Stash) : Stored Stash :=
  match change (loadStash f s) with
  | some next => saveStash f s next
  | none => s

/-- The change of the entry in a slot; `g` may leave it alone. -/
def changeSlot (escrowId : String) (g : PendingRedemption → Option PendingRedemption)
    (stash : Stash) : Option Stash :=
  (stash.get escrowId).bind fun entry => (g entry).map (stash.set escrowId)

/-- The change of every entry with certain notes, when there is one that `g` changes. -/
def changeMatching (oobNotes : String) (g : PendingRedemption → Option PendingRedemption)
    (stash : Stash) : Option Stash :=
  if stash.any fun _ entry => entry.oobNotes = oobNotes && (g entry).isSome then
    some (stash.map fun _ entry => if entry.oobNotes = oobNotes then (g entry).getD entry else entry)
  else none

def matchingSlots (f : Faults) (s : Stored Stash) (oobNotes : String)
    (g : PendingRedemption → Option PendingRedemption) : List String :=
  (((loadStash f s).filter fun _ entry => entry.oobNotes = oobNotes && (g entry).isSome).keys)

/-! ### The functions of the stash -/

/-- The arguments of `stashPendingRedemption`. -/
structure RedemptionInput where
  escrowId : String
  oobNotes : String
  notesHash : String
  amountMsats : JsNumber

/-- The entry that a stash leaves in a slot: the marks of the entry before go over to it, whatever
notes that one held; only the verdict of a probe stays with the notes it is about. -/
def restashed (now : JsNumber) (input : RedemptionInput) (existing : Option PendingRedemption) :
    PendingRedemption :=
  let probed := existing.filter fun entry => entry.oobNotes = input.oobNotes
  { escrowId := input.escrowId
    oobNotes := input.oobNotes
    notesHash := input.notesHash
    amountMsats := input.amountMsats
    createdAt := (existing.map (·.createdAt)).getD now
    attempts := (existing.map (·.attempts)).getD 0
    creditedAt := existing.bind (·.creditedAt)
    lastError := existing.bind (·.lastError)
    poisonedAt := existing.bind (·.poisonedAt)
    unresolvedCredit := existing.any (·.unresolvedCredit)
    probedAt := probed.bind (·.probedAt)
    probeVerdict := probed.bind (·.probeVerdict)
    probeReason := probed.bind (·.probeReason) }

def stashPendingRedemption (f : Faults) (now : JsNumber) (input : RedemptionInput)
    (s : Stored Stash) : Stored Stash :=
  updateStash f s fun stash =>
    some (stash.set input.escrowId (restashed now input (stash.get input.escrowId)))

def clearPendingRedemption (f : Faults) (escrowId : String) (s : Stored Stash) : Stored Stash :=
  updateStash f s fun stash =>
    if (stash.get escrowId).isSome then some (stash.erase escrowId) else none

def credited (now : JsNumber) (entry : PendingRedemption) : PendingRedemption :=
  { entry with
    creditedAt := entry.creditedAt.or (some now)
    lastError := none
    poisonedAt := none
    unresolvedCredit := false }

def markPendingRedemptionCredited (f : Faults) (now : JsNumber) (escrowId : String)
    (s : Stored Stash) : Stored Stash :=
  updateStash f s (changeSlot escrowId fun entry => some (credited now entry))

def clearPendingRedemptionsMatchingNotes (f : Faults) (oobNotes : String) (s : Stored Stash) :
    List String × Stored Stash :=
  if oobNotes = "" then ([], s)
  else
    (matchingSlots f s oobNotes some,
      updateStash f s fun stash =>
        if stash.any fun _ entry => entry.oobNotes = oobNotes then
          some (stash.filter fun _ entry => entry.oobNotes ≠ oobNotes)
        else none)

def poisoned (now : JsNumber) (reason : String) (entry : PendingRedemption) : PendingRedemption :=
  { entry with
    lastError := some (clipped reason)
    poisonedAt := entry.poisonedAt.or (some now) }

def markPoisoned (f : Faults) (now : JsNumber) (escrowId reason : String) (s : Stored Stash) :
    Stored Stash :=
  updateStash f s (changeSlot escrowId fun entry => some (poisoned now reason entry))

def markUnresolvedCredit (f : Faults) (now : JsNumber) (escrowId reason : String)
    (s : Stored Stash) : Stored Stash :=
  updateStash f s (changeSlot escrowId fun entry =>
    some { poisoned now reason entry with unresolvedCredit := true })

/-- An entry that leaves the list of alarms, if its credit is unresolved. -/
def archived (now : JsNumber) (resolution : Resolution) (entry : PendingRedemption) :
    Option PendingRedemption :=
  if entry.unresolvedCredit || isConsumedCreditUnconfirmed entry then
    some { entry with
      unresolvedCredit := true
      resolvedAt := entry.resolvedAt.or (some now)
      resolution := some resolution }
  else none

def resolveUnresolvedCredit (f : Faults) (now : JsNumber) (escrowId : String)
    (resolution : Resolution) (s : Stored Stash) : Stored Stash :=
  updateStash f s (changeSlot escrowId (archived now resolution))

def probed (now : JsNumber) (verdict : ProbeVerdict) (reason : Option String)
    (entry : PendingRedemption) : Option PendingRedemption :=
  if verdict = .unknown ∧ (entry.probeVerdict.any (· ≠ .unknown)) = true then none
  else
    some { entry with
      probedAt := some now
      probeVerdict := some verdict
      probeReason := ((reason.filter (· ≠ "")).map clipped).or entry.probeReason }

def recordBearerProbe (f : Faults) (now : JsNumber) (oobNotes : String) (verdict : ProbeVerdict)
    (reason : Option String) (s : Stored Stash) : List String × Stored Stash :=
  if oobNotes = "" then ([], s)
  else
    (matchingSlots f s oobNotes (probed now verdict reason),
      updateStash f s (changeMatching oobNotes (probed now verdict reason)))

def probedDead (now : JsNumber) (reason : String) (entry : PendingRedemption) : PendingRedemption :=
  { entry with
    probedAt := some now
    probeVerdict := some .dead
    probeReason := some (clipped reason)
    resolvedAt := entry.resolvedAt.or (some now)
    resolution := some .probedDead }

def markPendingRedemptionsProbedDead (f : Faults) (now : JsNumber) (oobNotes reason : String)
    (s : Stored Stash) : List String × Stored Stash :=
  if oobNotes = "" then ([], s)
  else
    (matchingSlots f s oobNotes fun entry => some (probedDead now reason entry),
      updateStash f s (changeMatching oobNotes fun entry => some (probedDead now reason entry)))

def codeUnits (c : Char) : List ℕ :=
  if c.toNat < 0x10000 then [c.toNat]
  else [0xD800 + (c.toNat - 0x10000) / 0x400, 0xDC00 + (c.toNat - 0x10000) % 0x400]

/-- `noteSlotId`: the slot of a note that has no trade behind it, by its FNV-1a hash. -/
def noteSlotId (oobNotes : String) : String :=
  let hash := (oobNotes.toList.flatMap codeUnits).foldl
    (fun hash unit => (hash ^^^ unit) * 0x01000193 % 2 ^ 32) 0x811c9dc5
  let digits := Nat.toDigits 16 hash
  "consumed-note-" ++ String.ofList (List.replicate (8 - digits.length) '0' ++ digits)

def consumed (now : JsNumber) (reason : String) (entry : PendingRedemption) : PendingRedemption :=
  { entry with
    probedAt := some now
    probeVerdict := some .consumedUncredited
    probeReason := some (clipped reason)
    lastError := some (clipped reason)
    poisonedAt := entry.poisonedAt.or (some now)
    unresolvedCredit := true }

def freshConsumed (now : JsNumber) (slot oobNotes : String) (amountMsats : JsNumber)
    (reason : String) : PendingRedemption :=
  consumed now reason
    { escrowId := slot, oobNotes, notesHash := "", amountMsats, createdAt := now, attempts := 0 }

/-- The arguments of `recordConsumedUncreditedNote`. -/
structure ConsumedInput where
  oobNotes : String
  amountMsats : JsNumber
  reason : String
  escrowId : Option String := none

def ConsumedInput.slot (input : ConsumedInput) : String :=
  input.escrowId.getD (noteSlotId input.oobNotes)

/-- `recordConsumedUncreditedNote`: without an entry that holds the notes it writes one, over
whatever is in the slot. -/
def recordConsumedUncreditedNote (f : Faults) (now : JsNumber) (input : ConsumedInput)
    (s : Stored Stash) : List String × Stored Stash :=
  if input.oobNotes = "" then ([], s)
  else
    let touched := matchingSlots f s input.oobNotes some
    (if touched = [] then [input.slot] else touched,
      updateStash f s fun stash =>
        some ((changeMatching input.oobNotes (fun entry => some (consumed now input.reason entry))
          stash).getD (stash.set input.slot
            (freshConsumed now input.slot input.oobNotes input.amountMsats input.reason))))

/-- An entry that returns to the list of alarms, if only the balance had archived it. -/
def reopened (entry : PendingRedemption) : Option PendingRedemption :=
  if entry.resolution = some .balanceReconciled ∧
      (entry.unresolvedCredit || isConsumedCreditUnconfirmed entry) = true then
    some { entry with resolvedAt := none, resolution := none, unresolvedCredit := true }
  else none

def reopenBalanceReconciledCredit (f : Faults) (escrowId : String) (s : Stored Stash) :
    Bool × Stored Stash :=
  (((loadStash f s).get escrowId).any fun entry => (reopened entry).isSome,
    updateStash f s (changeSlot escrowId reopened))

def writeBack (f : Faults) (entry : PendingRedemption) (s : Stored Stash) : Stored Stash :=
  saveStash f s ((loadStash f s).set entry.escrowId entry)

/-! ### Calls -/

def attempted (entry : PendingRedemption) : PendingRedemption :=
  { entry with attempts := entry.attempts + 1 }

/-- The calls that change the stash; an `attempt` is what the drain writes for an entry that it has
just read. -/
inductive StashCall
  | stash (now : JsNumber) (input : RedemptionInput)
  | clear (escrowId : String)
  | credit (now : JsNumber) (escrowId : String)
  | clearMatching (oobNotes : String)
  | poison (now : JsNumber) (escrowId reason : String)
  | unresolved (now : JsNumber) (escrowId reason : String)
  | resolve (now : JsNumber) (escrowId : String) (resolution : Resolution)
  | probe (now : JsNumber) (oobNotes : String) (verdict : ProbeVerdict) (reason : Option String)
  | dead (now : JsNumber) (oobNotes reason : String)
  | consume (now : JsNumber) (input : ConsumedInput)
  | reopen (escrowId : String)
  | attempt (escrowId : String)

def StashCall.run (f : Faults) : StashCall → Stored Stash → Stored Stash
  | stash now input, s => stashPendingRedemption f now input s
  | clear escrowId, s => clearPendingRedemption f escrowId s
  | credit now escrowId, s => markPendingRedemptionCredited f now escrowId s
  | clearMatching oobNotes, s => (clearPendingRedemptionsMatchingNotes f oobNotes s).2
  | poison now escrowId reason, s => markPoisoned f now escrowId reason s
  | unresolved now escrowId reason, s => markUnresolvedCredit f now escrowId reason s
  | resolve now escrowId resolution, s => resolveUnresolvedCredit f now escrowId resolution s
  | probe now oobNotes verdict reason, s => (recordBearerProbe f now oobNotes verdict reason s).2
  | dead now oobNotes reason, s => (markPendingRedemptionsProbedDead f now oobNotes reason s).2
  | consume now input, s => (recordConsumedUncreditedNote f now input s).2
  | reopen escrowId, s => (reopenBalanceReconciledCredit f escrowId s).2
  | attempt escrowId, s =>
    match (loadStash f s).get escrowId with
    | some entry => writeBack f (attempted entry) s
    | none => s

/-! ### What the calls leave when no access fails -/

def stashed (s : Stored Stash) : Stash := loadStash .none s

/-- Every entry knows its slot. -/
def Keyed (stash : Stash) : Prop :=
  ∀ slot entry, stash.get slot = some entry → entry.escrowId = slot

/-- What a call does to the entries: it changes them, drops some, or puts one in its slot. -/
inductive StashEffect
  | map (f : String → PendingRedemption → PendingRedemption)
  | filter (p : String → PendingRedemption → Bool)
  | set (entry : PendingRedemption)

def StashEffect.apply : StashEffect → Stash → Stash
  | map f, stash => stash.map f
  | filter p, stash => stash.filter p
  | set entry, stash => stash.set entry.escrowId entry

/-- Nothing is changed. -/
def StashEffect.nothing : StashEffect := .map fun _ entry => entry

/-- The entry in a slot is changed, unless `g` leaves it alone. -/
def StashEffect.inSlot (escrowId : String) (g : PendingRedemption → Option PendingRedemption) :
    StashEffect :=
  .map fun slot entry => if slot = escrowId then (g entry).getD entry else entry

/-- The entries with certain notes are changed, unless `g` leaves them alone. -/
def StashEffect.matching (oobNotes : String) (g : PendingRedemption → Option PendingRedemption) :
    StashEffect :=
  .map fun _ entry => if entry.oobNotes = oobNotes then (g entry).getD entry else entry

def StashCall.effect (entries : Stash) : StashCall → StashEffect
  | stash now input => .set (restashed now input (entries.get input.escrowId))
  | clear escrowId => .filter fun slot _ => slot ≠ escrowId
  | credit now escrowId => .inSlot escrowId fun entry => some (credited now entry)
  | clearMatching oobNotes =>
    if oobNotes = "" then .nothing else .filter fun _ entry => entry.oobNotes ≠ oobNotes
  | poison now escrowId reason => .inSlot escrowId fun entry => some (poisoned now reason entry)
  | unresolved now escrowId reason =>
    .inSlot escrowId fun entry => some { poisoned now reason entry with unresolvedCredit := true }
  | resolve now escrowId resolution => .inSlot escrowId (archived now resolution)
  | probe now oobNotes verdict reason =>
    if oobNotes = "" then .nothing else .matching oobNotes (probed now verdict reason)
  | dead now oobNotes reason =>
    if oobNotes = "" then .nothing
    else .matching oobNotes fun entry => some (probedDead now reason entry)
  | consume now input =>
    if input.oobNotes = "" then .nothing
    else if entries.any fun _ entry => entry.oobNotes = input.oobNotes then
      .matching input.oobNotes fun entry => some (consumed now input.reason entry)
    else .set (freshConsumed now input.slot input.oobNotes input.amountMsats input.reason)
  | reopen escrowId => .inSlot escrowId reopened
  | attempt escrowId => .inSlot escrowId fun entry => some (attempted entry)

variable {s : Stored Stash} {stash : Stash}

theorem stashed_updateStash {change : Stash → Option Stash} :
    stashed (updateStash .none s change) = (change (stashed s)).getD (stashed s) := by
  unfold updateStash
  change stashed (match change (stashed s) with | some next => .value next | none => s) = _
  cases change (stashed s) <;> rfl

theorem get_nothing (slot : String) :
    (StashEffect.nothing.apply stash).get slot = stash.get slot := by
  change (stash.map _).get slot = _
  rw [OrderedMap.get_map]
  exact Option.map_id'

variable {g : PendingRedemption → Option PendingRedemption}

variable {escrowId : String}

theorem get_changeSlot (slot : String) : ((changeSlot escrowId g stash).getD stash).get slot =
      ((StashEffect.inSlot escrowId g).apply stash).get slot := by
  change _ = (stash.map _).get slot
  rw [OrderedMap.get_map]
  unfold changeSlot
  cases hget : stash.get escrowId with
  | none =>
    by_cases hslot : slot = escrowId
    · subst hslot
      rw [hget]
      exact hget
    · simp [hslot]
  | some entry =>
    rw [Option.bind_some]
    cases hg : g entry with
    | none =>
      by_cases hslot : slot = escrowId
      · subst hslot
        simp [hget, hg]
      · simp [hslot]
    | some changed =>
      rw [Option.map_some, Option.getD_some, OrderedMap.get_set]
      by_cases hslot : slot = escrowId
      · subst hslot
        simp [hget, hg]
      · simp [hslot]

variable {oobNotes : String}

theorem get_changeMatching
    (slot : String) : ((changeMatching oobNotes g stash).getD stash).get slot =
      ((StashEffect.matching oobNotes g).apply stash).get slot := by
  unfold changeMatching
  split_ifs with hany
  · rfl
  · change stash.get slot = (stash.map _).get slot
    rw [OrderedMap.get_map]
    cases hget : stash.get slot with
    | none => rfl
    | some entry =>
      rw [Option.map_some]
      split_ifs with hnotes
      · cases hg : g entry with
        | none => rfl
        | some changed =>
          refine absurd ((OrderedMap.any_eq_true _ _).mpr ⟨slot, entry, hget, ?_⟩) hany
          simp [hnotes, hg]
      · rfl

theorem get_clear (slot : String) :
    ((if (stash.get escrowId).isSome then some (stash.erase escrowId) else none).getD stash).get slot =
      (stash.filter fun key _ => key ≠ escrowId).get slot := by
  rw [OrderedMap.get_filter]
  by_cases hslot : slot = escrowId
  · subst hslot
    split_ifs with hsome
    · simp [OrderedMap.get_erase]
    · simpa using hsome
  · split_ifs with hsome
    · rw [Option.getD_some, OrderedMap.get_erase, if_neg hslot]
      cases stash.get slot <;> simp [hslot, Option.filter]
    · rw [Option.getD_none]
      cases stash.get slot <;> simp [hslot, Option.filter]

theorem get_clearMatching (slot : String) :
    ((if stash.any fun _ entry => entry.oobNotes = oobNotes then
      some (stash.filter fun _ entry => entry.oobNotes ≠ oobNotes) else none).getD stash).get slot =
        (stash.filter fun _ entry => entry.oobNotes ≠ oobNotes).get slot := by
  split_ifs with hany
  · rfl
  · -- Nothing holds the notes, and nothing is dropped.
    rw [Option.getD_none, OrderedMap.get_filter]
    cases hget : stash.get slot with
    | none => rfl
    | some entry =>
      have hother : entry.oobNotes ≠ oobNotes := by
        intro hnotes
        exact hany ((OrderedMap.any_eq_true _ _).mpr ⟨slot, entry, hget, by simp [hnotes]⟩)
      simp [Option.filter, hother]

theorem get_run (hkeyed : Keyed (stashed s)) (call : StashCall) (slot : String) :
    (stashed (call.run .none s)).get slot =
      ((call.effect (stashed s)).apply (stashed s)).get slot := by
  cases call with
  | stash now input =>
    simp only [StashCall.run, stashPendingRedemption, stashed_updateStash, Option.getD_some]
    rfl
  | clear escrowId =>
    simp only [StashCall.run, clearPendingRedemption, stashed_updateStash]
    exact get_clear slot
  | credit | poison | unresolved | resolve | reopen =>
    change (stashed (updateStash _ _ _)).get slot = _
    rw [stashed_updateStash]
    exact get_changeSlot slot
  | clearMatching oobNotes =>
    by_cases hempty : oobNotes = ""
    · simp only [StashCall.run, clearPendingRedemptionsMatchingNotes, StashCall.effect,
        if_pos hempty,
        get_nothing]
    · simp only [StashCall.run, clearPendingRedemptionsMatchingNotes, StashCall.effect,
        if_neg hempty,
        stashed_updateStash]
      exact get_clearMatching slot
  | probe now oobNotes verdict reason =>
    by_cases hempty : oobNotes = ""
    · simp only [StashCall.run, recordBearerProbe, StashCall.effect, if_pos hempty, get_nothing]
    · simp only [StashCall.run, recordBearerProbe, StashCall.effect, if_neg hempty,
        stashed_updateStash]
      exact get_changeMatching slot
  | dead now oobNotes reason =>
    by_cases hempty : oobNotes = ""
    · simp only [StashCall.run, markPendingRedemptionsProbedDead, StashCall.effect, if_pos hempty,
        get_nothing]
    · simp only [StashCall.run, markPendingRedemptionsProbedDead, StashCall.effect, if_neg hempty,
        stashed_updateStash]
      exact get_changeMatching slot
  | consume now input =>
    by_cases hempty : input.oobNotes = ""
    · simp only [StashCall.run, recordConsumedUncreditedNote, StashCall.effect, if_pos hempty,
        get_nothing]
    · simp only [StashCall.run, recordConsumedUncreditedNote, StashCall.effect, if_neg hempty,
        stashed_updateStash, Option.getD_some]
      cases hany : (stashed s).any fun _ entry => entry.oobNotes = input.oobNotes with
      | true =>
        have hchange : ((changeMatching input.oobNotes
            (fun entry => some (consumed now input.reason entry)) (stashed s)).getD
              (stashed s)).get slot = _ := get_changeMatching slot
        simpa [changeMatching, hany] using hchange
      | false =>
        simp only [changeMatching, Option.isSome_some, Bool.and_true, hany]
        rfl
  | attempt escrowId =>
    change (stashed (match (stashed s).get escrowId with
      | some entry => writeBack .none (attempted entry) s
      | none => s)).get slot = _
    refine Eq.trans ?_ (get_changeSlot slot)
    unfold changeSlot
    cases hget : (stashed s).get escrowId with
    | none => rfl
    | some entry =>
      -- The copy goes back to its own slot.
      change ((stashed s).set (attempted entry).escrowId (attempted entry)).get slot = _
      rw [show (attempted entry).escrowId = escrowId from hkeyed escrowId entry hget]
      rfl

/-! ### Changes that only touch marks -/

/-- A change of an entry that leaves its slot and its notes alone. -/
def Marks (g : PendingRedemption → Option PendingRedemption) : Prop :=
  ∀ entry, ((g entry).getD entry).escrowId = entry.escrowId ∧
    ((g entry).getD entry).oobNotes = entry.oobNotes

theorem marks_archived {now : JsNumber} {resolution : Resolution} :
    Marks (archived now resolution) := by
  intro entry
  unfold archived
  split_ifs <;> exact ⟨rfl, rfl⟩

theorem marks_probed {now : JsNumber} {verdict : ProbeVerdict} {reason : Option String} :
    Marks (probed now verdict reason) := by
  intro entry
  unfold probed
  split_ifs <;> exact ⟨rfl, rfl⟩

theorem marks_reopened : Marks reopened := by
  intro entry
  unfold reopened
  split_ifs <;> exact ⟨rfl, rfl⟩

/-! ### Entries know their slots -/

theorem keyed_empty : Keyed .empty := by
  intro slot entry hentry
  cases hentry

theorem Keyed.congr {stash' : Stash} (h : Keyed stash)
    (hget : ∀ slot, stash'.get slot = stash.get slot) : Keyed stash' := by
  intro slot entry hentry
  rw [hget] at hentry
  exact h slot entry hentry

theorem Keyed.map (h : Keyed stash) {f : String → PendingRedemption → PendingRedemption}
    (hf : ∀ slot entry, (f slot entry).escrowId = entry.escrowId) : Keyed (stash.map f) := by
  intro slot entry hentry
  rw [OrderedMap.get_map, Option.map_eq_some_iff] at hentry
  obtain ⟨before, hbefore, rfl⟩ := hentry
  exact (hf slot before).trans (h slot before hbefore)

theorem Keyed.filter (h : Keyed stash) (p : String → PendingRedemption → Bool) :
    Keyed (stash.filter p) := by
  intro slot entry hentry
  rw [OrderedMap.get_filter, Option.filter_eq_some_iff] at hentry
  exact h slot entry hentry.1

theorem Keyed.set (h : Keyed stash) (entry : PendingRedemption) :
    Keyed (stash.set entry.escrowId entry) := by
  intro slot other hother
  rw [OrderedMap.get_set] at hother
  split_ifs at hother with hslot
  · rw [hslot, ← Option.some.inj hother]
  · exact h slot other hother

theorem Keyed.inSlot (h : Keyed stash) (hg : Marks g) :
    Keyed ((StashEffect.inSlot escrowId g).apply stash) := by
  refine h.map fun slot entry => ?_
  split_ifs
  · exact (hg entry).1
  · rfl

theorem Keyed.matching (h : Keyed stash) (hg : Marks g) :
    Keyed ((StashEffect.matching oobNotes g).apply stash) := by
  refine h.map fun slot entry => ?_
  split_ifs
  · exact (hg entry).1
  · rfl

theorem keyed_run (h : Keyed (stashed s)) (call : StashCall) :
    Keyed (stashed (call.run .none s)) := by
  suffices heffect : Keyed ((call.effect (stashed s)).apply (stashed s)) from
    heffect.congr (get_run h call)
  cases call with
  | stash now input => exact h.set (restashed now input _)
  | clear escrowId => exact h.filter _
  | credit | poison | unresolved | attempt => exact h.inSlot fun _ => ⟨rfl, rfl⟩
  | resolve => exact h.inSlot marks_archived
  | reopen => exact h.inSlot marks_reopened
  | clearMatching =>
    simp only [StashCall.effect]
    split_ifs
    · exact h.congr get_nothing
    · exact h.filter _
  | probe =>
    simp only [StashCall.effect]
    split_ifs
    · exact h.congr get_nothing
    · exact h.matching marks_probed
  | dead =>
    simp only [StashCall.effect]
    split_ifs
    · exact h.congr get_nothing
    · exact h.matching fun _ => ⟨rfl, rfl⟩
  | consume now input =>
    simp only [StashCall.effect]
    split_ifs
    · exact h.congr get_nothing
    · exact h.matching fun _ => ⟨rfl, rfl⟩
    · exact h.set (freshConsumed now input.slot _ _ _)

end ChamaEscrow
