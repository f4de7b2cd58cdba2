import ChamaEscrow.Client.PendingRedemptions
import ChamaEscrow.Engine.Seats
import ChamaEscrow.Library.Program

/-!
# The drain of the pending redemptions

`drainPendingRedemptions` takes a copy of the stash and goes through it, with a call to the mint for
each entry.  Before each call it writes its own copy of the entry back, one attempt later.
Meanwhile other calls change the stash.

* `current_at_writeBack`: what the drain writes back is an entry that is still there, with the same
  notes and no other credit, as long as no other call clears, credits or displaces an entry that a
  drain is still to write back.
* `cleared_comes_back`: an entry that was cleared during the call to the mint for another is written
  back.
-/

namespace ChamaEscrow

open Js Library

/-! ### The drain -/

structure MintError where
  message : String := ""
  code : String := ""

structure DrainSummary where
  attempted : ℕ := 0
  succeeded : ℕ := 0
  stillPending : ℕ := 0
  poisoned : ℕ := 0
  unresolved : ℕ := 0

inductive DrainOp
  | loadStash
  | writeBack (entry : PendingRedemption)
  | redeemWithRetry (oobNotes : String)
  | markPendingRedemptionCredited (escrowId : String)
  | onCredited (entry : PendingRedemption)
  | markUnresolvedCredit (escrowId reason : String)
  | markPoisoned (escrowId reason : String)

abbrev DrainOp.Reply : DrainOp → Type
  | loadStash => Stash
  | redeemWithRetry _ | onCredited _ => Except MintError Unit
  | _ => Unit

abbrev drainSignature : Signature := ⟨DrainOp, DrainOp.Reply⟩

abbrev DrainProg := Prog drainSignature

def drainCall (op : DrainOp) : DrainProg op.Reply := Prog.invoke (S := drainSignature) op

def passOver (entry : PendingRedemption) (summary : DrainSummary) : Option DrainSummary :=
  if entry.escrowId = legacyManualEcashExportId then some summary
  else if isSet entry.creditedAt then some summary
  else if entry.probeVerdict = some .dead ∨ entry.probeVerdict = some .consumedUncredited then
    some { summary with unresolved := summary.unresolved + 1 }
  else if entry.lastError.any (· ≠ "") && isSet entry.poisonedAt then
    if entry.unresolvedCredit then some { summary with unresolved := summary.unresolved + 1 }
    else some { summary with poisoned := summary.poisoned + 1 }
  else if maxDrainAttempts ≤ entry.attempts then
    some { summary with stillPending := summary.stillPending + 1 }
  else none

def unresolvedCodes : List String :=
  ["ALREADY_SPENT_UNCONFIRMED", "MINT_REISSUE_FAILED", "MINT_REISSUE_UNKNOWN"]

/-- The words of an error that no retry can heal. -/
def hardFailures : List String :=
  ["malformed", "invalid federation", "not joined", "parse error", "invalid note format",
    "mint reissue operation failed", "mint notes were consumed"]

/-- The redemption of an entry, and what follows its credit.  The hook runs within the `try`, so
what it throws counts as an error of the redemption. -/
def redeemEntry (entry : PendingRedemption) : DrainProg (Except MintError Unit) := do
  match ← drainCall (.redeemWithRetry entry.oobNotes) with
  | .error e => return .error e
  | .ok () =>
    drainCall (.markPendingRedemptionCredited entry.escrowId)
    drainCall (.onCredited entry)

def redeemThrew (entry : PendingRedemption) (e : MintError) (summary : DrainSummary) :
    DrainProg DrainSummary := do
  if e.code ∈ unresolvedCodes then
    drainCall (.markUnresolvedCredit entry.escrowId e.message)
    return { summary with unresolved := summary.unresolved + 1 }
  else if hardFailures.any (includes e.message.toLower) then
    drainCall (.markPoisoned entry.escrowId e.message)
    return { summary with poisoned := summary.poisoned + 1 }
  else return { summary with stillPending := summary.stillPending + 1 }

def drainEntry (copy : PendingRedemption) (summary : DrainSummary) : DrainProg DrainSummary := do
  match passOver copy summary with
  | some summary => return summary
  | none =>
    let summary := { summary with attempted := summary.attempted + 1 }
    let entry := attempted copy
    drainCall (.writeBack entry)
    match ← redeemEntry entry with
    | .ok () => return { summary with succeeded := summary.succeeded + 1 }
    | .error e => redeemThrew entry e summary

def drainEntries : List PendingRedemption → DrainSummary → DrainProg DrainSummary
  | [], summary => return summary
  | entry :: rest, summary => do
    let summary ← drainEntry entry summary
    drainEntries rest summary

def drainPendingRedemptions : DrainProg DrainSummary := do
  let stash ← drainCall .loadStash
  drainEntries stash.values {}

/-! ### What the calls do -/

inductive DrainChoice
  | storage (faults : Faults) (now : JsNumber)
  | returns
  | throws (e : MintError)
  | calls (call : StashCall) (faults : Faults)

def performDrain : (op : DrainOp) → Stored Stash → DrainChoice → Option (op.Reply × Stored Stash)
  | .loadStash, s, .storage f _ => some (loadStash f s, s)
  | .writeBack entry, s, .storage f _ => some ((), writeBack f entry s)
  | .redeemWithRetry _, s, .returns => some (.ok (), s)
  | .redeemWithRetry _, s, .throws e => some (.error e, s)
  | .onCredited _, s, .returns => some (.ok (), s)
  | .onCredited _, s, .throws e => some (.error e, s)
  | .markPendingRedemptionCredited escrowId, s, .storage f now =>
    some ((), markPendingRedemptionCredited f now escrowId s)
  | .markUnresolvedCredit escrowId reason, s, .storage f now =>
    some ((), markUnresolvedCredit f now escrowId reason s)
  | .markPoisoned escrowId reason, s, .storage f now =>
    some ((), markPoisoned f now escrowId reason s)
  | _, _, _ => none

/-- The calls of others. -/
def drainDrift (s : Stored Stash) : DrainChoice → Option (Stored Stash)
  | .calls call f => some (call.run f s)
  | _ => none

abbrev drainPlatform : Platform where
  Op := DrainOp
  Reply := DrainOp.Reply
  World := Stored Stash
  Choice := DrainChoice
  perform := performDrain
  drift := drainDrift

def drain (_ : Unit) : Prog drainPlatform.toSignature DrainSummary := drainPendingRedemptions

/-! ### Copies that are current -/

def Current (copy : PendingRedemption) (s : Stored Stash) : Prop :=
  ∃ entry, (stashed s).get copy.escrowId = some entry ∧ entry.oobNotes = copy.oobNotes ∧
    entry.creditedAt = copy.creditedAt

def Displaces (call : StashCall) (entries : Stash) (slot : String) : Prop :=
  match call with
  | .stash _ input => input.escrowId = slot ∧
    ∃ entry, entries.get slot = some entry ∧ entry.oobNotes ≠ input.oobNotes
  | .clear escrowId => escrowId = slot
  | .credit _ escrowId => escrowId = slot
  | .clearMatching oobNotes => oobNotes ≠ "" ∧
    ∃ entry, entries.get slot = some entry ∧ entry.oobNotes = oobNotes
  | .consume _ input => input.oobNotes ≠ "" ∧ input.slot = slot ∧
    (entries.any fun _ entry => entry.oobNotes = input.oobNotes) = false
  | _ => False

variable {s s' : Stored Stash} {stash : Stash} {copy other : PendingRedemption}

def Kept (slot : String) (stash stash' : Stash) : Prop :=
  ∀ entry, stash.get slot = some entry → ∃ entry', stash'.get slot = some entry' ∧
    entry'.oobNotes = entry.oobNotes ∧ entry'.creditedAt = entry.creditedAt

theorem Kept.of_get {slot : String} {stash' : Stash} (h : stash'.get slot = stash.get slot) :
    Kept slot stash stash' :=
  fun entry hentry => ⟨entry, h.trans hentry, rfl, rfl⟩

theorem kept_map {slot : String} {f : String → PendingRedemption → PendingRedemption}
    (hnotes : ∀ entry, (f slot entry).oobNotes = entry.oobNotes)
    (hcredit : ∀ entry, (f slot entry).creditedAt = entry.creditedAt) :
    Kept slot stash ((StashEffect.map f).apply stash) := by
  intro entry hentry
  refine ⟨f slot entry, ?_, hnotes entry, hcredit entry⟩
  change (stash.map f).get slot = _
  rw [OrderedMap.get_map, hentry, Option.map_some]

section Marks

variable {slot : String} {g : PendingRedemption → Option PendingRedemption}

theorem kept_inSlot {escrowId : String} (hg : Marks g)
    (hcredit : ∀ entry, ((g entry).getD entry).creditedAt = entry.creditedAt) :
    Kept slot stash ((StashEffect.inSlot escrowId g).apply stash) := by
  refine kept_map (fun entry => ?_) fun entry => ?_
  · split_ifs
    · exact (hg entry).2
    · rfl
  · split_ifs
    · exact hcredit entry
    · rfl

theorem kept_matching {oobNotes : String} (hg : Marks g)
    (hcredit : ∀ entry, ((g entry).getD entry).creditedAt = entry.creditedAt) :
    Kept slot stash ((StashEffect.matching oobNotes g).apply stash) := by
  refine kept_map (fun entry => ?_) fun entry => ?_
  · split_ifs
    · exact (hg entry).2
    · rfl
  · split_ifs
    · exact hcredit entry
    · rfl

end Marks

theorem archived_creditedAt {now : JsNumber} {resolution : Resolution} (entry : PendingRedemption) :
    ((archived now resolution entry).getD entry).creditedAt = entry.creditedAt := by
  unfold archived
  split_ifs <;> rfl

theorem probed_creditedAt {now : JsNumber} {verdict : ProbeVerdict} {reason : Option String}
    (entry : PendingRedemption) :
    ((probed now verdict reason entry).getD entry).creditedAt = entry.creditedAt := by
  unfold probed
  split_ifs <;> rfl

theorem reopened_creditedAt (entry : PendingRedemption) :
    ((reopened entry).getD entry).creditedAt = entry.creditedAt := by
  unfold reopened
  split_ifs <;> rfl

theorem kept_effect {slot : String} {call : StashCall} (hspares : ¬ Displaces call stash slot) :
    Kept slot stash ((call.effect stash).apply stash) := by
  cases call with
  | stash now input =>
    intro entry hentry
    change ∃ entry', (stash.set input.escrowId _).get slot = some entry' ∧ _
    rw [OrderedMap.get_set]
    by_cases hslot : input.escrowId = slot
    · subst hslot
      have hnotes : entry.oobNotes = input.oobNotes := by
        by_contra hother
        exact hspares ⟨rfl, entry, hentry, hother⟩
      rw [if_pos rfl, hentry]
      exact ⟨_, rfl, hnotes.symm, rfl⟩
    · rw [if_neg (Ne.symm hslot)]
      exact ⟨entry, hentry, rfl, rfl⟩
  | clear escrowId =>
    refine Kept.of_get ?_
    change (stash.filter _).get slot = _
    rw [OrderedMap.get_filter]
    cases stash.get slot <;> simp [Option.filter, Ne.symm hspares]
  | credit now escrowId =>
    refine kept_map (fun entry => ?_) fun entry => ?_
    · rw [if_neg (Ne.symm hspares)]
    · rw [if_neg (Ne.symm hspares)]
  | poison | unresolved | attempt => exact kept_inSlot (fun _ => ⟨rfl, rfl⟩) fun _ => rfl
  | resolve => exact kept_inSlot marks_archived archived_creditedAt
  | reopen => exact kept_inSlot marks_reopened reopened_creditedAt
  | clearMatching oobNotes =>
    simp only [StashCall.effect]
    split_ifs with hempty
    · exact Kept.of_get (get_nothing slot)
    · intro entry hentry
      have hother : entry.oobNotes ≠ oobNotes := fun hnotes =>
          hspares ⟨hempty, entry, hentry, hnotes⟩
      refine ⟨entry, ?_, rfl, rfl⟩
      change (stash.filter _).get slot = _
      rw [OrderedMap.get_filter, hentry]
      simp [Option.filter, hother]
  | probe =>
    simp only [StashCall.effect]
    split_ifs
    · exact Kept.of_get (get_nothing slot)
    · exact kept_matching marks_probed probed_creditedAt
  | dead =>
    simp only [StashCall.effect]
    split_ifs
    · exact Kept.of_get (get_nothing slot)
    · exact kept_matching (fun _ => ⟨rfl, rfl⟩) fun _ => rfl
  | consume now input =>
    simp only [StashCall.effect]
    split_ifs with hempty hany
    · exact Kept.of_get (get_nothing slot)
    · exact kept_matching (fun _ => ⟨rfl, rfl⟩) fun _ => rfl
    · refine Kept.of_get ?_
      change (stash.set input.slot _).get slot = _
      rw [OrderedMap.get_set, if_neg]
      rintro rfl
      exact hspares ⟨hempty, rfl, Bool.eq_false_iff.mpr hany⟩

theorem Current.run (hkeyed : Keyed (stashed s)) {call : StashCall}
    (hspares : ¬ Displaces call (stashed s) copy.escrowId) (h : Current copy s) :
    Current copy (call.run .none s) := by
  obtain ⟨entry, hentry, hnotes, hcredit⟩ := h
  obtain ⟨entry', hentry', hnotes', hcredit'⟩ := kept_effect hspares entry hentry
  exact ⟨entry', (get_run hkeyed call copy.escrowId).trans hentry', hnotes'.trans hnotes,
    hcredit'.trans hcredit⟩

theorem Current.writeBack (h : Current other s) (hcopy : Current copy s) :
    Current copy (writeBack .none other s) := by
  obtain ⟨entry, hentry, hnotes, hcredit⟩ := hcopy
  change ∃ entry', ((stashed s).set other.escrowId other).get copy.escrowId = some entry' ∧ _
  rw [OrderedMap.get_set]
  by_cases hslot : copy.escrowId = other.escrowId
  · obtain ⟨entry', hentry', hnotes', hcredit'⟩ := h
    rw [hslot, hentry'] at hentry
    obtain rfl := Option.some.inj hentry
    rw [if_pos hslot]
    exact ⟨other, rfl, hnotes'.symm.trans hnotes, hcredit'.symm.trans hcredit⟩
  · rw [if_neg hslot]
    exact ⟨entry, hentry, hnotes, hcredit⟩

/-! ### What a drain is still to write back -/

/-- The write of a copy that satisfies `E`. -/
def Writes (E : PendingRedemption → Prop) : DrainOp → Prop
  | .writeBack entry => E entry
  | _ => False

/-- The reading of the stash. -/
def Loads : DrainOp → Prop
  | .loadStash => True
  | _ => False

/-- A drain that writes back no copy that satisfies `E`, unless it reads the stash again first. -/
def Leaves {α : Type} (E : PendingRedemption → Prop) (p : DrainProg α) : Prop :=
  p.Avoids (Writes E) Loads fun _ => True

def InSlot (slot : String) (entry : PendingRedemption) : Prop := entry.escrowId = slot

/-- What a drain does at each of its calls once it has its copy: it leaves a slot alone when it has
credited its entry. -/
def CreditsLastAt {α : Type} : (op : DrainOp) → (op.Reply → DrainProg α) → Prop
  | .markPendingRedemptionCredited escrowId, k => Leaves (InSlot escrowId) (k ())
  | .loadStash, _ => False
  | _, _ => True

def CreditsLast {α : Type} (p : DrainProg α) : Prop := p.Everywhere CreditsLastAt

section Programs

variable {α : Type} {E : PendingRedemption → Prop} {p : DrainProg α}
  {summary : DrainSummary} {f : DrainSummary → DrainProg α}

theorem leaves_stale (h : Leaves (fun copy => ¬ Current copy s) p) (hE : Leaves E p)
    (hkept : ∀ copy, Current copy s → ¬ E copy → Current copy s') :
    Leaves (fun copy => ¬ Current copy s') p := by
  refine Prog.Avoids.or h hE fun op hwrites => ?_
  cases op with
  | writeBack copy =>
    by_cases hcurrent : Current copy s
    · exact Or.inr (by_contra fun hspared => hwrites (hkept copy hcurrent hspared))
    · exact Or.inl hcurrent
  | _ => cases hwrites

variable {entry : PendingRedemption}

theorem leaves_redeemThrew {e : MintError}
    (hf : ∀ summary, Leaves E (f summary)) : Leaves E (redeemThrew entry e summary >>= f) := by
  unfold redeemThrew
  split_ifs
  · exact ⟨id, Or.inr fun _ => hf _⟩
  · exact ⟨id, Or.inr fun _ => hf _⟩
  · exact hf _

theorem leaves_drainEntry (hcopy : ¬ E (attempted copy)) (hf : ∀ summary, Leaves E (f summary)) :
    Leaves E (drainEntry copy summary >>= f) := by
  unfold drainEntry
  cases passOver copy summary with
  | some => exact hf _
  | none =>
    refine ⟨hcopy, Or.inr fun _ => ⟨id, Or.inr fun r => ?_⟩⟩
    cases r with
    | error e => exact leaves_redeemThrew hf
    | ok =>
      refine ⟨id, Or.inr fun _ => ⟨id, Or.inr fun r => ?_⟩⟩
      cases r with
      | ok => exact hf _
      | error e => exact leaves_redeemThrew hf

variable {entries : List PendingRedemption}

theorem leaves_drainEntries
    (h : ∀ entry ∈ entries, ¬ E (attempted entry)) : Leaves E (drainEntries entries summary) := by
  induction entries generalizing summary with
  | nil => trivial
  | cons entry rest ih =>
    refine leaves_drainEntry (h entry List.mem_cons_self) fun summary => ih fun other hother => ?_
    exact h other (List.mem_cons_of_mem _ hother)

theorem creditsLast_redeemThrew {e : MintError}
    (hf : ∀ summary, CreditsLast (f summary)) : CreditsLast
    (redeemThrew entry e summary >>= f) := by
  unfold redeemThrew
  split_ifs
  · exact ⟨trivial, fun _ => hf _⟩
  · exact ⟨trivial, fun _ => hf _⟩
  · exact hf _

theorem creditsLast_drainEntry (hf : ∀ summary, CreditsLast (f summary))
    (hleaves : ∀ summary, Leaves (InSlot copy.escrowId) (f summary)) :
    CreditsLast (drainEntry copy summary >>= f) := by
  unfold drainEntry
  cases passOver copy summary with
  | some => exact hf _
  | none =>
    refine ⟨trivial, fun _ => ⟨trivial, fun r => ?_⟩⟩
    cases r with
    | error e => exact creditsLast_redeemThrew hf
    | ok =>
      refine ⟨⟨id, Or.inr fun r => ?_⟩, fun _ => ⟨trivial, fun r => ?_⟩⟩
      · cases r with
        | ok => exact hleaves _
        | error e => exact leaves_redeemThrew hleaves
      · cases r with
        | ok => exact hf _
        | error e => exact creditsLast_redeemThrew hf

theorem creditsLast_drainEntries
    (h : (entries.map (·.escrowId)).Nodup) : CreditsLast (drainEntries entries summary) := by
  induction entries generalizing summary with
  | nil => trivial
  | cons entry rest ih =>
    rw [List.map_cons, List.nodup_cons] at h
    refine creditsLast_drainEntry (fun _ => ih h.2) fun _ =>
        leaves_drainEntries fun other hother => ?_
    intro hslot
    exact h.1 (List.mem_map.mpr ⟨other, hother, hslot⟩)

end Programs

theorem nodup_escrowIds (h : Keyed stash) : (stash.values.map (·.escrowId)).Nodup := by
  have hkeys : stash.values.map (·.escrowId) = stash.keys := by
    unfold OrderedMap.values OrderedMap.keys
    rw [List.map_map]
    refine List.map_congr_left fun e he => ?_
    exact h e.1 e.2 ((OrderedMap.get_eq_some_iff stash e.1 e.2).mpr he)
  rw [hkeys]
  exact stash.nodup

theorem current_of_mem (h : Keyed (stashed s)) (hmem : copy ∈ (stashed s).values) :
    Current (attempted copy) s := by
  obtain ⟨e, he, rfl⟩ := List.mem_map.mp hmem
  have hget := (OrderedMap.get_eq_some_iff (stashed s) e.1 e.2).mpr he
  have hslot : e.2.escrowId = e.1 := h e.1 e.2 hget
  exact ⟨e.2, (congrArg (stashed s).get hslot).trans hget, rfl, rfl⟩

/-! ### Interleavings -/

def Credits (slot : String) : DrainOp → Prop
  | .markPendingRedemptionCredited escrowId => escrowId = slot
  | _ => False

section Runs

variable {ι : Type} [DecidableEq ι] {op : DrainOp} {c : DrainChoice} {r : op.Reply}

/-- The events that count: no storage access fails, and neither a call nor the credit of a drain
displaces an entry that another drain is still to write back. -/
def Unraced (cfg : Config drainPlatform ι DrainSummary) : Event drainPlatform ι Unit → Prop
  | .step i c => (∀ f now, c = .storage f now → f = .none) ∧
    ∀ (op : DrainOp) k, cfg.slots i = some (.call op k) → ∀ j p, j ≠ i → cfg.slots j = some p →
      Leaves (fun copy => Credits copy.escrowId op) p
  | .drift (.calls call f) => f = .none ∧ ∀ i p, cfg.slots i = some p →
      Leaves (fun copy => Displaces call (stashed cfg.world) copy.escrowId) p
  | _ => True

theorem current_perform (hkeyed : Keyed (stashed s))
    (hfaultless : ∀ f now, c = .storage f now → f = .none)
    (hwrites : ∀ entry, op = .writeBack entry → Current entry s)
    (h : performDrain op s c = some (r, s')) :
    Keyed (stashed s') ∧
      ∀ copy, Current copy s → ¬ Credits copy.escrowId op → Current copy s' := by
  have hcall (call : StashCall) (hs' : s' = call.run .none s)
      (hdisplaces : ∀ slot, Displaces call (stashed s) slot → Credits slot op) :
      Keyed (stashed s') ∧
        ∀ copy, Current copy s → ¬ Credits copy.escrowId op → Current copy s' := by
    subst hs'
    exact ⟨keyed_run hkeyed call, fun copy hcopy hcredits =>
      hcopy.run hkeyed fun hdisplaced => hcredits (hdisplaces _ hdisplaced)⟩
  cases op with
  | loadStash =>
    cases c with
    | storage f now =>
      obtain ⟨-, rfl⟩ := Prod.mk.inj (Option.some.inj h)
      exact ⟨hkeyed, fun copy hcopy _ => hcopy⟩
    | _ => cases h
  | redeemWithRetry | onCredited =>
    cases c with
    | returns | throws =>
      obtain ⟨-, rfl⟩ := Prod.mk.inj (Option.some.inj h)
      exact ⟨hkeyed, fun copy hcopy _ => hcopy⟩
    | _ => cases h
  | writeBack entry =>
    cases c with
    | storage f now =>
      obtain rfl := hfaultless f now rfl
      obtain ⟨-, rfl⟩ := Prod.mk.inj (Option.some.inj h)
      exact ⟨hkeyed.set entry, fun copy hcopy _ => (hwrites entry rfl).writeBack hcopy⟩
    | _ => cases h
  | markPendingRedemptionCredited escrowId =>
    cases c with
    | storage f now =>
      obtain rfl := hfaultless f now rfl
      obtain ⟨-, rfl⟩ := Prod.mk.inj (Option.some.inj h)
      exact hcall (.credit now escrowId) rfl fun slot hslot => hslot
    | _ => cases h
  | markUnresolvedCredit escrowId reason =>
    cases c with
    | storage f now =>
      obtain rfl := hfaultless f now rfl
      obtain ⟨-, rfl⟩ := Prod.mk.inj (Option.some.inj h)
      exact hcall (.unresolved now escrowId reason) rfl fun slot hslot => hslot
    | _ => cases h
  | markPoisoned escrowId reason =>
    cases c with
    | storage f now =>
      obtain rfl := hfaultless f now rfl
      obtain ⟨-, rfl⟩ := Prod.mk.inj (Option.some.inj h)
      exact hcall (.poison now escrowId reason) rfl fun slot hslot => hslot
    | _ => cases h

/-- What holds of a pending drain: it has not begun, or what it is still to write back is
current. -/
def UpToDate (p : DrainProg DrainSummary) (s : Stored Stash) : Prop :=
  p = drainPendingRedemptions ∨ (Leaves (fun copy => ¬ Current copy s) p ∧ CreditsLast p)

theorem UpToDate.current {copy : PendingRedemption} {k : Unit → DrainProg DrainSummary}
    (h : UpToDate (.call (.writeBack copy) k) s) : Current copy s := by
  rcases h with hstart | ⟨hleaves, -⟩
  · cases hstart
  · exact not_not.mp hleaves.1

theorem UpToDate.own {k : op.Reply → DrainProg DrainSummary} (hup : UpToDate (.call op k) s)
    (hkeyed : Keyed (stashed s)) (hfaultless : ∀ f now, c = .storage f now → f = .none)
    (h : performDrain op s c = some (r, s')) : UpToDate (k r) s' := by
  rcases hup with hstart | ⟨hleaves, hlast⟩
  · -- The drain takes its copy.
    obtain ⟨rfl, hk⟩ := Prog.call.inj hstart
    obtain rfl := eq_of_heq hk
    right
    cases c with
    | storage f now =>
      obtain rfl := hfaultless f now rfl
      obtain ⟨rfl, rfl⟩ := Prod.mk.inj (Option.some.inj h)
      refine ⟨leaves_drainEntries fun entry hentry => ?_,
        creditsLast_drainEntries (nodup_escrowIds hkeyed)⟩
      exact not_not_intro (current_of_mem hkeyed hentry)
    | _ => cases h
  · right
    have hwrites : ∀ entry, op = .writeBack entry → Current entry s := by
      rintro entry rfl
      exact not_not.mp hleaves.1
    have hrest : ∀ r, Leaves (fun copy => ¬ Current copy s) (k r) := by
      refine hleaves.2.resolve_left fun hloads => ?_
      cases op with
      | loadStash => exact hlast.1
      | _ => cases hloads
    refine ⟨leaves_stale (hrest r) ?_ (current_perform hkeyed hfaultless hwrites h).2, hlast.2 r⟩
    cases op with
    | markPendingRedemptionCredited escrowId =>
      refine Prog.Avoids.or hlast.1 hlast.1 fun op hwrites => Or.inl ?_
      cases op with
      | writeBack entry => exact Eq.symm hwrites
      | _ => cases hwrites
    | _ =>
      refine Prog.avoids_of_not (fun op hwrites => ?_) fun _ => trivial
      cases op with
      | writeBack entry => cases hwrites
      | _ => cases hwrites

theorem UpToDate.bystander {p : DrainProg DrainSummary} {E : PendingRedemption → Prop}
    (hup : UpToDate p s) (hE : Leaves E p)
    (hkept : ∀ copy, Current copy s → ¬ E copy → Current copy s') : UpToDate p s' :=
  hup.imp_right fun ⟨hleaves, hlast⟩ => ⟨leaves_stale hleaves hE hkept, hlast⟩

/-- What a drain writes back is an entry that is still there, with the same notes and no other
credit, in every interleaving of drains and calls in which none displaces an entry that another
drain is still to write back. -/
theorem current_at_writeBack {cfg : Config drainPlatform ι DrainSummary}
    (h : Run (Config.exec drain) (Idle fun s => Keyed (stashed s)) Unraced cfg) {i : ι}
    {copy : PendingRedemption} {k : Unit → DrainProg DrainSummary}
    (hwrites : cfg.slots i = some (.call (.writeBack copy) k)) : Current copy cfg.world := by
  refine UpToDate.current (k := k) ?_
  refine (slots_invariant (J := fun s => Keyed (stashed s)) (K := UpToDate) ?_ ?_ ?_ ?_ h).2 i _
    hwrites
  · rintro cfg ⟨s, hs, rfl⟩
    exact ⟨hs, fun i p hp => by cases hp⟩
  · exact fun s _ _ => Or.inl rfl
  · intro cfg i c op k r s' hunraced hp hkeyed hup hperform
    obtain ⟨hfaultless, hothers⟩ := hunraced
    have hcurrent : ∀ entry, op = .writeBack entry → Current entry cfg.world := by
      rintro entry rfl
      exact hup.current
    obtain ⟨hkeyed', hkept⟩ := current_perform hkeyed hfaultless hcurrent hperform
    refine ⟨hkeyed', hup.own hkeyed hfaultless hperform, fun j p hj hp' hother => ?_⟩
    exact hother.bystander (hothers op k hp j p hj hp') hkept
  · intro cfg c s' hunraced hkeyed hdrift
    cases c with
    | calls call f =>
      obtain ⟨rfl, hspared⟩ := hunraced
      obtain rfl := Option.some.inj hdrift
      refine ⟨keyed_run hkeyed call, fun i p hp hup => hup.bystander (hspared i p hp) ?_⟩
      exact fun copy hcopy hspares => hcopy.run hkeyed hspares
    | _ => cases hdrift

end Runs

/-! ### Sample drains -/

def writing : Option (Prog drainPlatform.toSignature DrainSummary) → Option PendingRedemption
  | some (.call (.writeBack copy) _) => some copy
  | _ => none

theorem writing_eq_some {slot : Option (Prog drainPlatform.toSignature DrainSummary)}
    (h : writing slot = some copy) : ∃ k, slot = some (.call (.writeBack copy) k) := by
  unfold writing at h
  split at h
  · rename_i copy' k
    obtain rfl := Option.some.inj h
    exact ⟨k, rfl⟩
  · cases h

def sampleCall (call : StashCall) : Event drainPlatform Unit Unit := .drift (.calls call .none)

def sampleNotes (escrowId oobNotes : String) : Event drainPlatform Unit Unit :=
  sampleCall (.stash 0 { escrowId, oobNotes, notesHash := "h", amountMsats := 1000 })

def sampleAccess : Event drainPlatform Unit Unit := .step () (.storage .none 0)

def sampleDrain (meanwhile : StashCall) : List (Event drainPlatform Unit Unit) :=
  [sampleNotes "e" "a", sampleNotes "f" "b", .start () (), sampleAccess, sampleAccess,
    sampleCall meanwhile, .step () .returns, sampleAccess, .step () .returns]

/-- Whether an event counts, for certain: the calls of others come before the drain, or are
probes. -/
def racesNothing (cfg : Config drainPlatform Unit DrainSummary) :
    Event drainPlatform Unit Unit → Bool
  | .step _ (.storage f _) => f = .none
  | .drift (.calls (.probe _ _ _ _) f) => f = .none
  | .drift (.calls _ f) => f = .none && (cfg.slots ()).isNone
  | _ => true

theorem unraced_of_racesNothing (cfg : Config drainPlatform Unit DrainSummary)
    (e : Event drainPlatform Unit Unit) (he : racesNothing cfg e = true) : Unraced cfg e := by
  cases e with
  | start => trivial
  | stop => trivial
  | step i c =>
    refine ⟨fun f now hc => ?_, fun op k _ j p hj => absurd (Subsingleton.elim j i) hj⟩
    subst hc
    exact of_decide_eq_true he
  | drift c =>
    cases c with
    | calls call f =>
      cases call with
      | probe =>
        refine ⟨of_decide_eq_true he, fun i p _ => Prog.avoids_of_not (fun op hwrites => ?_) ?_⟩
        · cases op with
          | writeBack => exact hwrites
          | _ => exact hwrites
        · exact fun _ => trivial
      | _ =>
        obtain ⟨hf, hnone⟩ := Bool.and_eq_true_iff.mp he
        refine ⟨of_decide_eq_true hf, fun i p hp => ?_⟩
        rw [hp] at hnone
        cases hnone
    | _ => trivial

/-- The second entry of a drain, which was probed in the meantime, is still there. -/
theorem current_at_writeBack_second : ∃ cfg : Config drainPlatform Unit DrainSummary, ∃ copy k,
    cfg.slots () = some (.call (.writeBack copy) k) ∧ copy.oobNotes = "b" ∧
      Current copy cfg.world := by
  have hrun : ∃ cfg, Run (Config.exec drain) (Idle fun s => Keyed (stashed s)) Unraced cfg ∧
      (writing (cfg.slots ())).any (fun copy => copy.oobNotes = "b") = true :=
    Run.exists_of_checked ⟨.missing, keyed_empty, rfl⟩ racesNothing unraced_of_racesNothing
      (sampleDrain (.probe 0 "b" .unknown none)) (by decide +kernel)
  obtain ⟨cfg, hrun, htest⟩ := hrun
  obtain ⟨copy, hcopy, hnotes⟩ := (Option.any_eq_true _ _).mp htest
  obtain ⟨k, hwrites⟩ := writing_eq_some hcopy
  exact ⟨cfg, copy, k, hwrites, of_decide_eq_true hnotes, current_at_writeBack hrun hwrites⟩

/-- An entry that is cleared while the first is redeemed is written back when its turn comes. -/
theorem cleared_comes_back : ∃ cfg : Config drainPlatform Unit DrainSummary,
    Run (Config.exec drain) (Idle fun s => Keyed (stashed s)) (fun _ _ => True) cfg ∧
      ∃ copy k, cfg.slots () = some (.call (.writeBack copy) k) ∧
        (stashed cfg.world).get copy.escrowId = none ∧
        (stashed (writeBack .none copy cfg.world)).get copy.escrowId = some copy := by
  have hrun : ∃ cfg, Run (Config.exec drain) (Idle fun s => Keyed (stashed s))
      (fun _ _ => True) cfg ∧
      (writing (cfg.slots ())).any
        (fun copy => ((stashed cfg.world).get copy.escrowId).isNone) = true :=
    Run.exists_of_checked ⟨.missing, keyed_empty, rfl⟩ (fun _ _ => true) (fun _ _ _ => trivial)
      (sampleDrain (.clear "f")) (by decide +kernel)
  obtain ⟨cfg, hrun, htest⟩ := hrun
  obtain ⟨copy, hcopy, hnone⟩ := (Option.any_eq_true _ _).mp htest
  obtain ⟨k, hwrites⟩ := writing_eq_some hcopy
  refine ⟨cfg, hrun, copy, k, hwrites, Option.isNone_iff_eq_none.mp hnone, ?_⟩
  change ((stashed cfg.world).set copy.escrowId copy).get copy.escrowId = some copy
  rw [OrderedMap.get_set, if_pos rfl]

end ChamaEscrow
