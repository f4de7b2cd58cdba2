import ChamaEscrow.Client.Storage
import ChamaEscrow.Engine.State
import ChamaEscrow.Js.Objects
import Mathlib.Data.List.Induction
import Mathlib.Data.List.Infix

/-!
# The outbox of arbiter premiums

The payer's records in `arbiters/arbiter-earnings.ts`, one for each trade on which a premium was
sent, paid or declined, and the guard of `arbiters/arbiter-premium.ts` that offers no trade with a
record.  A record is written before the money moves, so that no crash leads to a second payment.

What the outbox is for is the ledger: the trades on record, whatever storage does.  The stored
outbox follows the ledger as long as no access fails and five hundred trades are enough
(`premium_outbox_remembers`); with more of them on record, some trade is always forgotten.
-/

namespace ChamaEscrow

open Js Library

/-! ### The store -/

def premiumOutboxMax : ℕ := 500

inductive PremiumOutboxStatus
  | sending
  | paid
  | declined
  deriving DecidableEq

structure PremiumOutboxRecord where
  escrowId : String
  amountMsats : JsNumber
  status : PremiumOutboxStatus
  operationId : Option String := none
  updatedAt : ℤ

abbrev Outbox := OrderedMap String PremiumOutboxRecord

def inheritedNames : List String :=
  ["__proto__", "constructor", "hasOwnProperty", "isPrototypeOf", "propertyIsEnumerable",
    "toLocaleString", "toString", "valueOf", "__defineGetter__", "__defineSetter__",
    "__lookupGetter__", "__lookupSetter__"]

/-- What an object has under a name. -/
inductive OutboxProperty
  | absent
  | inherited
  | own (record : PremiumOutboxRecord)

/-- `store[escrowId]`. -/
def Outbox.property (store : Outbox) (escrowId : String) : OutboxProperty :=
  match store.get escrowId with
  | some record => .own record
  | none => if escrowId ∈ inheritedNames then .inherited else .absent

/-- `store[escrowId] = record`: one name stands for the prototype and makes no entry. -/
def Outbox.assign (store : Outbox) (escrowId : String) (record : PremiumOutboxRecord) : Outbox :=
  if escrowId = "__proto__" then store else store.set escrowId record

/-- `loadStore`: what cannot be read is empty. -/
def loadOutbox (f : Faults) (s : Stored Outbox) : Outbox :=
  match s.readItem f with
  | .value store => store
  | .missing | .garbled => .empty

/-- `saveStore`: the oldest records beyond the bound are deleted, and a write that fails is only
reported to the console. -/
def saveOutbox (f : Faults) (s : Stored Outbox) (store : Outbox) : Stored Outbox :=
  (s.writeItem f (evictOldest PremiumOutboxRecord.updatedAt premiumOutboxMax store)).2

/-- `hasPremiumOutboxRecord`: anything under the id counts. -/
def hasPremiumOutboxRecord (f : Faults) (s : Stored Outbox) (escrowId : String) : Bool :=
  match (loadOutbox f s).property escrowId with
  | .absent => false
  | .inherited | .own _ => true

/-! ### Its writers -/

inductive OutboxCall
  | recordPremiumSending (escrowId : String) (amountMsats : JsNumber)
  | recordPremiumPaid (escrowId : String) (amountMsats : JsNumber) (operationId : Option String)
  | setPremiumDeclined (escrowId : String) (declined : Bool)
  | clearPremiumSending (escrowId : String)

def OutboxCall.change (call : OutboxCall) (now : ℤ) (store : Outbox) : Option Outbox :=
  match call with
  | recordPremiumSending escrowId amountMsats =>
    some (store.assign escrowId { escrowId, amountMsats, status := .sending, updatedAt := now })
  | recordPremiumPaid escrowId amountMsats operationId =>
    some (store.assign escrowId
      { escrowId, amountMsats, status := .paid, operationId, updatedAt := now })
  | setPremiumDeclined escrowId true =>
    match store.property escrowId with
    | .absent => some (store.assign escrowId
        { escrowId, amountMsats := 0, status := .declined, updatedAt := now })
    -- A value that is not a record has no status, so it is no declined one.
    | .inherited => none
    | .own prev =>
      -- Paid and sending records are never overwritten.
      if prev.status ≠ .declined then none
      else some (store.assign escrowId
        { escrowId, amountMsats := prev.amountMsats, status := .declined, updatedAt := now })
  | setPremiumDeclined escrowId false =>
    match store.property escrowId with
    | .absent | .inherited => none
    | .own prev => if prev.status ≠ .declined then none else some (store.erase escrowId)
  | clearPremiumSending escrowId =>
    match store.property escrowId with
    | .absent | .inherited => none
    | .own prev => if prev.status = .sending then some (store.erase escrowId) else none

/-- A call, with the time it is made and the faults of its accesses. -/
structure OutboxStep where
  call : OutboxCall
  now : ℤ
  faults : Faults := .none

def OutboxStep.run (s : Stored Outbox) (step : OutboxStep) : Stored Outbox :=
  match step.call.change step.now (loadOutbox step.faults s) with
  | none => s
  | some store => saveOutbox step.faults s store

def outboxAfter (steps : List OutboxStep) : Stored Outbox := steps.foldl OutboxStep.run .missing

/-! ### The guard -/

def samePubkey (a b : Option String) : Bool :=
  a.any fun a => b.any fun b => a ≠ "" && b ≠ "" && toLowerCase a = toLowerCase b

def hasOwnPremiumNote (state : EscrowState) (myPubkey : Option String) : Bool :=
  state.premiumNotes.any fun ev => samePubkey (some ev.raw.pubkey) myPubkey

/-- `selectPremiumPayTargets`, for any rule that decides what a trade owes. -/
def selectPremiumPayTargets (payable : EscrowState → Bool) (escrows : List EscrowState)
    (myPubkey : Option String) (hasOutboxRecord : String → Bool) : List String :=
  (escrows.filter fun state =>
    state.status = .completed && !hasOutboxRecord state.id && !hasOwnPremiumNote state myPubkey
      && payable state).map fun state => state.id

/-! ### The ledger -/

/-- The trades on record, with the status that was last recorded. -/
abbrev Ledger := OrderedMap String PremiumOutboxStatus

/-- What a call puts on record or clears: a decline is cleared by taking it back, an intent by the
failure of its payment, and nothing clears a payment. -/
def Ledger.after (ledger : Ledger) (call : OutboxCall) : Ledger :=
  match call with
  | .recordPremiumSending escrowId _ => ledger.set escrowId .sending
  | .recordPremiumPaid escrowId _ _ => ledger.set escrowId .paid
  | .setPremiumDeclined escrowId true =>
    if ledger.get escrowId = none then ledger.set escrowId .declined else ledger
  | .setPremiumDeclined escrowId false =>
    if ledger.get escrowId = some .declined then ledger.erase escrowId else ledger
  | .clearPremiumSending escrowId =>
    if ledger.get escrowId = some .sending then ledger.erase escrowId else ledger

def ledgerAfter (steps : List OutboxStep) : Ledger :=
  steps.foldl (fun ledger step => ledger.after step.call) .empty

/-- A run in which storage never fails and never has to hold more than it may. -/
structure OutboxKept (steps : List OutboxStep) : Prop where
  reads : ∀ step ∈ steps, step.faults.read = false
  writes : ∀ step ∈ steps, step.faults.write ≠ some .lost
  room : ∀ steps', steps' <+: steps → (ledgerAfter steps').entries.length ≤ premiumOutboxMax

/-! ### The outbox follows the ledger -/

structure Outbox.Follows (store : Outbox) (ledger : Ledger) : Prop where
  noProto : store.get "__proto__" = none
  sound : ∀ escrowId record, store.get escrowId = some record →
    ledger.get escrowId = some record.status
  complete : ∀ escrowId status, escrowId ∉ inheritedNames → ledger.get escrowId = some status →
    ∃ record, store.get escrowId = some record ∧ record.status = status

theorem proto_inherited : "__proto__" ∈ inheritedNames := List.mem_cons_self

theorem get_assign (store : Outbox) (escrowId slot : String) (record : PremiumOutboxRecord) :
    (store.assign escrowId record).get slot =
      if slot = escrowId ∧ escrowId ≠ "__proto__" then some record else store.get slot := by
  unfold Outbox.assign
  by_cases hproto : escrowId = "__proto__"
  · rw [if_pos hproto, if_neg fun h => h.2 hproto]
  · rw [if_neg hproto, OrderedMap.get_set]
    by_cases hslot : slot = escrowId
    · rw [if_pos hslot, if_pos ⟨hslot, hproto⟩]
    · rw [if_neg hslot, if_neg fun h => hslot h.1]

variable {escrowId : String}

section Steps

variable {store : Outbox} {ledger : Ledger}

theorem noProto_assign (h : store.get "__proto__" = none) (escrowId : String)
    (record : PremiumOutboxRecord) : (store.assign escrowId record).get "__proto__" = none := by
  rw [get_assign, if_neg, h]
  rintro ⟨heq, hproto⟩
  exact hproto heq.symm

theorem follows_assign (h : store.Follows ledger)
    {record : PremiumOutboxRecord} {status : PremiumOutboxStatus}
    (hstatus : record.status = status) :
    (store.assign escrowId record).Follows (ledger.set escrowId status) := by
  refine ⟨noProto_assign h.noProto _ _, ?_, ?_⟩
  · intro slot live hget
    rw [get_assign] at hget
    rw [OrderedMap.get_set]
    by_cases hslot : slot = escrowId
    · rw [if_pos hslot]
      split_ifs at hget with hboth
      · rw [← Option.some.inj hget, hstatus]
      · -- Nothing is stored under the name of the prototype.
        have hproto : escrowId = "__proto__" := not_not.mp fun hne => hboth ⟨hslot, hne⟩
        rw [hslot, hproto, h.noProto] at hget
        cases hget
    · rw [if_neg hslot]
      rw [if_neg fun hboth => hslot hboth.1] at hget
      exact h.sound slot live hget
  · intro slot status' hslot hget
    rw [OrderedMap.get_set] at hget
    rw [get_assign]
    by_cases heq : slot = escrowId
    · rw [if_pos heq] at hget
      have hproto : escrowId ≠ "__proto__" := fun hproto => hslot (heq ▸ hproto ▸ proto_inherited)
      rw [if_pos ⟨heq, hproto⟩]
      exact ⟨record, rfl, hstatus.trans (Option.some.inj hget)⟩
    · rw [if_neg heq] at hget
      rw [if_neg fun hboth => heq hboth.1]
      exact h.complete slot status' hslot hget

theorem follows_erase (h : store.Follows ledger) (escrowId : String) :
    Outbox.Follows (store.erase escrowId) (ledger.erase escrowId) := by
  refine ⟨?_, ?_, ?_⟩
  · rw [OrderedMap.get_erase, h.noProto, ite_self]
  · intro slot live hget
    rw [OrderedMap.get_erase] at hget ⊢
    split_ifs at hget with hslot
    rw [if_neg hslot]
    exact h.sound slot live hget
  · intro slot status hslot hget
    rw [OrderedMap.get_erase] at hget ⊢
    split_ifs at hget with heq
    rw [if_neg heq]
    exact h.complete slot status hslot hget

theorem follows_reassign (h : store.Follows ledger)
    {prev record : PremiumOutboxRecord} (hprev : store.get escrowId = some prev)
    (hstatus : record.status = prev.status) : (store.assign escrowId record).Follows ledger := by
  have hledger : ledger.get escrowId = some prev.status := h.sound escrowId prev hprev
  have hset : (store.assign escrowId record).Follows (ledger.set escrowId prev.status) :=
    follows_assign h hstatus
  have hsame : ∀ slot, (ledger.set escrowId prev.status).get slot = ledger.get slot := by
    intro slot
    rw [OrderedMap.get_set]
    split_ifs with hslot
    · rw [hslot, hledger]
    · rfl
  refine ⟨hset.noProto, ?_, ?_⟩
  · intro slot live hget
    rw [← hsame]
    exact hset.sound slot live hget
  · intro slot status hslot hget
    rw [← hsame] at hget
    exact hset.complete slot status hslot hget

theorem follows_inherited (h : store.Follows ledger)
    (hinherited : escrowId ∈ inheritedNames) (hnone : store.get escrowId = none)
    (status : PremiumOutboxStatus) : store.Follows (ledger.set escrowId status) := by
  refine ⟨h.noProto, ?_, ?_⟩
  · intro slot live hget
    rw [OrderedMap.get_set]
    split_ifs with hslot
    · rw [hslot, hnone] at hget
      cases hget
    · exact h.sound slot live hget
  · intro slot status' hslot hget
    rw [OrderedMap.get_set] at hget
    split_ifs at hget with heq
    · exact absurd (heq ▸ hinherited) hslot
    · exact h.complete slot status' hslot hget

/-- A name without an entry can be cleared. -/
theorem follows_erase_of_none (h : store.Follows ledger)
    (hnone : store.get escrowId = none) : store.Follows (ledger.erase escrowId) := by
  refine ⟨h.noProto, ?_, ?_⟩
  · intro slot live hget
    rw [OrderedMap.get_erase]
    split_ifs with hslot
    · rw [hslot, hnone] at hget
      cases hget
    · exact h.sound slot live hget
  · intro slot status hslot hget
    rw [OrderedMap.get_erase] at hget
    split_ifs at hget with heq
    exact h.complete slot status hslot hget

/-- What has no entry and no value of an object's own is not on record. -/
theorem ledger_of_absent (h : store.Follows ledger)
    (hnone : store.get escrowId = none) (hown : escrowId ∉ inheritedNames) :
    ledger.get escrowId = none := by
  cases hledger : ledger.get escrowId with
  | none => rfl
  | some status =>
    obtain ⟨record, hget, -⟩ := h.complete escrowId status hown hledger
    rw [hnone] at hget
    cases hget

theorem property_cases (store : Outbox) (escrowId : String) :
    (store.property escrowId = .absent ∧ store.get escrowId = none ∧ escrowId ∉ inheritedNames) ∨
      (store.property escrowId = .inherited ∧ store.get escrowId = none ∧
        escrowId ∈ inheritedNames) ∨
      ∃ record, store.property escrowId = .own record ∧ store.get escrowId = some record := by
  unfold Outbox.property
  cases store.get escrowId with
  | some record => exact Or.inr (Or.inr ⟨record, rfl, rfl⟩)
  | none =>
    by_cases hinherited : escrowId ∈ inheritedNames
    · exact Or.inr (Or.inl ⟨if_pos hinherited, rfl, hinherited⟩)
    · exact Or.inl ⟨if_neg hinherited, rfl, hinherited⟩

theorem follows_change (h : store.Follows ledger) (call : OutboxCall) (now : ℤ) :
    ((call.change now store).getD store).Follows (ledger.after call) := by
  cases call with
  | recordPremiumSending escrowId amountMsats => exact follows_assign h rfl
  | recordPremiumPaid escrowId amountMsats operationId => exact follows_assign h rfl
  | setPremiumDeclined escrowId declined =>
    cases declined with
    | true =>
      simp only [OutboxCall.change, Ledger.after]
      rcases property_cases store escrowId with ⟨hprop, hnone, hown⟩ | ⟨hprop, hnone, hinherited⟩ |
        ⟨prev, hprop, hprev⟩
      · rw [hprop, if_pos (ledger_of_absent h hnone hown)]
        exact follows_assign h rfl
      · rw [hprop]
        split_ifs
        · exact follows_inherited h hinherited hnone .declined
        · exact h
      · have hledger : ledger.get escrowId = some prev.status := h.sound escrowId prev hprev
        rw [hprop, if_neg (by rw [hledger]; exact Option.some_ne_none _)]
        by_cases hdeclined : prev.status = .declined
        · simp only [hdeclined, ne_eq, not_true_eq_false, if_false, Option.getD_some]
          exact follows_reassign h hprev hdeclined.symm
        · simp only [ne_eq, hdeclined, not_false_eq_true, if_true, Option.getD_none]
          exact h
    | false =>
      simp only [OutboxCall.change, Ledger.after]
      rcases property_cases store escrowId with ⟨hprop, hnone, -⟩ | ⟨hprop, hnone, -⟩ |
        ⟨prev, hprop, hprev⟩
      · rw [hprop]
        split_ifs
        · exact follows_erase_of_none h hnone
        · exact h
      · rw [hprop]
        split_ifs
        · exact follows_erase_of_none h hnone
        · exact h
      · have hledger : ledger.get escrowId = some prev.status := h.sound escrowId prev hprev
        rw [hprop, hledger]
        by_cases hdeclined : prev.status = .declined
        · simp only [hdeclined, ne_eq, not_true_eq_false, if_false, if_true, Option.getD_some]
          exact follows_erase h escrowId
        · simp only [ne_eq, hdeclined, not_false_eq_true, if_true, Option.getD_none,
            Option.some.injEq, if_false]
          exact h
  | clearPremiumSending escrowId =>
    simp only [OutboxCall.change, Ledger.after]
    rcases property_cases store escrowId with ⟨hprop, hnone, -⟩ | ⟨hprop, hnone, -⟩ |
      ⟨prev, hprop, hprev⟩
    · rw [hprop]
      split_ifs
      · exact follows_erase_of_none h hnone
      · exact h
    · rw [hprop]
      split_ifs
      · exact follows_erase_of_none h hnone
      · exact h
    · have hledger : ledger.get escrowId = some prev.status := h.sound escrowId prev hprev
      rw [hprop, hledger]
      by_cases hsending : prev.status = .sending
      · simp only [hsending, if_true, Option.getD_some]
        exact follows_erase h escrowId
      · simp only [hsending, Option.some.injEq, if_false, Option.getD_none]
        exact h

end Steps

/-! ### Runs -/

theorem length_le_of_follows {store : Outbox} {ledger : Ledger} (h : store.Follows ledger) :
    store.entries.length ≤ ledger.entries.length := by
  have hsubset : store.entries.map Prod.fst ⊆ ledger.entries.map Prod.fst := by
    intro slot hslot
    obtain ⟨e, he, rfl⟩ := List.mem_map.mp hslot
    have hget := h.sound e.1 e.2 ((OrderedMap.get_eq_some_iff _ _ _).mpr he)
    exact List.mem_map_of_mem ((OrderedMap.get_eq_some_iff _ _ _).mp hget)
  have hle := (List.subperm_of_subset store.nodup hsubset).length_le
  rwa [List.length_map, List.length_map] at hle

/-- A step whose accesses take effect, and whose records find room, keeps the outbox with the
ledger. -/
theorem follows_run {s : Stored Outbox} {ledger : Ledger} {step : OutboxStep}
    (h : (loadOutbox .none s).Follows ledger) (hread : step.faults.read = false)
    (hwrite : step.faults.write ≠ some .lost)
    (hroom : (ledger.after step.call).entries.length ≤ premiumOutboxMax) :
    (loadOutbox .none (step.run s)).Follows (ledger.after step.call) := by
  have hload : loadOutbox step.faults s = loadOutbox .none s := by
    unfold loadOutbox
    rw [readItem_ok hread]
    rfl
  have hchange := follows_change h step.call step.now
  unfold OutboxStep.run
  rw [hload]
  cases hnext : step.call.change step.now (loadOutbox .none s) with
  | none =>
    rw [hnext] at hchange
    exact hchange
  | some store =>
    rw [hnext, Option.getD_some] at hchange
    have hsaved : saveOutbox step.faults s store = .value store := by
      rw [saveOutbox, evictOldest_of_le ((length_le_of_follows hchange).trans hroom)]
      unfold Stored.writeItem
      cases hfault : step.faults.write with
      | none => rfl
      | some fault =>
        cases fault with
        | lost => exact absurd hfault hwrite
        | kept => rfl
    dsimp only
    rw [hsaved]
    exact hchange

/-- The run. -/
theorem follows_outboxAfter {steps : List OutboxStep} (h : OutboxKept steps) :
    (loadOutbox .none (outboxAfter steps)).Follows (ledgerAfter steps) := by
  induction steps using List.reverseRecOn with
  | nil =>
    refine ⟨rfl, fun slot live hget => ?_, fun slot status _ hget => ?_⟩
    · cases hget
    · cases hget
  | append_singleton steps step ih =>
    have hlast : step ∈ steps ++ [step] := List.mem_append_right _ List.mem_cons_self
    have hbefore : OutboxKept steps := by
      refine ⟨fun s hs => h.reads s (List.mem_append_left _ hs),
        fun s hs => h.writes s (List.mem_append_left _ hs), fun steps' hinit => ?_⟩
      exact h.room steps' (hinit.trans (List.prefix_append _ _))
    have hroom := h.room _ List.prefix_rfl
    unfold outboxAfter ledgerAfter at *
    rw [List.foldl_append, List.foldl_cons, List.foldl_nil] at hroom ⊢
    rw [List.foldl_append, List.foldl_cons, List.foldl_nil]
    exact follows_run (ih hbefore) (h.reads step hlast) (h.writes step hlast) hroom

/-- Whatever happens, what is stored is within the bound. -/
theorem length_outboxAfter (steps : List OutboxStep) :
    (loadOutbox .none (outboxAfter steps)).entries.length ≤ premiumOutboxMax := by
  induction steps using List.reverseRecOn with
  | nil => exact Nat.zero_le _
  | append_singleton steps step ih =>
    unfold outboxAfter at *
    rw [List.foldl_append, List.foldl_cons, List.foldl_nil]
    set s := steps.foldl OutboxStep.run .missing
    unfold OutboxStep.run
    cases step.call.change step.now (loadOutbox step.faults s) with
    | none => exact ih
    | some store =>
      dsimp only
      rcases writeItem_cases step.faults s
        (evictOldest PremiumOutboxRecord.updatedAt premiumOutboxMax store) with hvalue | ⟨-, hsame⟩
      · have hsaved : saveOutbox step.faults s store =
            .value (evictOldest PremiumOutboxRecord.updatedAt premiumOutboxMax store) := hvalue
        rw [hsaved]
        exact length_evictOldest
      · have hsaved : saveOutbox step.faults s store = s := hsame
        rw [hsaved]
        exact ih

theorem has_eq_true {s : Stored Outbox} :
    hasPremiumOutboxRecord .none s escrowId = true ↔
      (loadOutbox .none s).get escrowId ≠ none ∨ escrowId ∈ inheritedNames := by
  unfold hasPremiumOutboxRecord
  rcases property_cases (loadOutbox .none s) escrowId with ⟨hprop, hnone, hown⟩ |
    ⟨hprop, hnone, hinherited⟩ | ⟨prev, hprop, hprev⟩
  · rw [hprop]
    simp [hnone, hown]
  · rw [hprop]
    simp [hinherited]
  · rw [hprop]
    simp [hprev]

theorem exists_forgotten {store : Outbox} {ledger : Ledger}
    (hstore : store.entries.length ≤ premiumOutboxMax)
    (hledger : premiumOutboxMax < (ledger.keys.filter (· ∉ inheritedNames)).length) :
    ∃ escrowId, ledger.get escrowId ≠ none ∧ escrowId ∉ inheritedNames ∧
      store.get escrowId = none := by
  by_contra hall
  push Not at hall
  have hsubset : ledger.keys.filter (· ∉ inheritedNames) ⊆ store.entries.map Prod.fst := by
    intro escrowId hmem
    obtain ⟨hkey, hown⟩ := List.mem_filter.mp hmem
    obtain ⟨e, he, rfl⟩ := List.mem_map.mp hkey
    have hget : ledger.get e.1 = some e.2 := (OrderedMap.get_eq_some_iff _ _ _).mpr he
    have hfound := hall e.1 (by rw [hget]; exact Option.some_ne_none _) (of_decide_eq_true hown)
    obtain ⟨record, hrecord⟩ := Option.ne_none_iff_exists'.mp hfound
    exact List.mem_map_of_mem ((OrderedMap.get_eq_some_iff _ _ _).mp hrecord)
  have hnodup : (ledger.keys.filter (· ∉ inheritedNames)).Nodup :=
    ledger.nodup.sublist List.filter_sublist
  have hle := (List.subperm_of_subset hnodup hsubset).length_le
  rw [List.length_map] at hle
  omega

/-- In a run in which every read works, every write takes effect and at most five hundred trades
are on record at a time, each trade on record is found in every state, and is never offered; with
more than five hundred on record, some trade is not found. -/
theorem premium_outbox_remembers (steps : List OutboxStep) :
    (OutboxKept steps → ∀ steps', steps' <+: steps → ∀ escrowId,
      (ledgerAfter steps').get escrowId ≠ none →
        hasPremiumOutboxRecord .none (outboxAfter steps') escrowId = true ∧
        ∀ payable escrows myPubkey, escrowId ∉ selectPremiumPayTargets payable escrows myPubkey
          (hasPremiumOutboxRecord .none (outboxAfter steps'))) ∧
      (premiumOutboxMax < ((ledgerAfter steps).keys.filter (· ∉ inheritedNames)).length →
        ∃ escrowId, (ledgerAfter steps).get escrowId ≠ none ∧
          hasPremiumOutboxRecord .none (outboxAfter steps) escrowId = false) := by
  constructor
  · intro hkept steps' hinit escrowId hrecord
    have hkept' : OutboxKept steps' :=
      ⟨fun s hs => hkept.reads s (hinit.subset hs),
        fun s hs => hkept.writes s (hinit.subset hs),
        fun steps'' hp => hkept.room steps'' (hp.trans hinit)⟩
    have hfollows := follows_outboxAfter hkept'
    have hfound : hasPremiumOutboxRecord .none (outboxAfter steps') escrowId = true := by
      rw [has_eq_true]
      by_cases hown : escrowId ∈ inheritedNames
      · exact Or.inr hown
      · obtain ⟨status, hstatus⟩ := Option.ne_none_iff_exists'.mp hrecord
        obtain ⟨record, hget, -⟩ := hfollows.complete escrowId status hown hstatus
        exact Or.inl (by rw [hget]; exact Option.some_ne_none _)
    refine ⟨hfound, fun payable escrows myPubkey hmem => ?_⟩
    obtain ⟨state, hstate, rfl⟩ := List.mem_map.mp hmem
    have hoffered := (List.mem_filter.mp hstate).2
    rw [hfound] at hoffered
    simp at hoffered
  · intro hmany
    obtain ⟨escrowId, hrecord, hown, hnone⟩ := exists_forgotten (length_outboxAfter steps) hmany
    refine ⟨escrowId, hrecord, ?_⟩
    rw [← Bool.not_eq_true, has_eq_true]
    rintro (hsome | hinherited)
    · exact hsome hnone
    · exact hown hinherited

def paidSteps : List OutboxStep :=
  [⟨.recordPremiumSending "trade" 25000, 0, .none⟩,
    ⟨.recordPremiumPaid "trade" 25000 (some "op"), 1000, .none⟩]

theorem premium_outbox_remembers_paid :
    hasPremiumOutboxRecord .none (outboxAfter paidSteps) "trade" = true := by
  have hroom : ∀ steps' ∈ paidSteps.inits,
      (ledgerAfter steps').entries.length ≤ premiumOutboxMax := by decide
  have hkept : OutboxKept paidSteps :=
    ⟨by decide, by decide, fun steps' hinit => hroom steps' ((List.mem_inits _ _).mpr hinit)⟩
  have hrecord : (ledgerAfter paidSteps).get "trade" ≠ none := by decide
  exact ((premium_outbox_remembers paidSteps).1 hkept _ List.prefix_rfl "trade" hrecord).1

/-- The write of an intent fails: the trade counts as recorded, and is offered again. -/
theorem premium_outbox_forgets : ¬ ∀ (steps : List OutboxStep) (escrowId : String),
    (ledgerAfter steps).get escrowId ≠ none →
      hasPremiumOutboxRecord .none (outboxAfter steps) escrowId = true := by
  intro h
  have hrecord : (ledgerAfter [⟨.recordPremiumSending "trade" 25000, 0, ⟨false, some .lost⟩⟩]).get
      "trade" ≠ none := by decide
  have hfound := h _ "trade" hrecord
  have hmissing : hasPremiumOutboxRecord .none (outboxAfter
      [⟨.recordPremiumSending "trade" 25000, 0, ⟨false, some .lost⟩⟩]) "trade" = false := rfl
  rw [hmissing] at hfound
  cases hfound

end ChamaEscrow
