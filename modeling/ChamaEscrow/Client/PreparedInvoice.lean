import Mathlib.Data.Int.Order.Basic
import Mathlib.Order.Nat
import Mathlib.Data.List.Basic
import Mathlib.Logic.Relation
import Mathlib.Tactic.Tauto

/-!
# Prepared funding invoices

`payments/prepared-funding-invoice.ts`.  The funding invoice of a lock is asked for when the hold
on the button begins, and the funding flow adopts it when the hold is completed.  Presses, lifted
holds, flows, timers and the answers of the wallet run on one module in any order.

What a callback does to the module is a sequence of a few effects (`step_effects`), so that an
invariant is proved of one effect at a time.
-/

namespace ChamaEscrow.PreparedInvoice

/-! ### What is asked for -/

def preparedInvoiceMaxAgeMs : ℤ := 60_000

def preparedWatchWindowMs : ℤ := 60 * 60_000

def maxUnadoptedPrepared : ℕ := 2

structure PreparedInvoiceTerms where
  escrowId : String
  federationId : String
  amountMsats : ℤ
  description : String
  savedHandleId : Option String := none
  paymentDetailsInChat : Option Bool := none
  itemsKey : String
  seatDeadline : Option ℤ := none
  deriving DecidableEq

/-- `sameTerms`: a handle that is absent is the empty one, a flag that is absent is not set. -/
def sameTerms (a b : PreparedInvoiceTerms) : Bool :=
  a.escrowId == b.escrowId && a.federationId == b.federationId
    && a.amountMsats == b.amountMsats && a.description == b.description
    && a.savedHandleId.getD "" == b.savedHandleId.getD ""
    && a.paymentDetailsInChat.getD false == b.paymentDetailsInChat.getD false
    && a.itemsKey == b.itemsKey && a.seatDeadline == b.seatDeadline

def PreparedInvoiceTerms.filled (terms : PreparedInvoiceTerms) : PreparedInvoiceTerms :=
  { terms with
    savedHandleId := some (terms.savedHandleId.getD "")
    paymentDetailsInChat := some (terms.paymentDetailsInChat.getD false) }

theorem sameTerms_iff {a b : PreparedInvoiceTerms} :
    sameTerms a b = true ↔ a.filled = b.filled := by
  unfold sameTerms PreparedInvoiceTerms.filled
  simp only [Bool.and_eq_true, beq_iff_eq, PreparedInvoiceTerms.mk.injEq, Option.some.injEq]
  tauto

/-! ### One prepared invoice -/

section Entry

variable {S G : Type}

inductive RelayEvent (S G : Type)
  | state (value : S)
  | gateway (value : G)

def RelayEvent.isGateway : RelayEvent S G → Bool
  | state _ => false
  | gateway _ => true

/-- `EventRelay`, with what the listeners of a flow have heard. -/
structure EventRelay (S G : Type) where
  buffered : List (RelayEvent S G) := []
  attached : Bool := false
  closed : Bool := false
  heard : List (RelayEvent S G) := []

/-- `EventRelay.state` and `EventRelay.gateway`. -/
def EventRelay.tell (relay : EventRelay S G) (event : RelayEvent S G) : EventRelay S G :=
  if relay.closed then relay
  else if relay.attached then { relay with heard := relay.heard ++ [event] }
  else { relay with buffered := relay.buffered ++ [event] }

/-- `EventRelay.attach`: the events of the gateway first, since the flow notes the operation id
before it hears of states. -/
def EventRelay.attach (relay : EventRelay S G) : EventRelay S G :=
  if relay.attached || relay.closed then relay
  else { relay with
    attached := true
    buffered := []
    heard := relay.buffered.filter RelayEvent.isGateway
      ++ relay.buffered.filter fun event => !event.isGateway }

def EventRelay.close (relay : EventRelay S G) : EventRelay S G :=
  if relay.attached then relay else { relay with closed := true, buffered := [] }

inductive InvoicePromise
  | pending
  | made (bolt11 : String)
  | failed
  deriving DecidableEq

/-- A call of a `FundingInvoiceJournal`. -/
inductive JournalCall
  | record (bolt11 : String)
  | stop (locked : Bool)
  deriving DecidableEq

/-- A slot of the budget; which one it is does not depend on when it was taken. -/
structure Slot where
  id : ℕ
  heldAt : ℤ
  deriving DecidableEq

/-- `Prepared`, with the calls of the journal that was opened for it.  Its timer is left out: it may
run out at any time, and what it does then depends on which entry is the current one. -/
structure Prepared (S G : Type) where
  terms : PreparedInvoiceTerms
  startedAt : ℤ
  expiresAtSec : ℤ
  slot : Slot
  invoice : InvoicePromise := .pending
  relay : EventRelay S G := {}
  journal : List JournalCall := []

/-- What the wallet answers to `create`: an invoice, which the journal records unless it throws, or
a failure. -/
inductive WalletAnswer
  | made (bolt11 : String) (records : Bool)
  | refused

/-- The promise is settled, once: an invoice that could not be recorded fails as well. -/
def Prepared.settle (entry : Prepared S G) (answer : WalletAnswer) : Prepared S G :=
  match entry.invoice, answer with
  | .pending, .made bolt11 records =>
    { entry with
      invoice := if records then .made bolt11 else .failed
      journal := entry.journal ++ [.record bolt11] }
  | .pending, .refused => { entry with invoice := .failed }
  | _, _ => entry

def Prepared.tell (entry : Prepared S G) (event : RelayEvent S G) : Prepared S G :=
  { entry with relay := entry.relay.tell event }

/-- The relay is closed and the journal told that the invoice is abandoned. -/
def Prepared.giveUp (entry : Prepared S G) : Prepared S G :=
  { entry with relay := entry.relay.close, journal := entry.journal ++ [.stop false] }

/-- The relay gets the listeners of the flow. -/
def Prepared.attach (entry : Prepared S G) : Prepared S G :=
  { entry with relay := entry.relay.attach }

/-- The seconds that the invoice was asked to live for. -/
def Prepared.life (entry : Prepared S G) : ℤ := entry.expiresAtSec - entry.startedAt / 1000

/-- The arguments of `adoptPreparedInvoice`, with what the clock reads. -/
structure AdoptInput where
  terms : PreparedInvoiceTerms
  expirySeconds : ℤ
  now : ℤ

/-- `freshExpiresAtSec`: when an invoice that is asked for now would expire. -/
def AdoptInput.freshExpiresAtSec (input : AdoptInput) : ℤ := input.now / 1000 + input.expirySeconds

def Prepared.fits (entry : Prepared S G) (input : AdoptInput) : Bool :=
  sameTerms entry.terms input.terms
    && decide (input.now - entry.startedAt < preparedInvoiceMaxAgeMs)
    && decide (entry.expiresAtSec ≤ input.freshExpiresAtSec + 5)

end Entry

/-! ### The module -/

/-- A call of `adoptPreparedInvoice` that took an entry.  It waits for the invoice, and then its
answer is the invoice or `null`. -/
structure Adoption where
  entry : ℕ
  input : AdoptInput
  answer : Option (Option String) := none

/-- The variables of the module, with every entry that was ever made and every adoption. -/
structure PreparedInvoices (S G : Type) where
  current : Option ℕ := none
  generation : ℕ := 0
  slots : List Slot := []
  entries : List (Prepared S G) := []
  adoptions : List Adoption := []

/-- The arguments of `prepareInvoice`, with what the clock reads. -/
structure PrepareInput where
  ticket : ℕ
  terms : PreparedInvoiceTerms
  expirySeconds : ℤ
  now : ℤ

/-- What `prepareInvoice` returns. -/
inductive PrepareResult
  | started
  | reused
  | refused
  deriving DecidableEq

namespace PreparedInvoices

variable {S G : Type}

/-- The entry that `current` stands for. -/
def held (s : PreparedInvoices S G) : Option (ℕ × Prepared S G) := do
  let id ← s.current
  let entry ← s.entries[id]?
  return (id, entry)

def preparationTicket (s : PreparedInvoices S G) : ℕ := s.generation

/-- `generation++`. -/
def bump (s : PreparedInvoices S G) : PreparedInvoices S G :=
  { s with generation := s.generation + 1 }

/-- Something happens to an entry. -/
def edit (s : PreparedInvoices S G) (id : ℕ) (f : Prepared S G → Prepared S G) :
    PreparedInvoices S G :=
  { s with entries := s.entries.modify id f }

def freeSlot (s : PreparedInvoices S G) (slot : Slot) : PreparedInvoices S G :=
  { s with slots := s.slots.filter fun other => other ≠ slot }

/-- Slots that were taken a watch window ago no longer count. -/
def expireSlots (s : PreparedInvoices S G) (now : ℤ) : PreparedInvoices S G :=
  { s with slots := s.slots.filter fun slot => now - slot.heldAt < preparedWatchWindowMs }

def releasePreparedInvoice (s : PreparedInvoices S G) : PreparedInvoices S G := s.bump

/-- An entry is no longer the current one and is given up. -/
def drop (s : PreparedInvoices S G) (id : ℕ) : PreparedInvoices S G :=
  { s with current := none, entries := s.entries.modify id Prepared.giveUp }

def abandonPreparedInvoice (s : PreparedInvoices S G) : PreparedInvoices S G :=
  match s.current with
  | none => s.bump
  | some id => s.bump.drop id

/-- A new entry takes a slot, has the wallet asked for an invoice and becomes the current one. -/
def install (s : PreparedInvoices S G) (input : PrepareInput) : PreparedInvoices S G :=
  let slot : Slot := { id := s.entries.length, heldAt := input.now }
  { s with
    current := some s.entries.length
    slots := s.slots ++ [slot]
    entries := s.entries ++ [{
      terms := input.terms
      startedAt := input.now
      expiresAtSec := input.now / 1000 + input.expirySeconds
      slot }] }

def prepareInvoice (s : PreparedInvoices S G) (input : PrepareInput) :
    PrepareResult × PreparedInvoices S G :=
  if input.ticket ≠ s.generation then (.refused, s)
  else if s.held.any fun (_, entry) => sameTerms entry.terms input.terms
      && decide (input.now - entry.startedAt < preparedInvoiceMaxAgeMs) then (.reused, s)
  else
    let s := s.abandonPreparedInvoice.expireSlots input.now
    if s.slots.length ≥ maxUnadoptedPrepared then (.refused, s)
    else (.started, s.install input)

def take (s : PreparedInvoices S G) (id : ℕ) (input : AdoptInput) : PreparedInvoices S G :=
  { s with current := none, adoptions := s.adoptions ++ [{ entry := id, input }] }

/-- `adoptPreparedInvoice` up to its `await`. -/
def adoptPreparedInvoice (s : PreparedInvoices S G) (input : AdoptInput) : PreparedInvoices S G :=
  match s.bump.held with
  | none => s.bump
  | some (id, entry) =>
    if entry.fits input then (s.bump.take id input).freeSlot entry.slot
    else s.bump.abandonPreparedInvoice

/-- An adoption returns, and something happens to its entry. -/
def answer (s : PreparedInvoices S G) (k id : ℕ) (f : Prepared S G → Prepared S G)
    (reply : Option String) : PreparedInvoices S G :=
  { s with
    entries := s.entries.modify id f
    adoptions := s.adoptions.modify k fun adoption => { adoption with answer := some reply } }

/-- `adoptPreparedInvoice` after its `await`, which goes on once the promise is settled. -/
def resumeAdoption (s : PreparedInvoices S G) (k : ℕ) : PreparedInvoices S G :=
  match s.adoptions[k]? with
  | some { entry := id, input := _, answer := none } =>
    match s.entries[id]?.map Prepared.invoice with
    | some (.made bolt11) => s.answer k id Prepared.attach (some bolt11)
    | some .failed => s.answer k id Prepared.giveUp none
    | some .pending | none => s
  | _ => s

/-- What `prepareInvoice` does when the promise of its invoice fails. -/
def invoiceFailed (s : PreparedInvoices S G) (id : ℕ) : PreparedInvoices S G :=
  match s.entries[id]? with
  | none => s
  | some entry =>
    if entry.invoice ≠ .failed then s
    else
      let s := s.freeSlot entry.slot
      if s.current = some id then s.abandonPreparedInvoice else s

/-- The timer of an entry runs out. -/
def agedOut (s : PreparedInvoices S G) (id : ℕ) : PreparedInvoices S G :=
  if s.current = some id then s.abandonPreparedInvoice else s

end PreparedInvoices

/-- A callback that runs on the module.  A press only reads the ticket. -/
inductive Callback (S G : Type)
  | prepare (input : PrepareInput)
  | release
  | abandon
  | adopt (input : AdoptInput)
  | told (id : ℕ) (event : RelayEvent S G)
  | settled (id : ℕ) (answer : WalletAnswer)
  | failed (id : ℕ)
  | agedOut (id : ℕ)
  | resumed (k : ℕ)

section Runs

variable {S G : Type}

open PreparedInvoices

def step (s : PreparedInvoices S G) : Callback S G → PreparedInvoices S G
  | .prepare input => (s.prepareInvoice input).2
  | .release => s.releasePreparedInvoice
  | .abandon => s.abandonPreparedInvoice
  | .adopt input => s.adoptPreparedInvoice input
  | .told id event => s.edit id fun entry => entry.tell event
  | .settled id answer => s.edit id fun entry => entry.settle answer
  | .failed id => s.invoiceFailed id
  | .agedOut id => s.agedOut id
  | .resumed k => s.resumeAdoption k

def runs (callbacks : List (Callback S G)) : PreparedInvoices S G := callbacks.foldl step {}

def preparedAt (callbacks : List (Callback S G)) : List ℤ :=
  callbacks.filterMap fun
    | .prepare input => some input.now
    | _ => none

/-- The entries that have not failed, that no adoption took, and that were asked for in the watch
window that opens at a time. -/
def PreparedInvoices.unadoptedWithin (s : PreparedInvoices S G) (opens : ℤ) : List ℕ :=
  (List.range s.entries.length).filter fun id =>
    s.entries[id]?.any fun entry =>
      entry.invoice ≠ .failed && s.adoptions.all (fun adoption => adoption.entry ≠ id)
        && decide (opens ≤ entry.startedAt)
        && decide (entry.startedAt < opens + preparedWatchWindowMs)

/-- A callback that supersedes the presses before it: a lifted hold, an abandonment, a flow, or
whatever else changes the current entry. -/
def Supersedes (s : PreparedInvoices S G) (callback : Callback S G) : Prop :=
  callback = .release ∨ callback = .abandon ∨ (∃ input, callback = .adopt input) ∨
    (step s callback).current ≠ s.current

end Runs

/-! ### What a callback does -/

section Effects

variable {S G : Type}

open PreparedInvoices Relation

/-- The entry is still to be adopted or given up. -/
structure Prepared.Quiet (entry : Prepared S G) : Prop where
  unstopped : .stop false ∉ entry.journal
  pending : entry.invoice = .pending → entry.journal = []
  made : ∀ bolt11, entry.invoice = .made bolt11 → entry.journal = [.record bolt11]
  detached : entry.relay.attached = false
  unclosed : entry.relay.closed = false
  unheard : entry.relay.heard = []

structure Prepared.Adopted (entry : Prepared S G) (bolt11 : String) : Prop where
  made : entry.invoice = .made bolt11
  recorded : entry.journal = [.record bolt11]
  attached : entry.relay.attached = true

/-- The entry is reported abandoned, and nothing of it is ever heard. -/
structure Prepared.Dropped (entry : Prepared S G) : Prop where
  stopped : .stop false ∈ entry.journal
  detached : entry.relay.attached = false
  closed : entry.relay.closed = true
  unheard : entry.relay.heard = []

def Prepared.core (entry : Prepared S G) : PreparedInvoiceTerms × ℤ × ℤ × Slot :=
  (entry.terms, entry.startedAt, entry.expiresAtSec, entry.slot)

/-- What the wallet does to an entry: it settles its promise once, and changes neither what the
entry was asked for nor what became of it. -/
structure Edits (f : Prepared S G → Prepared S G) : Prop where
  core : ∀ entry, (f entry).core = entry.core
  settled : ∀ entry, entry.invoice ≠ .pending → (f entry).invoice = entry.invoice
  quiet : ∀ entry, entry.Quiet → (f entry).Quiet
  adopted : ∀ entry bolt11, entry.Adopted bolt11 → (f entry).Adopted bolt11
  dropped : ∀ entry, entry.Dropped → (f entry).Dropped

/-- The entries that adoptions took. -/
def PreparedInvoices.takenIds (s : PreparedInvoices S G) : List ℕ := s.adoptions.map Adoption.entry

/-- What callbacks are made of, for a reading of the clock. -/
inductive Effect (now : ℤ) : PreparedInvoices S G → PreparedInvoices S G → Prop
  | bump (s) : Effect now s s.bump
  | expire (s) : Effect now s (s.expireSlots now)
  | free (s) (id : ℕ) (entry) (hentry : s.entries[id]? = some entry)
      (hdone : entry.invoice = .failed ∨ id ∈ s.takenIds) : Effect now s (s.freeSlot entry.slot)
  | drop (s) (id : ℕ) (hcurrent : s.current = some id) : Effect now s (s.drop id)
  | install (s) (input : PrepareInput) (hnow : input.now = now) (hnone : s.current = none)
      (hroom : s.slots.length < maxUnadoptedPrepared) : Effect now s (s.install input)
  | take (s) (id : ℕ) (entry) (input : AdoptInput) (hcurrent : s.current = some id)
      (hentry : s.entries[id]? = some entry) (hfits : entry.fits input = true) :
      Effect now s (s.take id input)
  | edit (s) (id : ℕ) (f) (hf : Edits f) : Effect now s (s.edit id f)
  | handOver (s) (k id : ℕ) (input) (entry) (bolt11 : String)
      (hwaits : s.adoptions[k]? = some { entry := id, input })
      (hentry : s.entries[id]? = some entry) (hmade : entry.invoice = .made bolt11) :
      Effect now s (s.answer k id Prepared.attach (some bolt11))
  | letGo (s) (k id : ℕ) (input) (entry)
      (hwaits : s.adoptions[k]? = some { entry := id, input })
      (hentry : s.entries[id]? = some entry) (hfailed : entry.invoice = .failed) :
      Effect now s (s.answer k id Prepared.giveUp none)

variable {s : PreparedInvoices S G} {id : ℕ} {entry : Prepared S G}

/-- What the wallet tells the relay does not matter to a closed one and is only buffered by one
that no flow listens to. -/
theorem edits_tell (event : RelayEvent S G) : Edits fun entry => entry.tell event := by
  refine ⟨fun _ => rfl, fun _ _ => rfl, ?_, ?_, ?_⟩
  · intro entry h
    have hrelay : (entry.tell event).relay
        = { entry.relay with buffered := entry.relay.buffered ++ [event] } := by
      have hclosed : ¬ entry.relay.closed = true := by simp [h.unclosed]
      have hattached : ¬ entry.relay.attached = true := by simp [h.detached]
      unfold Prepared.tell EventRelay.tell
      dsimp only
      rw [if_neg hclosed, if_neg hattached]
    exact ⟨h.unstopped, h.pending, h.made, by rw [hrelay, h.detached], by rw [hrelay, h.unclosed],
      by rw [hrelay, h.unheard]⟩
  · intro entry bolt11 h
    refine ⟨h.made, h.recorded, ?_⟩
    unfold Prepared.tell EventRelay.tell
    dsimp only
    split_ifs <;> exact h.attached
  · intro entry h
    have hrelay : (entry.tell event).relay = entry.relay := by
      unfold Prepared.tell EventRelay.tell
      dsimp only
      rw [if_pos h.closed]
    exact ⟨h.stopped, by rw [hrelay, h.detached], by rw [hrelay, h.closed],
      by rw [hrelay, h.unheard]⟩

theorem settle_of_ne_pending (h : entry.invoice ≠ .pending) (answer : WalletAnswer) :
    entry.settle answer = entry := by
  unfold Prepared.settle
  split
  · next hpending => exact absurd hpending h
  · next hpending => exact absurd hpending h
  · rfl

theorem edits_settle (answer : WalletAnswer) :
    Edits fun entry : Prepared S G => entry.settle answer := by
  refine ⟨?_, ?_, ?_, ?_, ?_⟩
  · intro entry
    unfold Prepared.settle
    split <;> rfl
  · intro entry h
    show (entry.settle answer).invoice = _
    rw [settle_of_ne_pending h]
  · intro entry h
    by_cases hpending : entry.invoice = .pending
    · have hempty : entry.journal = [] := h.pending hpending
      cases answer with
      | made bolt11 records =>
        have hsettle : entry.settle (.made bolt11 records) = { entry with
            invoice := if records then .made bolt11 else .failed
            journal := [.record bolt11] } := by
          unfold Prepared.settle
          rw [hpending, hempty]
          rfl
        show (entry.settle (.made bolt11 records)).Quiet
        rw [hsettle]
        refine ⟨by simp, ?_, ?_, h.detached, h.unclosed, h.unheard⟩
        · intro hinvoice
          dsimp only at hinvoice
          split_ifs at hinvoice
        · intro other hinvoice
          dsimp only at hinvoice
          split_ifs at hinvoice
          cases hinvoice
          rfl
      | refused =>
        have hsettle : entry.settle .refused = { entry with invoice := .failed } := by
          unfold Prepared.settle
          rw [hpending]
        show (entry.settle .refused).Quiet
        rw [hsettle]
        refine ⟨h.unstopped, ?_, ?_, h.detached, h.unclosed, h.unheard⟩
        · intro hinvoice
          cases hinvoice
        · intro other hinvoice
          cases hinvoice
    · show (entry.settle answer).Quiet
      rw [settle_of_ne_pending hpending]
      exact h
  · intro entry bolt11 h
    show (entry.settle answer).Adopted bolt11
    have hsettled : entry.invoice ≠ .pending := by
      rw [h.made]
      intro hpending
      cases hpending
    rw [settle_of_ne_pending hsettled]
    exact h
  · intro entry h
    show (entry.settle answer).Dropped
    unfold Prepared.settle
    split
    · exact ⟨List.mem_append_left _ h.stopped, h.detached, h.closed, h.unheard⟩
    · exact ⟨h.stopped, h.detached, h.closed, h.unheard⟩
    · exact h

theorem held_eq_some :
    s.held = some (id, entry) ↔ s.current = some id ∧ s.entries[id]? = some entry := by
  unfold held
  constructor
  · intro h
    obtain ⟨id', hcurrent, h⟩ := Option.bind_eq_some_iff.mp h
    obtain ⟨entry', hentry, h⟩ := Option.bind_eq_some_iff.mp h
    cases h
    exact ⟨hcurrent, hentry⟩
  · rintro ⟨hcurrent, hentry⟩
    rw [hcurrent, Option.bind_eq_bind, Option.bind_some, hentry]
    rfl

/-! Each function of the module is made of effects. -/

theorem abandon_effects (now : ℤ) (s : PreparedInvoices S G) :
    ReflTransGen (Effect now) s s.abandonPreparedInvoice := by
  have hbump : ReflTransGen (Effect now) s s.bump := .single (.bump s)
  unfold abandonPreparedInvoice
  cases hcurrent : s.current with
  | none => exact hbump
  | some id => exact hbump.tail (.drop s.bump id hcurrent)

theorem abandon_current (s : PreparedInvoices S G) : s.abandonPreparedInvoice.current = none := by
  unfold abandonPreparedInvoice
  cases hcurrent : s.current with
  | none => exact hcurrent
  | some id => rfl

theorem abandon_generation (s : PreparedInvoices S G) :
    s.abandonPreparedInvoice.generation = s.generation + 1 := by
  unfold abandonPreparedInvoice
  cases s.current <;> rfl

theorem prepare_effects (s : PreparedInvoices S G) (input : PrepareInput) :
    ReflTransGen (Effect input.now) s (s.prepareInvoice input).2 := by
  unfold prepareInvoice
  split_ifs with hticket hreuse
  · exact .refl
  · exact .refl
  · have habandon := abandon_effects input.now s
    have hexpire : ReflTransGen (Effect input.now) s
        (s.abandonPreparedInvoice.expireSlots input.now) := habandon.tail (.expire _)
    dsimp only
    split_ifs with hfull
    · exact hexpire
    · exact hexpire.tail (.install _ input rfl (abandon_current s) (Nat.not_le.mp hfull))

theorem adopt_effects (now : ℤ) (s : PreparedInvoices S G) (input : AdoptInput) :
    ReflTransGen (Effect now) s (s.adoptPreparedInvoice input) := by
  have hbump : ReflTransGen (Effect now) s s.bump := .single (.bump s)
  unfold adoptPreparedInvoice
  cases hheld : s.bump.held with
  | none => exact hbump
  | some pair =>
    obtain ⟨id, entry⟩ := pair
    obtain ⟨hcurrent, hentry⟩ := held_eq_some.mp hheld
    dsimp only
    split_ifs with hfits
    · have htake := hbump.tail (.take s.bump id entry input hcurrent hentry hfits)
      refine htake.tail (.free _ id entry hentry (Or.inr ?_))
      show id ∈ (s.adoptions ++ [_]).map Adoption.entry
      rw [List.map_append]
      exact List.mem_append_right _ List.mem_cons_self
    · exact hbump.trans (abandon_effects now s.bump)

theorem resume_effects (now : ℤ) (s : PreparedInvoices S G) (k : ℕ) :
    ReflTransGen (Effect now) s (s.resumeAdoption k) := by
  unfold resumeAdoption
  split
  · next id input hwaits =>
    cases hentry : s.entries[id]? with
    | none => exact .refl
    | some entry =>
      rw [Option.map_some]
      cases hinvoice : entry.invoice with
      | pending => exact .refl
      | made bolt11 => exact .single (.handOver s k id input entry bolt11 hwaits hentry hinvoice)
      | failed => exact .single (.letGo s k id input entry hwaits hentry hinvoice)
  · exact .refl

theorem failed_effects (now : ℤ) (s : PreparedInvoices S G) (id : ℕ) :
    ReflTransGen (Effect now) s (s.invoiceFailed id) := by
  unfold invoiceFailed
  cases hentry : s.entries[id]? with
  | none => exact .refl
  | some entry =>
    dsimp only
    by_cases hfailed : entry.invoice = .failed
    · rw [if_neg (not_not.mpr hfailed)]
      have hfree : ReflTransGen (Effect now) s (s.freeSlot entry.slot) :=
        .single (.free s id entry hentry (Or.inl hfailed))
      split_ifs
      · exact hfree.trans (abandon_effects now _)
      · exact hfree
    · rw [if_pos hfailed]

theorem step_effects (now : ℤ) (s : PreparedInvoices S G) (callback : Callback S G)
    (hnow : ∀ input, callback = .prepare input → input.now = now) :
    ReflTransGen (Effect now) s (step s callback) := by
  cases callback with
  | prepare input =>
    obtain rfl := hnow input rfl
    exact prepare_effects s input
  | release => exact .single (.bump s)
  | abandon => exact abandon_effects now s
  | adopt input => exact adopt_effects now s input
  | told id event => exact .single (.edit s id _ (edits_tell event))
  | settled id answer => exact .single (.edit s id _ (edits_settle answer))
  | failed id => exact failed_effects now s id
  | agedOut id =>
    show ReflTransGen _ s (s.agedOut id)
    unfold agedOut
    split_ifs
    · exact abandon_effects now s
    · exact .refl
  | resumed k => exact resume_effects now s k

end Effects

end ChamaEscrow.PreparedInvoice
