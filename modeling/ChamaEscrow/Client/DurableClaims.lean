import ChamaEscrow.Client.MoneyPublishes
import Mathlib.Data.List.Induction
import Mathlib.Data.List.ReduceOption

/-!
# The durable queue of claims

`durable-claim-queue.ts`: a signed CLAIM is stored before it is first published and offered again
until the preferred relay accepts it.  What cannot be read is an empty queue, a write that fails is
passed over, and a call that changes the queue writes all of it, so that a claim can leave the store
in a call that is about another one.  `Drops` says when, and `durable_claims_kept` what a read finds
after any calls.
-/

namespace ChamaEscrow

open MoneyPublish

structure DurableClaimEntry where
  event : SignedEvent
  escrowId : String
  enqueuedAt : ℤ

/-- The stored array, where `none` is an item that is no entry. -/
abbrev ClaimQueue := List (Option DurableClaimEntry)

def maxDurableClaims : ℕ := 50

def durableClaimMaxAgeSec : ℤ := 30 * 86400

def DurableClaimEntry.isCurrent (nowSec : ℤ) (entry : DurableClaimEntry) : Bool :=
  nowSec - entry.enqueuedAt ≤ durableClaimMaxAgeSec

def entriesOf : Stored ClaimQueue → List DurableClaimEntry
  | .value queue => queue.reduceOption
  | .missing | .garbled => []

def readDurableClaims (f : Faults) (s : Stored ClaimQueue) (nowSec : ℤ) :
    List DurableClaimEntry :=
  (entriesOf (s.readItem f)).filter (DurableClaimEntry.isCurrent nowSec)

/-- `write`: what `set` throws, the store of `defaultDurableClaimStore` passes over. -/
def writeClaims (f : Faults) (s : Stored ClaimQueue) (entries : List DurableClaimEntry) :
    Stored ClaimQueue :=
  (s.writeItem f (entries.map some)).2

/-- The entries that the cap leaves: the last ones in the order of time. -/
def latestClaims (entries : List DurableClaimEntry) : List DurableClaimEntry :=
  (entries.mergeSort fun a b => a.enqueuedAt ≤ b.enqueuedAt).drop
    (entries.length - maxDurableClaims)

def enqueueDurableClaim (f : Faults) (s : Stored ClaimQueue) (event : SignedEvent)
    (escrowId : String) (nowSec : ℤ) : Stored ClaimQueue :=
  let entries := readDurableClaims f s nowSec
  if entries.any fun entry => entry.event.id = event.id then s
  else writeClaims f s (latestClaims (entries ++ [{ event, escrowId, enqueuedAt := nowSec }]))

def ackDurableClaim (f : Faults) (s : Stored ClaimQueue) (eventId : String) (nowSec : ℤ) :
    Stored ClaimQueue :=
  let entries := readDurableClaims f s nowSec
  let remaining := entries.filter fun entry => entry.event.id ≠ eventId
  if remaining.length ≠ entries.length then writeClaims f s remaining else s

/-! ### Runs -/

inductive ClaimCall
  | readDurableClaims
  | enqueueDurableClaim (event : SignedEvent) (escrowId : String)
  | ackDurableClaim (eventId : String)

/-- A call, with the time its clock shows and the faults of its accesses. -/
structure ClaimStep where
  call : ClaimCall
  nowSec : ℤ
  faults : Faults := .none

def ClaimStep.run (s : Stored ClaimQueue) (step : ClaimStep) : Stored ClaimQueue :=
  match step.call with
  | .readDurableClaims => s
  | .enqueueDurableClaim event escrowId =>
    enqueueDurableClaim step.faults s event escrowId step.nowSec
  | .ackDurableClaim eventId => ackDurableClaim step.faults s eventId step.nowSec

def claimsAfter (s : Stored ClaimQueue) (steps : List ClaimStep) : Stored ClaimQueue :=
  steps.foldl ClaimStep.run s

/-- The call stores a new entry: its read found none of the event, its write was not lost and the
cap leaves it. -/
def ClaimStep.Stores (s : Stored ClaimQueue) (e : DurableClaimEntry) (step : ClaimStep) : Prop :=
  match step.call with
  | .readDurableClaims | .ackDurableClaim _ => False
  | .enqueueDurableClaim event escrowId =>
    let entries := readDurableClaims step.faults s step.nowSec
    e = { event, escrowId, enqueuedAt := step.nowSec } ∧
      (∀ entry ∈ entries, entry.event.id ≠ event.id) ∧ step.faults.write ≠ some .lost ∧
      e ∈ latestClaims (entries ++ [e])

/-- The call takes an entry out of the store: an acknowledgement of its event, or any call that
writes the queue without having read the entry, past its lifetime, or with the cap below it. -/
def ClaimStep.Drops (s : Stored ClaimQueue) (e : DurableClaimEntry) (step : ClaimStep) : Prop :=
  let entries := readDurableClaims step.faults s step.nowSec
  match step.call with
  | .readDurableClaims => False
  | .enqueueDurableClaim event escrowId =>
    (∀ entry ∈ entries, entry.event.id ≠ event.id) ∧ step.faults.write ≠ some .lost ∧
      (step.faults.read = true ∨ durableClaimMaxAgeSec < step.nowSec - e.enqueuedAt ∨
        e ∉ latestClaims (entries ++ [{ event, escrowId, enqueuedAt := step.nowSec }]))
  | .ackDurableClaim eventId =>
    (∃ entry ∈ entries, entry.event.id = eventId) ∧ step.faults.write ≠ some .lost ∧
      (e.event.id = eventId ∨ durableClaimMaxAgeSec < step.nowSec - e.enqueuedAt)

def Entered (s : Stored ClaimQueue) (e : DurableClaimEntry) (steps : List ClaimStep) : Prop :=
  (steps = [] ∧ e ∈ entriesOf s) ∨
    ∃ earlier step, steps = earlier ++ [step] ∧ step.Stores (claimsAfter s earlier) e

/-! ### What one call does -/

section Steps

variable {s : Stored ClaimQueue} {f : Faults} {e : DurableClaimEntry}

theorem mem_readDurableClaims {nowSec : ℤ} : e ∈ readDurableClaims f s nowSec ↔
    f.read = false ∧ nowSec - e.enqueuedAt ≤ durableClaimMaxAgeSec ∧ e ∈ entriesOf s := by
  unfold readDurableClaims
  rw [List.mem_filter]
  cases hread : f.read with
  | true => simp [readItem_failed hread, entriesOf]
  | false =>
    rw [readItem_ok hread]
    simp [DurableClaimEntry.isCurrent, and_comm]

theorem mem_writeClaims (l : List DurableClaimEntry) : e ∈ entriesOf (writeClaims f s l) ↔
    if f.write = some .lost then e ∈ entriesOf s else e ∈ l := by
  have hwritten : (l.map some).reduceOption = l := by
    rw [List.reduceOption, List.filterMap_map]
    exact List.filterMap_some
  unfold writeClaims Stored.writeItem
  rcases f.write with - | - | -
  · simp [entriesOf, hwritten]
  · simp
  · simp [entriesOf, hwritten]

theorem mem_of_mem_latestClaims {l : List DurableClaimEntry} (h : e ∈ latestClaims l) : e ∈ l :=
  List.mem_mergeSort.mp (List.mem_of_mem_drop h)

theorem latestClaims_singleton (e : DurableClaimEntry) : latestClaims [e] = [e] := by
  simp [latestClaims, maxDurableClaims]

theorem mem_enqueue (event : SignedEvent) (escrowId : String) (nowSec : ℤ) :
    let step : ClaimStep := { call := .enqueueDurableClaim event escrowId, nowSec, faults := f }
    e ∈ entriesOf (step.run s) ↔ (e ∈ entriesOf s ∧ ¬ step.Drops s e) ∨ step.Stores s e := by
  intro step
  show e ∈ entriesOf (enqueueDurableClaim f s event escrowId nowSec) ↔ _
  unfold enqueueDurableClaim
  set entries := readDurableClaims f s nowSec with hentries
  by_cases hfound : ∃ entry ∈ entries, entry.event.id = event.id
  · obtain ⟨entry, hmem, hid⟩ := hfound
    have hany : (entries.any fun entry => entry.event.id = event.id) = true :=
      List.any_eq_true.mpr ⟨entry, hmem, decide_eq_true hid⟩
    rw [if_pos hany]
    have hdrops : ¬ step.Drops s e := fun h => h.1 entry hmem hid
    have hstores : ¬ step.Stores s e := fun h => h.2.1 entry hmem hid
    simp only [hdrops, hstores, not_false_eq_true, and_true, or_false]
  · have hnone : ∀ entry ∈ entries, entry.event.id ≠ event.id :=
      fun entry hmem hid => hfound ⟨entry, hmem, hid⟩
    rw [if_neg (by simpa using hnone), mem_writeClaims]
    by_cases hlost : f.write = some .lost
    · rw [if_pos hlost]
      have hdrops : ¬ step.Drops s e := fun h => h.2.1 hlost
      have hstores : ¬ step.Stores s e := fun h => h.2.2.1 hlost
      simp only [hdrops, hstores, not_false_eq_true, and_true, or_false]
    · rw [if_neg hlost]
      constructor
      · intro hmem
        rcases List.mem_append.mp (mem_of_mem_latestClaims hmem) with hread | hnew
        · left
          obtain ⟨hok, hcurrent, hstored⟩ := mem_readDurableClaims.mp hread
          refine ⟨hstored, ?_⟩
          rintro ⟨-, -, hfailed | hold | hcut⟩
          · exact Bool.noConfusion (hok.symm.trans hfailed)
          · exact absurd hcurrent (not_le.mpr hold)
          · exact hcut hmem
        · right
          have he := List.mem_singleton.mp hnew
          exact ⟨he, hnone, hlost, by rw [he] at hmem ⊢; exact hmem⟩
      · rintro (⟨-, hkept⟩ | ⟨he, -, -, hmem⟩)
        · by_contra hcut
          exact hkept ⟨hnone, hlost, Or.inr (Or.inr hcut)⟩
        · rw [he] at hmem ⊢
          exact hmem

theorem mem_ack (eventId : String) (nowSec : ℤ) :
    let step : ClaimStep := { call := .ackDurableClaim eventId, nowSec, faults := f }
    e ∈ entriesOf (step.run s) ↔ e ∈ entriesOf s ∧ ¬ step.Drops s e := by
  intro step
  show e ∈ entriesOf (ackDurableClaim f s eventId nowSec) ↔ _
  unfold ackDurableClaim
  dsimp only
  set entries := readDurableClaims f s nowSec with hentries
  by_cases hfound : ∃ entry ∈ entries, entry.event.id = eventId
  · have hwrites : (entries.filter fun entry => entry.event.id ≠ eventId).length
        ≠ entries.length := by
      obtain ⟨entry, hmem, hid⟩ := hfound
      intro hlength
      have hall := List.length_filter_eq_length_iff.mp hlength entry hmem
      exact of_decide_eq_true hall hid
    rw [if_pos hwrites, mem_writeClaims]
    by_cases hlost : f.write = some .lost
    · rw [if_pos hlost]
      have hdrops : ¬ step.Drops s e := fun h => h.2.1 hlost
      simp only [hdrops, not_false_eq_true, and_true]
    · -- The read did not fail, for it found an entry.
      have hok : f.read = false := by
        obtain ⟨entry, hmem, -⟩ := hfound
        exact (mem_readDurableClaims.mp hmem).1
      rw [if_neg hlost, List.mem_filter, mem_readDurableClaims]
      constructor
      · rintro ⟨⟨-, hcurrent, hstored⟩, hid⟩
        refine ⟨hstored, ?_⟩
        rintro ⟨-, -, hacked | hold⟩
        · exact of_decide_eq_true hid hacked
        · exact absurd hcurrent (not_le.mpr hold)
      · rintro ⟨hstored, hkept⟩
        have hcurrent : nowSec - e.enqueuedAt ≤ durableClaimMaxAgeSec :=
          not_lt.mp fun hold => hkept ⟨hfound, hlost, Or.inr hold⟩
        have hid : e.event.id ≠ eventId := fun hid => hkept ⟨hfound, hlost, Or.inl hid⟩
        exact ⟨⟨hok, hcurrent, hstored⟩, decide_eq_true hid⟩
  · have hall : entries.filter (fun entry => entry.event.id ≠ eventId) = entries := by
      apply List.filter_eq_self.mpr
      intro entry hmem
      exact decide_eq_true fun hid => hfound ⟨entry, hmem, hid⟩
    have hdrops : ¬ step.Drops s e := fun h => hfound h.1
    rw [hall, if_neg (not_not.mpr rfl)]
    simp only [hdrops, not_false_eq_true, and_true]

theorem mem_run (step : ClaimStep) : e ∈ entriesOf (step.run s) ↔
    (e ∈ entriesOf s ∧ ¬ step.Drops s e) ∨ step.Stores s e := by
  obtain ⟨call, nowSec, faults⟩ := step
  cases call with
  | readDurableClaims => simp [ClaimStep.run, ClaimStep.Drops, ClaimStep.Stores]
  | enqueueDurableClaim event escrowId => exact mem_enqueue event escrowId nowSec
  | ackDurableClaim eventId =>
    rw [show ClaimStep.Stores s e _ ↔ False from Iff.rfl, or_false]
    exact mem_ack eventId nowSec

end Steps

/-! ### What any calls do -/

theorem mem_claimsAfter (s : Stored ClaimQueue) (steps : List ClaimStep) (e : DurableClaimEntry) :
    e ∈ entriesOf (claimsAfter s steps) ↔ ∃ before later, steps = before ++ later ∧
      Entered s e before ∧ ∀ kept step rest, later = kept ++ step :: rest →
        ¬ step.Drops (claimsAfter s (before ++ kept)) e := by
  induction steps using List.reverseRecOn with
  | nil =>
    constructor
    · intro hmem
      refine ⟨[], [], rfl, Or.inl ⟨rfl, hmem⟩, fun kept step rest hsplit => ?_⟩
      simp at hsplit
    · rintro ⟨before, later, hsteps, hentered, -⟩
      obtain ⟨rfl, rfl⟩ := List.append_eq_nil_iff.mp hsteps.symm
      rcases hentered with ⟨-, hmem⟩ | ⟨earlier, step, hlast, -⟩
      · exact hmem
      · simp at hlast
  | append_singleton steps last ih =>
    have hrun : claimsAfter s (steps ++ [last]) = last.run (claimsAfter s steps) :=
      List.foldl_concat ..
    rw [hrun, mem_run, ih]
    constructor
    · rintro (⟨⟨before, later, rfl, hentered, hkept⟩, hlast⟩ | hstores)
      · refine ⟨before, later ++ [last], List.append_assoc .., hentered, ?_⟩
        intro kept step rest hsplit
        rcases List.eq_nil_or_concat rest with rfl | ⟨rest, final, rfl⟩
        · obtain ⟨rfl, hstep⟩ := List.append_inj' hsplit rfl
          obtain rfl := List.singleton_injective hstep
          exact hlast
        · rw [List.concat_eq_append, ← List.cons_append, ← List.append_assoc] at hsplit
          exact hkept kept step rest (List.append_inj_left' hsplit rfl)
      · exact ⟨steps ++ [last], [], (List.append_nil _).symm,
          Or.inr ⟨steps, last, rfl, hstores⟩, by simp⟩
    · rintro ⟨before, later, hsteps, hentered, hkept⟩
      rcases List.eq_nil_or_concat later with rfl | ⟨later, final, rfl⟩
      · rw [List.append_nil] at hsteps
        subst hsteps
        rcases hentered with ⟨hnil, -⟩ | ⟨earlier, step, hlast, hstores⟩
        · simp at hnil
        · obtain ⟨rfl, hstep⟩ := List.append_inj' hlast rfl
          obtain rfl := List.singleton_injective hstep
          exact Or.inr hstores
      · rw [List.concat_eq_append] at hsteps hkept
        rw [← List.append_assoc] at hsteps
        obtain ⟨rfl, hstep⟩ := List.append_inj' hsteps rfl
        obtain rfl := List.singleton_injective hstep
        refine Or.inl ⟨⟨before, later, rfl, hentered, ?_⟩, hkept later last [] rfl⟩
        intro kept step rest hsplit
        exact hkept kept step (rest ++ [last]) (by rw [hsplit, List.append_assoc]; rfl)

/-- A read finds an entry exactly if the read does not fail, the entry is within its lifetime, and
no call has dropped it since it came into the store. -/
theorem durable_claims_kept (s : Stored ClaimQueue) (steps : List ClaimStep)
    (e : DurableClaimEntry) (f : Faults) (nowSec : ℤ) :
    e ∈ readDurableClaims f (claimsAfter s steps) nowSec ↔
      f.read = false ∧ nowSec - e.enqueuedAt ≤ durableClaimMaxAgeSec ∧
        ∃ before later, steps = before ++ later ∧ Entered s e before ∧
          ∀ kept step rest, later = kept ++ step :: rest →
            ¬ step.Drops (claimsAfter s (before ++ kept)) e := by
  rw [mem_readDurableClaims, mem_claimsAfter]

def queuedClaim (id : String) : SignedEvent where
  id
  pubkey := "winner"
  createdAt := 0
  kind := 38100
  tags := []
  content := ""
  sig := ""

/-- A claim is lost with nothing reported when its own write fails, and when the next claim is
queued by a call whose read fails. -/
theorem durable_claim_lost :
    let first : ClaimStep :=
      { call := .enqueueDurableClaim (queuedClaim "a") "trade", nowSec := 0 }
    let second : ClaimStep :=
      { call := .enqueueDurableClaim (queuedClaim "b") "trade", nowSec := 0,
        faults := { read := true } }
    readDurableClaims .none (claimsAfter .missing
        [{ first with faults := { write := some .lost } }]) 0 = [] ∧
      (readDurableClaims .none (claimsAfter .missing [first]) 0).map (·.event.id) = ["a"] ∧
      (readDurableClaims .none (claimsAfter .missing [first, second]) 0).map (·.event.id)
        = ["b"] := by
  intro first second
  have hfirst : claimsAfter .missing [first] = .value [some ⟨queuedClaim "a", "trade", 0⟩] := by
    show writeClaims .none .missing (latestClaims [_]) = _
    rw [latestClaims_singleton]
    rfl
  have hsecond : claimsAfter .missing [first, second]
      = .value [some ⟨queuedClaim "b", "trade", 0⟩] := by
    show second.run (claimsAfter .missing [first]) = _
    rw [hfirst]
    show writeClaims second.faults _ (latestClaims [_]) = _
    rw [latestClaims_singleton]
    rfl
  refine ⟨rfl, ?_, ?_⟩
  · rw [hfirst]
    decide
  · rw [hsecond]
    decide

end ChamaEscrow
