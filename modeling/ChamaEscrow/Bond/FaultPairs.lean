import ChamaEscrow.Bond.Cover
import ChamaEscrow.Client.PendingRedemptions
import ChamaEscrow.Library.Delimited
import ChamaEscrow.Library.Grouped
import ChamaEscrow.Library.Newest
import Mathlib.Data.List.TakeWhile

/-!
# Attestations of an arbiter's fault

`arbiters/arbiter-fault.ts`: both principals of a settled dispute may sign that the arbiter acted in
bad faith, and the two reports together exclude the arbiter from the pool for a while.

The pairs are right, and the same for every order of the reports, just when the reports are fair
(`FairReports`): what the selection does not look at is who signed the arbiter's vote, which report
comes first of two that a principal signed at one time, and a bar in the id of a trade.
-/

namespace ChamaEscrow.Bond

open Js Library

/-! ### Reports -/

def arbiterFaultKind : ℕ := 38136

def arbiterFaultType : String := "chama:arbiter-fault"

def arbiterRebuttalType : String := "chama:arbiter-rebuttal"

def faultReasonMaxChars : ℕ := 500

inductive FaultType
  | fault
  | rebuttal
  deriving DecidableEq

/-- `ArbiterFaultPayload`: the fields that are read, and the content with all others. -/
structure ArbiterFaultPayload where
  type : FaultType
  escrowId : String
  arbiter : String
  /-- The code units of the reason, as many as are kept. -/
  reason : List ℕ
  content : JsValue

structure ArbiterFaultRecord where
  payload : ArbiterFaultPayload
  signer : String
  createdAt : ℚ
  eventId : String

structure ArbiterFaultPair where
  escrowId : String
  arbiter : String
  buyer : ArbiterFaultRecord
  seller : ArbiterFaultRecord
  attestedAt : ℚ

/-- `isNonEmptyHex` of a text. -/
def isNonEmptyHex (s : String) : Bool :=
  s.toList.length = 64 && s.toList.all fun c =>
    c.isDigit || ('a' ≤ c && c ≤ 'f') || ('A' ≤ c && c ≤ 'F')

def faultType? (payload : JsValue) : Option FaultType :=
  if (payload.field "type").isText arbiterFaultType then some .fault
  else if (payload.field "type").isText arbiterRebuttalType then some .rebuttal
  else none

/-- `parseArbiterFaultEvent`: the signer is taken from the event, never from the payload. -/
def parseArbiterFaultEvent (event : AnnouncementEvent) : Option ArbiterFaultRecord := do
  guard (event.kind = arbiterFaultKind)
  guard (isNonEmptyHex event.raw.pubkey)
  let content ← event.content.toOption
  let type ← faultType? content
  let escrowId ← (content.field "escrowId").text?
  guard (escrowId ≠ "")
  let arbiter ← (content.field "arbiter").text?
  guard (isNonEmptyHex arbiter)
  let reason := ((content.field "reason").text?.getD "").toList.flatMap codeUnits
  return {
    payload := { type, escrowId, arbiter, reason := reason.take faultReasonMaxChars, content }
    signer := event.raw.pubkey
    createdAt := match event.raw.createdAt with
      | .fin q => q
      | _ => 0
    eventId := event.raw.id }

/-! ### Who may attest -/

def isArbiterVote (ve : ParsedEscrowEvent) : Bool :=
  match ve.payload with
  | .vote p => p.role = .arbiter
  | _ => false

def arbiterRuledOnDispute (state : EscrowState) : Bool :=
  state.participants.arbiter.any (· ≠ "")
    -- No disagreement, and the arbiter had no say to abuse.
    && (match state.votes.get .buyer, state.votes.get .seller with
      | some buyerVote, some sellerVote => buyerVote ≠ sellerVote
      | _, _ => false)
    && state.eventChain.any isArbiterVote

/-- `canAttestArbiterFault`: a principal of a settled dispute. -/
def canAttestArbiterFault (state : Option EscrowState) (signer : String) : Bool :=
  state.any fun state =>
    (state.status = .completed || state.status = .cancelled)
      && arbiterRuledOnDispute state
      && (state.participants.buyer = some signer || state.participants.seller = some signer)

variable (tradeFor : String → Option EscrowState)

/-- The report of an event, where `selectArbiterFaultPairs` counts it. -/
def countedReport (event : AnnouncementEvent) : Option ArbiterFaultRecord := do
  let record ← parseArbiterFaultEvent event
  guard (record.payload.type = .fault)
  let state := tradeFor record.payload.escrowId
  guard (canAttestArbiterFault state record.signer)
  -- The named arbiter must be the one in the seat.
  guard ((state.bind fun state => state.participants.arbiter) = some record.payload.arbiter)
  return record

def countedReports (events : List AnnouncementEvent) : List ArbiterFaultRecord :=
  events.filterMap (countedReport tradeFor)

/-! ### Pairs -/

def ArbiterFaultRecord.tradeKey (r : ArbiterFaultRecord) : String :=
  r.payload.escrowId ++ "|" ++ r.payload.arbiter

def ArbiterFaultRecord.signerKey (r : ArbiterFaultRecord) : String := r.tradeKey ++ "|" ++ r.signer

/-- The first two parts of `key.split("|")`. -/
def readKey (key : String) : String × String :=
  let parts := key.toList
  let rest := (parts.dropWhile (· ≠ '|')).drop 1
  (String.ofList (parts.takeWhile (· ≠ '|')), String.ofList (rest.takeWhile (· ≠ '|')))

def pairOf (key : String) (records : List ArbiterFaultRecord) : Option ArbiterFaultPair := do
  let (escrowId, arbiter) := readKey key
  let state ← tradeFor escrowId
  let buyer ← records.find? fun r => some r.signer = state.participants.buyer
  let seller ← records.find? fun r => some r.signer = state.participants.seller
  return { escrowId, arbiter, buyer, seller, attestedAt := max buyer.createdAt seller.createdAt }

def selectArbiterFaultPairs (events : List AnnouncementEvent) : List ArbiterFaultPair :=
  let bySignerKey := newestOfEach ArbiterFaultRecord.createdAt ArbiterFaultRecord.signerKey
    (countedReports tradeFor events)
  let byTrade := OrderedMap.group ArbiterFaultRecord.tradeKey bySignerKey.values
  (byTrade.entries.filterMap fun entry => pairOf tradeFor entry.1 entry.2).insertionSort
    fun a b => a.attestedAt ≤ b.attestedAt

/-! ### Soundness -/

def SignedVote (state : EscrowState) (key : String) : Prop :=
  ∃ ve ∈ state.eventChain, isArbiterVote ve = true ∧ ve.pubkey = key

/-- A pair that accuses who it may: the arbiter voted in the trade, and the buyer and the seller of
the trade signed the reports, which are about that arbiter and that trade. -/
structure ArbiterFaultPair.Sound (p : ArbiterFaultPair) (state : EscrowState) : Prop where
  voted : SignedVote state p.arbiter
  buyer : state.participants.buyer = some p.buyer.signer
  seller : state.participants.seller = some p.seller.signer
  aboutTrade : p.buyer.payload.escrowId = p.escrowId ∧ p.seller.payload.escrowId = p.escrowId
  aboutArbiter : p.buyer.payload.arbiter = p.arbiter ∧ p.seller.payload.arbiter = p.arbiter

/-- What is asked of the selection: every list with the same events gives the same pairs, and each
of them is sound. -/
def SelectsSoundly (events : List AnnouncementEvent) : Prop :=
  (∀ events', (∀ e, e ∈ events' ↔ e ∈ events) → ∀ p,
      p ∈ selectArbiterFaultPairs tradeFor events' ↔ p ∈ selectArbiterFaultPairs tradeFor events) ∧
    ∀ p ∈ selectArbiterFaultPairs tradeFor events, ∃ state, tradeFor p.escrowId = some state ∧
      p.Sound state

def principalReports (events : List AnnouncementEvent) (key : String) (principal : Option String) :
    List ArbiterFaultRecord :=
  (countedReports tradeFor events).filter fun r => r.tradeKey = key ∧ some r.signer = principal

def OneLatest (reports : List ArbiterFaultRecord) : Prop :=
  ∀ a b, IsLatest ArbiterFaultRecord.createdAt reports a →
    IsLatest ArbiterFaultRecord.createdAt reports b → a = b

/-- Reports that are fair: where both principals of the trade that an id is read as reported, the id
has no bar, the arbiter of the trade voted in person, and no principal signed two different reports
at the latest time. -/
def FairReports (events : List AnnouncementEvent) : Prop :=
  ∀ r ∈ countedReports tradeFor events, ∀ state, tradeFor (readKey r.tradeKey).1 = some state →
    principalReports tradeFor events r.tradeKey state.participants.buyer ≠ [] →
    principalReports tradeFor events r.tradeKey state.participants.seller ≠ [] →
    '|' ∉ r.payload.escrowId.toList ∧ SignedVote state r.payload.arbiter ∧
      OneLatest (principalReports tradeFor events r.tradeKey state.participants.buyer) ∧
      OneLatest (principalReports tradeFor events r.tradeKey state.participants.seller)

/-! ### Keys -/

theorem bar_notMem_of_hex {s : String} (h : isNonEmptyHex s = true) : '|' ∉ s.toList := by
  intro hbar
  rw [isNonEmptyHex, Bool.and_eq_true, List.all_eq_true] at h
  exact absurd (h.2 _ hbar) (by decide)

/-- A report whose arbiter and signer are keys. -/
structure ArbiterFaultRecord.Plain (r : ArbiterFaultRecord) : Prop where
  arbiter : '|' ∉ r.payload.arbiter.toList
  signer : '|' ∉ r.signer.toList

variable {tradeFor} {events : List AnnouncementEvent}

variable {r : ArbiterFaultRecord}

theorem plain_of_counted (h : r ∈ countedReports tradeFor events) : r.Plain := by
  obtain ⟨event, -, hevent⟩ := List.mem_filterMap.mp h
  simp only [countedReport, Option.bind_eq_bind, Option.bind_eq_some_iff, Option.pure_def,
    Option.some.injEq, Option.guard_eq_some'] at hevent
  obtain ⟨record, hparse, -, -, -, -, -, -, rfl⟩ := hevent
  simp only [parseArbiterFaultEvent, Option.bind_eq_bind, Option.bind_eq_some_iff, Option.pure_def,
    Option.some.injEq, Option.guard_eq_some'] at hparse
  obtain ⟨-, -, -, hsigner, content, -, type, -, escrowId, -, -, -, arbiter, -, -, harbiter,
    rfl⟩ := hparse
  exact ⟨bar_notMem_of_hex harbiter, bar_notMem_of_hex hsigner⟩

theorem toList_tradeKey (r : ArbiterFaultRecord) :
    r.tradeKey.toList = r.payload.escrowId.toList ++ '|' :: r.payload.arbiter.toList := by
  rw [ArbiterFaultRecord.tradeKey, String.toList_append, String.toList_append, List.append_assoc]
  rfl

theorem tradeKey_inj {r r' : ArbiterFaultRecord} (hr : r.Plain) (hr' : r'.Plain)
    (h : r.tradeKey = r'.tradeKey) :
    r.payload.escrowId = r'.payload.escrowId ∧ r.payload.arbiter = r'.payload.arbiter := by
  have hlist := congrArg String.toList h
  rw [toList_tradeKey, toList_tradeKey] at hlist
  obtain ⟨hid, harbiter⟩ := append_cons_inj_of_notMem_right hr.arbiter hr'.arbiter hlist
  exact ⟨String.toList_injective hid, String.toList_injective harbiter⟩

theorem signerKey_eq_iff {r r' : ArbiterFaultRecord} (hr : r.Plain) (hr' : r'.Plain) :
    r.signerKey = r'.signerKey ↔ r.tradeKey = r'.tradeKey ∧ r.signer = r'.signer := by
  constructor
  · intro h
    have hlist := congrArg String.toList h
    simp only [ArbiterFaultRecord.signerKey, String.toList_append, List.append_assoc] at hlist
    obtain ⟨hkey, hsigner⟩ := append_cons_inj_of_notMem_right hr.signer hr'.signer hlist
    exact ⟨String.toList_injective hkey, String.toList_injective hsigner⟩
  · rintro ⟨hkey, hsigner⟩
    rw [ArbiterFaultRecord.signerKey, ArbiterFaultRecord.signerKey, hkey, hsigner]

theorem bar_notMem_readKey (key : String) : '|' ∉ (readKey key).1.toList := by
  intro hbar
  rw [readKey, String.toList_ofList] at hbar
  have hne := List.mem_takeWhile_imp hbar
  exact absurd hne (by decide)

theorem readKey_tradeKey (hr : r.Plain) (hid : '|' ∉ r.payload.escrowId.toList) :
    readKey r.tradeKey = (r.payload.escrowId, r.payload.arbiter) := by
  have hplain {s : String} (hs : '|' ∉ s.toList) :
      ∀ c ∈ s.toList, (decide (c ≠ '|')) = true := by
    intro c hc
    rw [decide_eq_true_eq]
    rintro rfl
    exact hs hc
  have hdrop : r.tradeKey.toList.dropWhile (· ≠ '|') = '|' :: r.payload.arbiter.toList := by
    rw [toList_tradeKey, List.dropWhile_append_of_pos (hplain hid),
      List.dropWhile_cons_of_neg (by simp)]
  have htake : r.tradeKey.toList.takeWhile (· ≠ '|') = r.payload.escrowId.toList := by
    rw [toList_tradeKey, List.takeWhile_append_of_pos (hplain hid),
      List.takeWhile_cons_of_neg (by simp), List.append_nil]
  have harbiter : r.payload.arbiter.toList.takeWhile (· ≠ '|') = r.payload.arbiter.toList :=
    List.takeWhile_eq_self_iff.mpr (hplain hr.arbiter)
  rw [readKey, htake, hdrop, List.drop_one, List.tail_cons, harbiter, String.ofList_toList,
    String.ofList_toList]

/-! ### What is selected -/

def keptReports (tradeFor : String → Option EscrowState) (events : List AnnouncementEvent) :
    List ArbiterFaultRecord :=
  (newestOfEach ArbiterFaultRecord.createdAt ArbiterFaultRecord.signerKey
    (countedReports tradeFor events)).values

variable {principal : Option String} {key : String}

theorem filter_signerKey (h : r ∈ principalReports tradeFor events key principal) :
    (countedReports tradeFor events).filter (fun b => b.signerKey = r.signerKey) =
      principalReports tradeFor events key principal := by
  obtain ⟨hr, hkey⟩ := List.mem_filter.mp h
  rw [decide_eq_true_eq] at hkey
  refine List.filter_congr fun b hb => ?_
  rw [decide_eq_decide, signerKey_eq_iff (plain_of_counted hb) (plain_of_counted hr), hkey.1,
    ← hkey.2, Option.some.injEq]

theorem mem_kept (h : r ∈ principalReports tradeFor events key principal) :
    r ∈ keptReports tradeFor events ↔
      newest ArbiterFaultRecord.createdAt (principalReports tradeFor events key principal)
        = some r := by
  rw [keptReports, mem_values_newestOfEach, filter_signerKey h]

theorem find_principal (key : String) (principal : Option String) :
    (((keptReports tradeFor events).filter fun r => r.tradeKey = key).find?
        fun r => some r.signer = principal) =
      newest ArbiterFaultRecord.createdAt (principalReports tradeFor events key principal) := by
  have hcounted : ∀ r, r ∈ keptReports tradeFor events → r.tradeKey = key →
      some r.signer = principal → r ∈ principalReports tradeFor events key principal := by
    intro r hr hkey hsigner
    rw [keptReports, mem_values_newestOfEach] at hr
    have hmem := (List.mem_filter.mp (isLatest_of_newest hr).1).1
    exact List.mem_filter.mpr ⟨hmem, decide_eq_true ⟨hkey, hsigner⟩⟩
  cases hfind : ((keptReports tradeFor events).filter fun r => r.tradeKey = key).find?
      fun r => some r.signer = principal with
  | some r =>
    have hmem := List.mem_of_find?_eq_some hfind
    have hsigner := List.find?_some hfind
    rw [List.mem_filter, decide_eq_true_eq] at hmem
    rw [decide_eq_true_eq] at hsigner
    exact ((mem_kept (hcounted r hmem.1 hmem.2 hsigner)).mp hmem.1).symm
  | none =>
    rw [eq_comm, newest_eq_none, List.eq_nil_iff_forall_not_mem]
    intro r hr
    -- Were there a report, the newest one would be found.
    cases hnewest : newest ArbiterFaultRecord.createdAt
        (principalReports tradeFor events key principal) with
    | none =>
      rw [newest_eq_none.mp hnewest] at hr
      cases hr
    | some b =>
      have hb := (isLatest_of_newest hnewest).1
      have hbkey := (List.mem_filter.mp hb).2
      rw [decide_eq_true_eq] at hbkey
      rw [List.find?_eq_none] at hfind
      refine hfind b (List.mem_filter.mpr ⟨(mem_kept hb).mpr hnewest, ?_⟩) ?_
      · exact decide_eq_true hbkey.1
      · exact decide_eq_true hbkey.2

def pairAt (key : String) (buyer seller : ArbiterFaultRecord) : ArbiterFaultPair where
  escrowId := (readKey key).1
  arbiter := (readKey key).2
  buyer
  seller
  attestedAt := max buyer.createdAt seller.createdAt

theorem mem_select {p : ArbiterFaultPair} :
    p ∈ selectArbiterFaultPairs tradeFor events ↔
      ∃ key state buyer seller, tradeFor (readKey key).1 = some state ∧
        newest ArbiterFaultRecord.createdAt
          (principalReports tradeFor events key state.participants.buyer) = some buyer ∧
        newest ArbiterFaultRecord.createdAt
          (principalReports tradeFor events key state.participants.seller) = some seller ∧
        p = pairAt key buyer seller := by
  unfold selectArbiterFaultPairs
  rw [List.mem_insertionSort, List.mem_filterMap]
  constructor
  · rintro ⟨⟨key, records⟩, hentry, hpair⟩
    obtain ⟨rfl, -⟩ := OrderedMap.get_group.mp ((OrderedMap.get_eq_some_iff _ _ _).mpr hentry)
    simp only [pairOf, Option.bind_eq_bind, Option.bind_eq_some_iff, Option.pure_def,
      Option.some.injEq] at hpair
    obtain ⟨state, hstate, buyer, hbuyer, seller, hseller, rfl⟩ := hpair
    refine ⟨key, state, buyer, seller, hstate, ?_, ?_, rfl⟩
    · rw [← find_principal]
      exact hbuyer
    · rw [← find_principal]
      exact hseller
  · rintro ⟨key, state, buyer, seller, hstate, hbuyer, hseller, rfl⟩
    have hmem : buyer ∈ (keptReports tradeFor events).filter fun r => r.tradeKey = key := by
      rw [← find_principal] at hbuyer
      exact List.mem_of_find?_eq_some hbuyer
    have hgroup : (OrderedMap.group ArbiterFaultRecord.tradeKey (keptReports tradeFor events)).get
        key = some ((keptReports tradeFor events).filter fun r => r.tradeKey = key) :=
      OrderedMap.get_group.mpr ⟨rfl, List.ne_nil_of_mem hmem⟩
    refine ⟨(key, _), (OrderedMap.get_eq_some_iff _ _ _).mp hgroup, ?_⟩
    rw [← find_principal] at hbuyer hseller
    simp only [pairOf, hstate, Option.bind_eq_bind, Option.bind_some, hbuyer, hseller]
    rfl

/-! ### Fair reports -/

theorem mem_principalReports :
    r ∈ principalReports tradeFor events key principal ↔
      r ∈ countedReports tradeFor events ∧ r.tradeKey = key ∧ some r.signer = principal := by
  rw [principalReports, List.mem_filter, decide_eq_true_eq]

variable {events' : List AnnouncementEvent}

theorem mem_principalReports_congr (h : ∀ e, e ∈ events' ↔ e ∈ events) :
    r ∈ principalReports tradeFor events' key principal ↔
      r ∈ principalReports tradeFor events key principal := by
  simp only [mem_principalReports, countedReports, List.mem_filterMap, h]

theorem exists_newest (h : ∀ e, e ∈ events' ↔ e ∈ events)
    (hr : newest ArbiterFaultRecord.createdAt (principalReports tradeFor events' key principal)
      = some r) :
    ∃ r', newest ArbiterFaultRecord.createdAt (principalReports tradeFor events key principal)
      = some r' := by
  rw [← Option.ne_none_iff_exists', Ne, newest_eq_none]
  have hmem := (mem_principalReports_congr h).mp (isLatest_of_newest hr).1
  exact List.ne_nil_of_mem hmem

theorem exists_events_of_latest {b : ArbiterFaultRecord}
    (h : IsLatest ArbiterFaultRecord.createdAt (principalReports tradeFor events key principal) b) :
    ∃ events', (∀ e, e ∈ events' ↔ e ∈ events) ∧ newest ArbiterFaultRecord.createdAt
      (principalReports tradeFor events' key principal) = some b := by
  obtain ⟨hmem, hlatest⟩ := h
  obtain ⟨hcounted, hkey⟩ := mem_principalReports.mp hmem
  obtain ⟨e, he, hreport⟩ := List.mem_filterMap.mp hcounted
  refine ⟨e :: events, fun e' => ?_, ?_⟩
  · rw [List.mem_cons]
    exact ⟨fun h => h.elim (fun heq => heq ▸ he) id, Or.inr⟩
  · have hcons : principalReports tradeFor (e :: events) key principal =
        b :: principalReports tradeFor events key principal := by
      rw [principalReports, countedReports, List.filterMap_cons_some hreport]
      exact List.filter_cons_of_pos (decide_eq_true hkey)
    rw [hcons]
    exact newest_cons_of_latest hlatest

variable {state : EscrowState}

variable {buyer seller : ArbiterFaultRecord}

theorem newest_fair (hfair : FairReports tradeFor events)
    (hstate : tradeFor (readKey key).1 = some state) (hbuyer : newest ArbiterFaultRecord.createdAt
      (principalReports tradeFor events key state.participants.buyer) = some buyer)
    (hseller : newest ArbiterFaultRecord.createdAt
      (principalReports tradeFor events key state.participants.seller) = some seller) :
    (pairAt key buyer seller).Sound state ∧
      OneLatest (principalReports tradeFor events key state.participants.buyer) ∧
      OneLatest (principalReports tradeFor events key state.participants.seller) := by
  have hb := (isLatest_of_newest hbuyer).1
  have hs := (isLatest_of_newest hseller).1
  obtain ⟨hcounted, hkey, hsigner⟩ := mem_principalReports.mp hb
  obtain ⟨hcounted', hkey', hsigner'⟩ := mem_principalReports.mp hs
  subst hkey
  obtain ⟨hid, hvoted, hone, hone'⟩ := hfair buyer hcounted state hstate
    (List.ne_nil_of_mem hb) (List.ne_nil_of_mem hs)
  have hread := readKey_tradeKey (plain_of_counted hcounted) hid
  obtain ⟨hsameId, hsameArbiter⟩ :=
    tradeKey_inj (plain_of_counted hcounted') (plain_of_counted hcounted) hkey'
  refine ⟨⟨?_, hsigner.symm, hsigner'.symm, ?_, ?_⟩, hone, hone'⟩
  · rw [pairAt, hread]
    exact hvoted
  · rw [pairAt, hread]
    exact ⟨rfl, hsameId⟩
  · rw [pairAt, hread]
    exact ⟨rfl, hsameArbiter⟩

theorem selectsSoundly_of_fair (hfair : FairReports tradeFor events) :
    SelectsSoundly tradeFor events := by
  constructor
  · intro events' hsame p
    rw [mem_select, mem_select]
    constructor
    · rintro ⟨key, state, buyer, seller, hstate, hbuyer, hseller, rfl⟩
      -- The principals have reports in both lists, so the newest are the same.
      obtain ⟨b, hb⟩ := exists_newest hsame hbuyer
      obtain ⟨s, hs⟩ := exists_newest hsame hseller
      obtain ⟨-, hone, hone'⟩ := newest_fair hfair hstate hb hs
      rw [newest_congr (fun _ => mem_principalReports_congr hsame) hone] at hbuyer
      rw [newest_congr (fun _ => mem_principalReports_congr hsame) hone'] at hseller
      exact ⟨key, state, buyer, seller, hstate, hbuyer, hseller, rfl⟩
    · rintro ⟨key, state, buyer, seller, hstate, hbuyer, hseller, rfl⟩
      obtain ⟨-, hone, hone'⟩ := newest_fair hfair hstate hbuyer hseller
      rw [← newest_congr (fun _ => mem_principalReports_congr hsame) hone] at hbuyer
      rw [← newest_congr (fun _ => mem_principalReports_congr hsame) hone'] at hseller
      exact ⟨key, state, buyer, seller, hstate, hbuyer, hseller, rfl⟩
  · intro p hp
    obtain ⟨key, state, buyer, seller, hstate, hbuyer, hseller, rfl⟩ := mem_select.mp hp
    exact ⟨state, hstate, (newest_fair hfair hstate hbuyer hseller).1⟩

theorem newest_of_sound {p : ArbiterFaultPair} (hp : p ∈ selectArbiterFaultPairs tradeFor events)
    (hstate : tradeFor p.escrowId = some state) (hsound : p.Sound state) :
    newest ArbiterFaultRecord.createdAt (principalReports tradeFor events p.buyer.tradeKey
        state.participants.buyer) = some p.buyer ∧
      newest ArbiterFaultRecord.createdAt (principalReports tradeFor events p.buyer.tradeKey
        state.participants.seller) = some p.seller := by
  obtain ⟨key, state', buyer, seller, hstate', hbuyer, hseller, rfl⟩ := mem_select.mp hp
  have hsame : state' = state := Option.some.inj (hstate'.symm.trans hstate)
  subst hsame
  obtain ⟨-, hkey, -⟩ := mem_principalReports.mp (isLatest_of_newest hbuyer).1
  have hpair : (pairAt key buyer seller).buyer.tradeKey = key := hkey
  rw [hpair]
  exact ⟨hbuyer, hseller⟩

theorem sound_at (h : SelectsSoundly tradeFor events) (hsame : ∀ e, e ∈ events' ↔ e ∈ events)
    (hstate : tradeFor (readKey key).1 = some state) (hbuyer : newest ArbiterFaultRecord.createdAt
      (principalReports tradeFor events' key state.participants.buyer) = some buyer)
    (hseller : newest ArbiterFaultRecord.createdAt
      (principalReports tradeFor events' key state.participants.seller) = some seller) :
    (pairAt key buyer seller).Sound state ∧
      newest ArbiterFaultRecord.createdAt
        (principalReports tradeFor events key state.participants.buyer) = some buyer ∧
      newest ArbiterFaultRecord.createdAt
        (principalReports tradeFor events key state.participants.seller) = some seller := by
  have hp : pairAt key buyer seller ∈ selectArbiterFaultPairs tradeFor events := by
    rw [← h.1 events' hsame]
    exact mem_select.mpr ⟨key, state, buyer, seller, hstate, hbuyer, hseller, rfl⟩
  obtain ⟨state', hstate', hsound⟩ := h.2 _ hp
  have hstates : state' = state := Option.some.inj (hstate'.symm.trans hstate)
  subst hstates
  obtain ⟨-, hkey, -⟩ := mem_principalReports.mp (isLatest_of_newest hbuyer).1
  have hnewest := newest_of_sound hp hstate' hsound
  have hpair : (pairAt key buyer seller).buyer.tradeKey = key := hkey
  rw [hpair] at hnewest
  exact ⟨hsound, hnewest⟩

theorem fair_of_selectsSoundly (h : SelectsSoundly tradeFor events) :
    FairReports tradeFor events := by
  intro r hr state hstate hbuyers hsellers
  set key := r.tradeKey with hkey
  obtain ⟨buyer, hbuyer⟩ : ∃ buyer, newest ArbiterFaultRecord.createdAt
      (principalReports tradeFor events key state.participants.buyer) = some buyer :=
    Option.ne_none_iff_exists'.mp fun hnone => hbuyers (newest_eq_none.mp hnone)
  obtain ⟨seller, hseller⟩ : ∃ seller, newest ArbiterFaultRecord.createdAt
      (principalReports tradeFor events key state.participants.seller) = some seller :=
    Option.ne_none_iff_exists'.mp fun hnone => hsellers (newest_eq_none.mp hnone)
  obtain ⟨hsound, -, -⟩ := sound_at h (fun _ => Iff.rfl) hstate hbuyer hseller
  obtain ⟨hcounted, hbuyerKey, -⟩ := mem_principalReports.mp (isLatest_of_newest hbuyer).1
  obtain ⟨hid, harbiter⟩ :=
    tradeKey_inj (plain_of_counted hcounted) (plain_of_counted hr) hbuyerKey
  refine ⟨?_, ?_, ?_, ?_⟩
  · have hread : (readKey key).1 = r.payload.escrowId := hsound.aboutTrade.1.symm.trans hid
    rw [← hread]
    exact bar_notMem_readKey key
  · have hnamed : (readKey key).2 = r.payload.arbiter := hsound.aboutArbiter.1.symm.trans harbiter
    rw [← hnamed]
    exact hsound.voted
  · -- Whichever report of the latest time is read first is the one that is selected.
    have hlatest : ∀ b, IsLatest ArbiterFaultRecord.createdAt
        (principalReports tradeFor events key state.participants.buyer) b → b = buyer := by
      intro b hb
      obtain ⟨events', hsame, hnewest⟩ := exists_events_of_latest hb
      obtain ⟨s, hs⟩ := exists_newest (fun e => (hsame e).symm) hseller
      obtain ⟨-, hboth, -⟩ := sound_at h hsame hstate hnewest hs
      exact Option.some.inj (hboth.symm.trans hbuyer)
    exact fun a b ha hb => (hlatest a ha).trans (hlatest b hb).symm
  · have hlatest : ∀ s, IsLatest ArbiterFaultRecord.createdAt
        (principalReports tradeFor events key state.participants.seller) s → s = seller := by
      intro s hs
      obtain ⟨events', hsame, hnewest⟩ := exists_events_of_latest hs
      obtain ⟨b, hb⟩ := exists_newest (fun e => (hsame e).symm) hbuyer
      obtain ⟨-, -, hboth⟩ := sound_at h hsame hstate hb hnewest
      exact Option.some.inj (hboth.symm.trans hseller)
    exact fun a b ha hb => (hlatest a ha).trans (hlatest b hb).symm

/-- The selection is sound, and the same for every order and repetition of the reports, exactly when
the reports are fair. -/
theorem fault_pairs_sound_iff (tradeFor : String → Option EscrowState)
    (events : List AnnouncementEvent) :
    SelectsSoundly tradeFor events ↔ FairReports tradeFor events :=
  ⟨fair_of_selectsSoundly, selectsSoundly_of_fair⟩

/-! ### Unfair reports -/

theorem substituteVote_id : "vote" ≠ "" := by decide

def substituteVote : ParsedEscrowEvent where
  raw := { id := "vote", pubkey := sampleHex 'd', createdAt := 100, id_ne := substituteVote_id }
  payload := .vote { outcome := .refund, role := .arbiter, votedAt := 100 }
  escrowId := "trade"

/-- A dispute that a substitute decided, while the seat stayed with the arbiter who was silent. -/
def substitutedTrade : EscrowState :=
  { lockedTrade 1000 (sampleHex 'a') with
    status := .completed
    votes := ((OrderedMap.empty.set .buyer .release).set .seller .refund).set .arbiter .refund
    actingArbiter := some (sampleHex 'd')
    eventChain := [substituteVote] }

def substitutedTrades (id : String) : Option EscrowState :=
  if id = "trade" then some substitutedTrade else none

def faultReport (signer : Char) (createdAt : ℤ) : AnnouncementEvent where
  raw :=
    { id := "report", pubkey := sampleHex signer, createdAt := .fin createdAt
      pubkey_ne := fun h => absurd (congrArg (fun s => s.toList.length) h) (by simp [sampleHex])
      createdAt_ne := JsNumber.noConfusion }
  kind := arbiterFaultKind
  content := .ok (.obj [("type", .str arbiterFaultType), ("escrowId", .str "trade"),
    ("arbiter", .str (sampleHex 'a')), ("reason", .str "bad faith"), ("at", .num (.fin createdAt))])

theorem isNonEmptyHex_sampleHex {c : Char} (h : (c.isDigit || ('a' ≤ c && c ≤ 'f')) = true) :
    isNonEmptyHex (sampleHex c) = true := by
  have hc : (c.isDigit || ('a' ≤ c && c ≤ 'f') || ('A' ≤ c && c ≤ 'F')) = true := by
    rw [h, Bool.true_or]
  rw [isNonEmptyHex, sampleHex, String.toList_ofList, List.length_replicate, List.all_replicate, hc]
  rfl

/-- What the report is read as. -/
def faultRecord (signer : Char) (createdAt : ℤ) : ArbiterFaultRecord where
  payload :=
    { type := .fault, escrowId := "trade", arbiter := sampleHex 'a'
      reason := ("bad faith".toList.flatMap codeUnits).take faultReasonMaxChars
      content := .obj [("type", .str arbiterFaultType), ("escrowId", .str "trade"),
        ("arbiter", .str (sampleHex 'a')), ("reason", .str "bad faith"),
        ("at", .num (.fin createdAt))] }
  signer := sampleHex signer
  createdAt
  eventId := "report"

theorem parse_faultReport {signer : Char}
    (h : (signer.isDigit || ('a' ≤ signer && signer ≤ 'f')) = true) (createdAt : ℤ) :
    parseArbiterFaultEvent (faultReport signer createdAt) =
      some (faultRecord signer createdAt) := by
  have hsigner : isNonEmptyHex (faultReport signer createdAt).raw.pubkey = true :=
    isNonEmptyHex_sampleHex h
  have harbiter : isNonEmptyHex (sampleHex 'a') = true := isNonEmptyHex_sampleHex (by decide)
  have hkind : (faultReport signer createdAt).kind = arbiterFaultKind := rfl
  have hcontent : (faultReport signer createdAt).content.toOption =
      some (faultRecord signer createdAt).payload.content := rfl
  have htype : faultType? (faultRecord signer createdAt).payload.content = some .fault := rfl
  have hid : ((faultRecord signer createdAt).payload.content.field "escrowId").text? =
      some "trade" := rfl
  have hne : "trade" ≠ "" := by decide
  have hnamed : ((faultRecord signer createdAt).payload.content.field "arbiter").text? =
      some (sampleHex 'a') := rfl
  simp only [parseArbiterFaultEvent, hkind, hsigner, hcontent, htype, hid, hne, hnamed, harbiter,
    guard_true, Option.pure_def, Option.bind_eq_bind, Option.bind_some, not_false_eq_true, ne_eq]
  rfl

theorem canAttest_substitutedTrade {signer : String}
    (h : signer = sampleHex 'b' ∨ signer = sampleHex 'c') :
    canAttestArbiterFault (some substitutedTrade) signer = true := by
  have hseat : substitutedTrade.participants.arbiter.any (· ≠ "") = true := by
    have hne : sampleHex 'a' ≠ "" := fun heq =>
      absurd (congrArg (fun s => s.toList.length) heq) (by simp [sampleHex])
    exact decide_eq_true hne
  have hruled : arbiterRuledOnDispute substitutedTrade = true := by
    rw [arbiterRuledOnDispute, hseat]
    rfl
  have hprincipal : (decide (substitutedTrade.participants.buyer = some signer) ||
      decide (substitutedTrade.participants.seller = some signer)) = true := by
    rw [Bool.or_eq_true, decide_eq_true_eq, decide_eq_true_eq]
    exact h.imp (fun heq => congrArg some heq.symm) fun heq => congrArg some heq.symm
  rw [canAttestArbiterFault, Option.any_some, hruled, hprincipal]
  rfl

theorem counted_faultReport {signer : Char} (h : signer = 'b' ∨ signer = 'c') (createdAt : ℤ) :
    countedReport substitutedTrades (faultReport signer createdAt) =
      some (faultRecord signer createdAt) := by
  have hhex : (signer.isDigit || ('a' ≤ signer && signer ≤ 'f')) = true := by
    rcases h with rfl | rfl <;> decide
  have hattest : canAttestArbiterFault (some substitutedTrade)
      (faultRecord signer createdAt).signer = true :=
    canAttest_substitutedTrade (h.imp (congrArg sampleHex) (congrArg sampleHex))
  have htype : (faultRecord signer createdAt).payload.type = .fault := rfl
  have htrade : substitutedTrades (faultRecord signer createdAt).payload.escrowId =
      some substitutedTrade := if_pos rfl
  have hseat : ((some substitutedTrade).bind fun state => state.participants.arbiter) =
      some (faultRecord signer createdAt).payload.arbiter := rfl
  simp only [countedReport, parse_faultReport hhex, htype, htrade, hattest, hseat, guard_true,
    Option.pure_def, Option.bind_eq_bind, Option.bind_some]

/-- Both principals of a dispute that a substitute decided report the arbiter in the seat: the pair
names an arbiter who did not vote. -/
theorem fault_pairs_unsound : ¬ SelectsSoundly substitutedTrades
    [faultReport 'b' 200, faultReport 'c' 260] := by
  intro h
  have hcounted : countedReports substitutedTrades
      [faultReport 'b' 200, faultReport 'c' 260] = [faultRecord 'b' 200, faultRecord 'c' 260] := by
    rw [countedReports, List.filterMap_cons_some (counted_faultReport (Or.inl rfl) 200),
      List.filterMap_cons_some (counted_faultReport (Or.inr rfl) 260), List.filterMap_nil]
  have hb : faultRecord 'b' 200 ∈ countedReports substitutedTrades
      [faultReport 'b' 200, faultReport 'c' 260] := by
    rw [hcounted]
    exact List.mem_cons_self
  have hc : faultRecord 'c' 260 ∈ countedReports substitutedTrades
      [faultReport 'b' 200, faultReport 'c' 260] := by
    rw [hcounted]
    exact List.mem_cons_of_mem _ List.mem_cons_self
  have hread : readKey (faultRecord 'b' 200).tradeKey = ("trade", sampleHex 'a') :=
    readKey_tradeKey (plain_of_counted hb) (show '|' ∉ "trade".toList by decide)
  have htrade : substitutedTrades (readKey (faultRecord 'b' 200).tradeKey).1 =
      some substitutedTrade := by
    rw [hread]
    exact if_pos rfl
  obtain ⟨-, hvoted, -⟩ := fair_of_selectsSoundly h (faultRecord 'b' 200) hb substitutedTrade htrade
    (List.ne_nil_of_mem (mem_principalReports.mpr ⟨hb, rfl, rfl⟩))
    (List.ne_nil_of_mem (mem_principalReports.mpr ⟨hc, rfl, rfl⟩))
  obtain ⟨ve, hve, -, hsigned⟩ := hvoted
  obtain rfl := List.mem_singleton.mp hve
  have hsame : sampleHex 'd' = sampleHex 'a' := hsigned
  exact absurd (sampleHex_injective hsame) (by decide)

end ChamaEscrow.Bond
