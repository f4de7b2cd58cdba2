import ChamaEscrow.Client.PremiumOutbox
import ChamaEscrow.Js.Monotone
import ChamaEscrow.Trade.Lifecycle

/-!
# The index of trades

`escrow-engine/trade-index.ts`: what a client remembers of its trades, merged from the snapshots of
a trade that it is shown, in whatever order a relay's partial replays come.

A status of a higher rank stays.  Along a run the rank only rises, but for an expired trade, which
can still be approved: `trade_index_iff` says that this, and snapshots that tell the trade's terms
differently, is when the index depends on the order of the snapshots.
-/

namespace ChamaEscrow

open Js Library

/-- What an entry says of the trade itself. -/
structure TradeSummary where
  id : String
  category : String
  amountMsats : JsNumber
  community : Option String
  role : Role
  counterparty : Option String
  description : String

structure TradeIndexEntry extends TradeSummary where
  lastStatus : EscrowStatus
  createdAt : JsNumber
  lastActivityAt : JsNumber
  enteredAt : JsNumber
  creator : Option String
  updatedAt : ℤ

abbrev TradeIndex := OrderedMap String TradeIndexEntry

def tradeIndexMax : ℕ := 500

def EscrowStatus.statusRank : EscrowStatus → ℕ
  | created => 0
  | locked => 1
  | approved => 2
  | claimed => 3
  | completed | expired | cancelled => 4

def userRoleInTrade (state : EscrowState) (userPubkey : Option String) : Option Role :=
  if samePubkey state.participants.buyer userPubkey then some .buyer
  else if samePubkey state.participants.seller userPubkey then some .seller
  else if samePubkey state.participants.arbiter userPubkey then some .arbiter
  else if samePubkey (some state.initiator.pubkey) userPubkey then some state.initiator.role
  else none

def EscrowState.createEvent? (state : EscrowState) : Option ParsedEscrowEvent :=
  state.eventChain.find? fun e => e.kind = .create

section Entries

variable (verifyEvent : NostrEvent → Bool)

def hasVerifiedTradeCreate (state : EscrowState) : Bool :=
  state.createEvent?.any fun create =>
    create.raw.tags.any (fun tag => tag[0]? = some "d" && tag[1]? = some state.id)
      && verifyEvent create.raw

def signedTradeCreatedAt (state : EscrowState) : JsNumber :=
  match state.createEvent?.filter fun e => e.timestamp.isFinite && 0 < e.timestamp with
  | some create => create.timestamp
  | none => if state.createdAt.isFinite && 0 < state.createdAt then state.createdAt else 0

/-- `Math.max(state.createdAt || 0, ...times)`. -/
def latestOf (state : EscrowState) (times : List JsNumber) : JsNumber :=
  times.foldl JsNumber.max (if state.createdAt = .nan then 0 else state.createdAt)

def signedTradeActivityAt (state : EscrowState) : JsNumber :=
  latestOf state <| state.eventChain.map (·.timestamp) ++ state.settlements.map (·.raw.createdAt)
    ++ state.chatMessages.map (·.timestamp) ++ state.premiumNotes.map (·.timestamp)

def signedTradeEnteredAt (state : EscrowState) : JsNumber :=
  latestOf state ((state.eventChain.filter fun e => e.kind = .join).map (·.timestamp))

def tradeCreator (state : EscrowState) : Option String :=
  if hasVerifiedTradeCreate verifyEvent state then some (toLowerCase state.initiator.pubkey)
  else none

def tradeSummary (state : EscrowState) (role : Role) : TradeSummary where
  id := state.id
  category := state.category
  amountMsats := state.amountMsats
  community := state.community
  role
  counterparty :=
    match role with
    | .buyer => state.participants.seller
    | .seller => state.participants.buyer
    | .arbiter => state.participants.buyer.or state.participants.seller
  description := state.description

def deriveTradeIndexEntry (state : EscrowState) (userPubkey : Option String) (nowMs : ℤ) :
    Option TradeIndexEntry :=
  (userRoleInTrade state userPubkey).map fun role =>
    { tradeSummary state role with
      lastStatus := state.status
      createdAt := signedTradeCreatedAt state
      lastActivityAt := signedTradeActivityAt state
      enteredAt := signedTradeEnteredAt state
      creator := tradeCreator verifyEvent state
      updatedAt := nowMs }

def mergeTradeIndexEntry (state : EscrowState) (prev entry : TradeIndexEntry) : TradeIndexEntry :=
  { entry with
    lastStatus := if entry.lastStatus.statusRank < prev.lastStatus.statusRank then prev.lastStatus
      else entry.lastStatus
    createdAt := if state.createEvent?.isNone && 0 < prev.createdAt then prev.createdAt
      else entry.createdAt
    lastActivityAt := prev.lastActivityAt.max entry.lastActivityAt
    creator := (truthyKey prev.creator).or entry.creator
    enteredAt := prev.enteredAt.max entry.enteredAt }

def TradeIndex.merged (idx : TradeIndex) (state : EscrowState) (entry : TradeIndexEntry) :
    TradeIndexEntry :=
  match idx.get entry.id with
  | some prev => mergeTradeIndexEntry state prev entry
  | none =>
    if entry.id ∈ inheritedNames then
      { entry with
        lastActivityAt := JsNumber.max 0 entry.lastActivityAt
        enteredAt := JsNumber.max 0 entry.enteredAt }
    else entry

def recordTradeToIndex (userPubkey : Option String) (idx : TradeIndex)
    (call : EscrowState × ℤ) : TradeIndex :=
  match deriveTradeIndexEntry verifyEvent call.1 userPubkey call.2 with
  | none => idx
  | some entry =>
    -- an assignment to this name sets the prototype, and makes no entry
    if entry.id = "__proto__" then idx
    else evictOldest TradeIndexEntry.updatedAt tradeIndexMax
      (idx.set entry.id (idx.merged call.1 entry))

def indexAfter (userPubkey : Option String) (calls : List (EscrowState × ℤ)) : TradeIndex :=
  calls.foldl (recordTradeToIndex verifyEvent userPubkey) .empty

end Entries

/-! ### Snapshots of one trade -/

def Later (host : Host) (s : EscrowState) : EscrowState → Prop :=
  Run (applyToState host) (s = ·) fun _ _ => True

structure SameTrade (s t : EscrowState) : Prop where
  terms : t.toTradeTerms = s.toTradeTerms
  create : t.createEvent? = s.createEvent?
  created : s.createEvent?.isSome = true

variable {host : Host} {s t : EscrowState}

theorem Reached.created (h : Reached host s) : s.createEvent?.isSome = true := by
  refine Reachable.invariant (I := fun s => s.createEvent?.isSome = true) (fun s hs => ?_)
    (fun s e s' hs h => ?_) h
  · obtain ⟨e, p, hborn⟩ := hs.newborn
    simp [EscrowState.createEvent?, hborn.eventChain, ParsedEscrowEvent.kind, hborn.payload,
      EscrowPayload.kind]
  · unfold EscrowState.createEvent? at hs ⊢
    rcases (applyToState_stepped h).eventChain with hchain | hchain
    · rw [hchain]
      exact hs
    · rw [hchain, List.find?_append]
      simp [hs]

theorem Later.same (hs : Reached host s) (h : Later host s t) : SameTrade s t := by
  refine Run.invariant (fun t ht => ?_) (fun t e t' _ hst h => ?_) h
  · rw [← ht]
    exact ⟨rfl, rfl, hs.created⟩
  · have hstep := applyToState_stepped h
    refine ⟨hstep.terms.trans hst.terms, ?_, hst.created⟩
    rw [← hst.create]
    unfold EscrowState.createEvent?
    rcases hstep.eventChain with hchain | hchain
    · rw [hchain]
    · obtain ⟨create, hcreate⟩ := Option.isSome_iff_exists.mp (hst.create ▸ hst.created)
      unfold EscrowState.createEvent? at hcreate
      rw [hchain, List.find?_append, hcreate, Option.some_or]

theorem Later.reached (hs : Reached host s) (h : Later host s t) : Reached host t :=
  Run.invariant (fun t (ht : s = t) => ht ▸ hs) (fun _ _ _ _ ht h => Reachable.next ht h) h

theorem Later.status (h : Later host s t) :
    t.status = s.status ∨ s.status.rank < t.status.rank := by
  refine Run.invariant (I := fun t => t.status = s.status ∨ s.status.rank < t.status.rank)
    (fun t ht => Or.inl (congrArg _ ht.symm)) (fun t e t' _ hst h => ?_) h
  rcases (applyToState_stepped h).moves.published with hsame | hpublished
  · rw [hsame]
    exact hst
  · right
    have hlt := hpublished.rank_lt
    rcases hst with hst | hst
    · rwa [← hst]
    · exact hst.trans hlt

theorem Later.statusRank (h : Later host s t) (hne : t.status ≠ s.status)
    (hexpired : s.status ≠ .expired) : s.status.statusRank < t.status.statusRank := by
  have hlt := h.status.resolve_left hne
  revert hlt hexpired
  cases s.status <;> cases t.status <;> decide

/-! ### Times -/

variable {times : List JsNumber}

theorem latestOf_ne_nan (h : ∀ t ∈ times, t ≠ .nan) : latestOf s times ≠ .nan := by
  unfold latestOf
  have hstart : (if s.createdAt = .nan then (0 : JsNumber) else s.createdAt) ≠ .nan := by
    split_ifs with hnan
    · nofun
    · exact hnan
  revert hstart
  generalize (if s.createdAt = .nan then (0 : JsNumber) else s.createdAt) = start
  induction times generalizing start with
  | nil => exact id
  | cons t times ih =>
    intro hstart
    rw [List.forall_mem_cons] at h
    exact ih h.2 _ (JsNumber.max_cases (· ≠ .nan) hstart h.1 ⟨hstart, h.1⟩)

theorem activity_ne_nan (s : EscrowState) : signedTradeActivityAt s ≠ .nan := by
  apply latestOf_ne_nan
  simp only [List.mem_append, List.mem_map]
  rintro t (((⟨e, -, rfl⟩ | ⟨e, -, rfl⟩) | ⟨e, -, rfl⟩) | ⟨e, -, rfl⟩) <;> exact e.raw.createdAt_ne

theorem entered_ne_nan (s : EscrowState) : signedTradeEnteredAt s ≠ .nan := by
  apply latestOf_ne_nan
  simp only [List.mem_map]
  rintro t ⟨e, -, rfl⟩
  exact e.raw.createdAt_ne

def IsLatest (times : List JsNumber) (v : JsNumber) : Prop := v ∈ times ∧ ∀ t ∈ times, t ≤ v

theorem isLatest_singleton {t : JsNumber} (ht : t ≠ .nan) : IsLatest [t] t := by
  refine ⟨List.mem_singleton_self t, fun u hu => ?_⟩
  rw [List.mem_singleton.mp hu]
  exact JsNumber.le_refl ht

theorem IsLatest.concat {v t : JsNumber} (h : IsLatest times v)
    (ht : t ≠ .nan) : IsLatest (times ++ [t]) (v.max t) := by
  obtain ⟨hmem, hle⟩ := h
  have hv : v ≠ .nan := (JsNumber.ne_nan_of_le (hle v hmem)).1
  constructor
  · exact JsNumber.max_cases (· ∈ times ++ [t]) (List.mem_append_left _ hmem)
      (List.mem_append_right _ (List.mem_singleton_self t)) ⟨hv, ht⟩
  · intro u hu
    rcases List.mem_append.mp hu with hu | hu
    · exact JsNumber.le_trans (hle u hu) (JsNumber.le_max_left hv ht)
    · rw [List.mem_singleton.mp hu]
      exact JsNumber.le_max_right hv ht

theorem IsLatest.unique {times times' : List JsNumber} {v v' : JsNumber} (h : IsLatest times v)
    (h' : IsLatest times' v') (hmem : ∀ t, t ∈ times ↔ t ∈ times') : v = v' :=
  JsNumber.eq_of_le_of_le (h'.2 v ((hmem v).mp h.1)) (h.2 v' ((hmem v').mpr h'.1))

/-! ### The entry of a trade -/

section Entry

variable {verifyEvent : NostrEvent → Bool} {userPubkey : Option String}
  {calls calls' : List (EscrowState × ℤ)} {first : EscrowState}

def isParty (userPubkey : Option String) (s : EscrowState) : Bool :=
  (userRoleInTrade s userPubkey).isSome

def recordedStates (userPubkey : Option String) (calls : List (EscrowState × ℤ)) :
    List EscrowState :=
  (calls.map Prod.fst).filter (isParty userPubkey)

def clockStart (first : EscrowState) : List JsNumber :=
  if first.id ∈ inheritedNames then [0] else []

/-- The entry that a list of snapshots makes, `last` the last of them. -/
structure Merged (verifyEvent : NostrEvent → Bool) (userPubkey : Option String)
    (first : EscrowState) (l : List EscrowState) (last : EscrowState) (entry : TradeIndexEntry) :
    Prop where
  summary : (userRoleInTrade last userPubkey).map (tradeSummary last) = some entry.toTradeSummary
  status : ∃ s ∈ l, entry.lastStatus = s.status
  ranked : ∀ s ∈ l, s.status.statusRank ≤ entry.lastStatus.statusRank
  latest : entry.lastStatus = last.status ∨
    last.status.statusRank < entry.lastStatus.statusRank
  createdAt : entry.createdAt = signedTradeCreatedAt first
  activity : IsLatest (clockStart first ++ l.map signedTradeActivityAt) entry.lastActivityAt
  entered : IsLatest (clockStart first ++ l.map signedTradeEnteredAt) entry.enteredAt
  creator : entry.creator = tradeCreator verifyEvent first

theorem SameTrade.createdAt (h : SameTrade first s) :
    signedTradeCreatedAt s = signedTradeCreatedAt first := by
  have htime : s.createdAt = first.createdAt := congrArg TradeTerms.createdAt h.terms
  unfold signedTradeCreatedAt
  rw [h.create, htime]

theorem SameTrade.creator (h : SameTrade first s) :
    tradeCreator verifyEvent s = tradeCreator verifyEvent first := by
  have hid : s.id = first.id := congrArg TradeTerms.id h.terms
  have hinitiator : s.initiator = first.initiator := congrArg TradeTerms.initiator h.terms
  unfold tradeCreator hasVerifiedTradeCreate
  rw [h.create, hid, hinitiator]

theorem SameTrade.sameId (h : SameTrade first s) : s.id = first.id := congrArg TradeTerms.id h.terms

variable {entry : TradeIndexEntry}

theorem clockStart_latest {v : JsNumber} (hv : v ≠ .nan) :
    IsLatest (clockStart first ++ [v])
      (if first.id ∈ inheritedNames then JsNumber.max 0 v else v) := by
  have hzero : IsLatest [0] (0 : JsNumber) := isLatest_singleton nofun
  unfold clockStart
  split_ifs
  · exact hzero.concat hv
  · exact isLatest_singleton hv

theorem Merged.start {idx : TradeIndex} {now : ℤ}
    (h : deriveTradeIndexEntry verifyEvent s userPubkey now = some entry)
    (hsame : SameTrade first s) (hget : idx.get first.id = none) :
    Merged verifyEvent userPubkey first [s] s (idx.merged s entry) := by
  obtain ⟨role, hrole, rfl⟩ := Option.map_eq_some_iff.mp h
  have hid : (tradeSummary s role).id = first.id := hsame.sameId
  have hactivity := @clockStart_latest first _ (activity_ne_nan s)
  have hentered := @clockStart_latest first _ (entered_ne_nan s)
  have hranked : ∀ t ∈ [s], t.status.statusRank ≤ s.status.statusRank := by
    intro t ht
    rw [List.mem_singleton.mp ht]
  unfold TradeIndex.merged
  dsimp only
  rw [hid, hget]
  split_ifs at hactivity hentered ⊢ <;>
    exact ⟨by rw [hrole]; rfl, ⟨s, List.mem_singleton_self s, rfl⟩, hranked, Or.inl rfl,
      hsame.createdAt, hactivity, hentered, hsame.creator⟩

/-- One more. -/
theorem Merged.concat {idx : TradeIndex} {l : List EscrowState} {last : EscrowState}
    {prev entry : TradeIndexEntry} {now : ℤ} (h : Merged verifyEvent userPubkey first l last prev)
    (hentry : deriveTradeIndexEntry verifyEvent s userPubkey now = some entry)
    (hsame : SameTrade first s) (hget : idx.get first.id = some prev) :
    Merged verifyEvent userPubkey first (l ++ [s]) s (idx.merged s entry) := by
  obtain ⟨role, hrole, rfl⟩ := Option.map_eq_some_iff.mp hentry
  have hid : (tradeSummary s role).id = first.id := hsame.sameId
  have hs : s ∈ l ++ [s] := List.mem_append_right _ (List.mem_singleton_self s)
  obtain ⟨t, ht, hprev⟩ := h.status
  unfold TradeIndex.merged
  dsimp only
  rw [hid, hget]
  refine ⟨by rw [hrole]; rfl, ?_, ?_, ?_, ?_, ?_, ?_, ?_⟩
  · dsimp only [mergeTradeIndexEntry]
    split_ifs
    · exact ⟨t, List.mem_append_left _ ht, hprev⟩
    · exact ⟨s, hs, rfl⟩
  · intro u hu
    dsimp only [mergeTradeIndexEntry]
    rcases List.mem_append.mp hu with hu | hu
    · have hrank := h.ranked u hu
      split_ifs <;> omega
    · rw [List.mem_singleton.mp hu]
      split_ifs <;> omega
  · dsimp only [mergeTradeIndexEntry]
    split_ifs with hlt
    · exact Or.inr hlt
    · exact Or.inl rfl
  · have hcreate : s.createEvent?.isNone = false := by
      rw [hsame.create]
      simpa using hsame.created
    simp only [mergeTradeIndexEntry, hcreate, Bool.false_and, Bool.false_eq_true, if_false]
    exact hsame.createdAt
  · rw [List.map_append, ← List.append_assoc]
    exact h.activity.concat (activity_ne_nan s)
  · rw [List.map_append, ← List.append_assoc]
    exact h.entered.concat (entered_ne_nan s)
  · dsimp only [mergeTradeIndexEntry]
    rw [h.creator, hsame.creator]
    cases tradeCreator verifyEvent first with
    | none => rfl
    | some key => by_cases hkey : key = "" <;> simp [truthyKey, Option.filter, hkey]

theorem set_set_empty (id : String) (a b : TradeIndexEntry) :
    ((OrderedMap.empty.set id a).set id b : TradeIndex) = OrderedMap.empty.set id b := by
  simp [OrderedMap.set, OrderedMap.empty, OrderedMap.setEntries]

theorem evictOldest_single (id : String) (a : TradeIndexEntry) :
    evictOldest TradeIndexEntry.updatedAt tradeIndexMax (OrderedMap.empty.set id a) =
      OrderedMap.empty.set id a := by
  apply evictOldest_of_le
  show 1 ≤ tradeIndexMax
  decide

theorem recordedStates_concat (calls : List (EscrowState × ℤ)) (call : EscrowState × ℤ) :
    recordedStates userPubkey (calls ++ [call]) =
      recordedStates userPubkey calls ++ if isParty userPubkey call.1 then [call.1] else [] := by
  rw [recordedStates, List.map_append, List.filter_append]
  congr 1
  cases hparty : isParty userPubkey call.1 <;> simp [hparty]

theorem indexAfter_spec (hsame : ∀ call ∈ calls, SameTrade first call.1) :
    ((recordedStates userPubkey calls = [] ∨ first.id = "__proto__") ∧
        indexAfter verifyEvent userPubkey calls = .empty) ∨
      first.id ≠ "__proto__" ∧ ∃ l last entry, recordedStates userPubkey calls = l ++ [last] ∧
        indexAfter verifyEvent userPubkey calls = OrderedMap.empty.set first.id entry ∧
        Merged verifyEvent userPubkey first (l ++ [last]) last entry := by
  induction calls using List.reverseRecOn with
  | nil => exact Or.inl ⟨Or.inl rfl, rfl⟩
  | append_singleton calls call ih =>
    have hcall : SameTrade first call.1 := hsame call (by simp)
    have hbefore := ih fun c hc => hsame c (List.mem_append_left _ hc)
    have hindex : indexAfter verifyEvent userPubkey (calls ++ [call]) =
        recordTradeToIndex verifyEvent userPubkey (indexAfter verifyEvent userPubkey calls)
          call := by
      rw [indexAfter, List.foldl_append]
      rfl
    rw [recordedStates_concat, hindex]
    cases hentry : deriveTradeIndexEntry verifyEvent call.1 userPubkey call.2 with
    | none =>
      have hparty : isParty userPubkey call.1 = false := by
        rw [isParty, Option.map_eq_none_iff.mp hentry]
        rfl
      rw [recordTradeToIndex, hentry, hparty]
      simpa using hbefore
    | some entry =>
      obtain ⟨role, hrole, hmade⟩ := Option.map_eq_some_iff.mp hentry
      have hparty : isParty userPubkey call.1 = true := by
        rw [isParty, hrole]
        rfl
      have hid : entry.id = first.id := by
        rw [← hmade]
        exact hcall.sameId
      rw [recordTradeToIndex, hentry, hparty]
      dsimp only
      rw [hid, if_pos rfl]
      by_cases hproto : first.id = "__proto__"
      · rw [if_pos hproto]
        exact Or.inl ⟨Or.inr hproto, (hbefore.resolve_right fun h => h.1 hproto).2⟩
      rw [if_neg hproto]
      refine Or.inr ⟨hproto, ?_⟩
      rcases hbefore with ⟨hnone, hempty⟩ | ⟨-, l, last, prev, hrecorded, hprev, hmerged⟩
      · rw [hnone.resolve_right hproto, hempty]
        refine ⟨[], call.1, _, rfl, evictOldest_single _ _, ?_⟩
        exact Merged.start hentry hcall (OrderedMap.get_empty _)
      · rw [hrecorded, hprev, set_set_empty]
        refine ⟨l ++ [last], call.1, _, rfl, evictOldest_single _ _, ?_⟩
        exact hmerged.concat hentry hcall (by rw [OrderedMap.get_set, if_pos rfl])

theorem stored_spec (hsame : ∀ call ∈ calls, SameTrade first call.1)
    (hget : (indexAfter verifyEvent userPubkey calls).get first.id = some entry) :
    first.id ≠ "__proto__" ∧ ∃ l last, recordedStates userPubkey calls = l ++ [last] ∧
      Merged verifyEvent userPubkey first (recordedStates userPubkey calls) last entry := by
  rcases @indexAfter_spec verifyEvent userPubkey calls first hsame with
    ⟨-, hempty⟩ | ⟨hkeyed, l, last, stored, hrecorded, hindex, hmerged⟩
  · rw [hempty, OrderedMap.get_empty] at hget
    cases hget
  · rw [hindex, OrderedMap.get_set, if_pos rfl] at hget
    obtain rfl := Option.some.inj hget
    refine ⟨hkeyed, l, last, hrecorded, ?_⟩
    rw [hrecorded]
    exact hmerged

theorem exists_stored (hsame : ∀ call ∈ calls, SameTrade first call.1)
    (hkeyed : first.id ≠ "__proto__") (hrecorded : recordedStates userPubkey calls ≠ []) :
    ∃ entry, (indexAfter verifyEvent userPubkey calls).get first.id = some entry := by
  rcases @indexAfter_spec verifyEvent userPubkey calls first hsame with
    ⟨hnone, -⟩ | ⟨-, -, -, entry, -, hindex, -⟩
  · exact absurd hnone (by simp [hrecorded, hkeyed])
  · exact ⟨entry, by rw [hindex, OrderedMap.get_set, if_pos rfl]⟩

/-! ### Every order of the snapshots -/

variable {snaps shown : List EscrowState} {newest : EscrowState}

def ShownBy (snaps : List EscrowState) (calls : List (EscrowState × ℤ)) : Prop :=
  ∀ s, s ∈ calls.map Prod.fst ↔ s ∈ snaps

def TradeIndexEntry.untimed (entry : TradeIndexEntry) : TradeIndexEntry :=
  { entry with updatedAt := 0 }

structure IndexAgrees (verifyEvent : NostrEvent → Bool) (userPubkey : Option String)
    (snaps : List EscrowState) (newest : EscrowState) : Prop where
  status : ∀ calls, ShownBy snaps calls → (∃ s ∈ snaps, isParty userPubkey s = true) →
    ∃ entry, (indexAfter verifyEvent userPubkey calls).get newest.id = some entry ∧
      entry.lastStatus = newest.status
  creator : ∀ calls later entry entry', ShownBy snaps (calls ++ later) →
    (indexAfter verifyEvent userPubkey calls).get newest.id = some entry →
    (indexAfter verifyEvent userPubkey (calls ++ later)).get newest.id = some entry' →
    entry'.creator = entry.creator
  order : ∀ calls calls', ShownBy snaps calls → ShownBy snaps calls' →
    ((indexAfter verifyEvent userPubkey calls).get newest.id).map TradeIndexEntry.untimed =
      ((indexAfter verifyEvent userPubkey calls').get newest.id).map TradeIndexEntry.untimed

def indexSummary (userPubkey : Option String) (s : EscrowState) : Option TradeSummary :=
  (userRoleInTrade s userPubkey).map (tradeSummary s)

/-- One snapshot that is indexed has the newest status, none is expired before it, and they all
tell the same of the trade. -/
structure Unambiguous (userPubkey : Option String) (snaps : List EscrowState)
    (newest : EscrowState) : Prop where
  keyed : newest.id ≠ "__proto__"
  seen : ∃ s ∈ snaps, isParty userPubkey s = true ∧ s.status = newest.status
  settled : ∀ s ∈ snaps, isParty userPubkey s = true → s.status = .expired →
    newest.status = .expired
  told : ∀ s ∈ snaps, ∀ t ∈ snaps, isParty userPubkey s = true → isParty userPubkey t = true →
    indexSummary userPubkey s = indexSummary userPubkey t

theorem ShownBy.mem_recorded (h : ShownBy snaps calls) (s : EscrowState) :
    s ∈ recordedStates userPubkey calls ↔ s ∈ snaps ∧ isParty userPubkey s = true := by
  rw [recordedStates, List.mem_filter, h s]

theorem covers_map (h : ∀ s, s ∈ snaps ↔ s ∈ shown) (now : ℤ) :
    ShownBy snaps (shown.map fun s => (s, now)) := by
  intro s
  rw [List.map_map, show Prod.fst ∘ (fun s : EscrowState => (s, now)) = id from rfl, List.map_id, h]

theorem ShownBy.sameTrade (h : ShownBy snaps calls) (hsame : ∀ s ∈ snaps, SameTrade first s) :
    ∀ call ∈ calls, SameTrade first call.1 :=
  fun call hcall => hsame call.1 ((h _).mp (List.mem_map_of_mem hcall))

theorem ShownBy.recorded_ne_nil (h : ShownBy snaps calls)
    (hparty : ∃ s ∈ snaps, isParty userPubkey s = true) : recordedStates userPubkey calls ≠ [] := by
  intro hnone
  obtain ⟨s, hs⟩ := hparty
  have hmem := (h.mem_recorded s).mpr hs
  rw [hnone] at hmem
  cases hmem

theorem getLast_later (hlater : snaps.Pairwise (Later host))
    (hnewest : snaps.getLast? = some newest) (hs : s ∈ snaps) :
    s = newest ∨ Later host s newest := by
  obtain ⟨l, rfl⟩ := List.getLast?_eq_some_iff.mp hnewest
  rcases List.mem_append.mp hs with hs | hs
  · exact Or.inr ((List.pairwise_append.mp hlater).2.2 s hs newest (List.mem_singleton_self newest))
  · exact Or.inl (List.mem_singleton.mp hs)

theorem Unambiguous.lastStatus (h : Unambiguous userPubkey snaps newest)
    (hlater : snaps.Pairwise (Later host)) (hnewest : snaps.getLast? = some newest)
    (hcovers : ShownBy snaps calls) {last : EscrowState}
    (hmerged : Merged verifyEvent userPubkey first (recordedStates userPubkey calls) last entry) :
    entry.lastStatus = newest.status := by
  obtain ⟨s, hs, hstatus⟩ := hmerged.status
  obtain ⟨hmem, hparty⟩ := (hcovers.mem_recorded s).mp hs
  obtain ⟨r, hr, hrparty, hrstatus⟩ := h.seen
  rw [hstatus]
  by_contra hne
  have hexpired : s.status ≠ .expired := fun hexpired =>
    hne (hexpired.trans (h.settled s hmem hparty hexpired).symm)
  rcases getLast_later hlater hnewest hmem with rfl | hafter
  · exact hne rfl
  · have hlt := hafter.statusRank (Ne.symm hne) hexpired
    have hle := hmerged.ranked r ((hcovers.mem_recorded r).mpr ⟨hr, hrparty⟩)
    rw [hstatus, hrstatus] at hle
    exact absurd hlt hle.not_gt

theorem Merged.untimed {l l' : List EscrowState} {last last' : EscrowState}
    {entry entry' : TradeIndexEntry} (h : Merged verifyEvent userPubkey first l last entry)
    (h' : Merged verifyEvent userPubkey first l' last' entry') (hmem : ∀ s, s ∈ l ↔ s ∈ l')
    (hstatus : entry.lastStatus = entry'.lastStatus)
    (htold : indexSummary userPubkey last = indexSummary userPubkey last') :
    entry.untimed = entry'.untimed := by
  have htimes (f : EscrowState → JsNumber) (t : JsNumber) :
      t ∈ clockStart first ++ l.map f ↔ t ∈ clockStart first ++ l'.map f := by
    simp only [List.mem_append, List.mem_map, hmem]
  have hsummary : entry.toTradeSummary = entry'.toTradeSummary :=
    Option.some.inj (h.summary.symm.trans (htold.trans h'.summary))
  have hcreated := h.createdAt.trans h'.createdAt.symm
  have hactivity := h.activity.unique h'.activity (htimes _)
  have hentered := h.entered.unique h'.entered (htimes _)
  have hcreator := h.creator.trans h'.creator.symm
  cases entry
  cases entry'
  simp_all [TradeIndexEntry.untimed]

theorem creator_kept {later : List (EscrowState × ℤ)} {entry entry' : TradeIndexEntry}
    (hsame : ∀ s ∈ snaps, SameTrade first s) (hid : newest.id = first.id)
    (hcovers : ShownBy snaps (calls ++ later))
    (hget : (indexAfter verifyEvent userPubkey calls).get newest.id = some entry)
    (hget' : (indexAfter verifyEvent userPubkey (calls ++ later)).get newest.id = some entry') :
    entry'.creator = entry.creator := by
  have hall := hcovers.sameTrade hsame
  rw [hid] at hget hget'
  obtain ⟨-, _, _, -, hmerged⟩ :=
    stored_spec (fun call hcall => hall call (List.mem_append_left _ hcall)) hget
  obtain ⟨-, _, _, -, hmerged'⟩ := stored_spec hall hget'
  exact hmerged'.creator.trans hmerged.creator.symm

theorem Unambiguous.agrees (h : Unambiguous userPubkey snaps newest)
    (hsame : ∀ s ∈ snaps, SameTrade first s) (hid : newest.id = first.id)
    (hlater : snaps.Pairwise (Later host)) (hnewest : snaps.getLast? = some newest) :
    IndexAgrees verifyEvent userPubkey snaps newest := by
  have hparty : ∃ s ∈ snaps, isParty userPubkey s = true := by
    obtain ⟨s, hs, hsparty, -⟩ := h.seen
    exact ⟨s, hs, hsparty⟩
  have hstored (calls : List (EscrowState × ℤ)) (hcovers : ShownBy snaps calls) :=
    @exists_stored verifyEvent userPubkey calls first (hcovers.sameTrade hsame) (hid ▸ h.keyed)
      (hcovers.recorded_ne_nil hparty)
  refine ⟨fun calls hcovers _ => ?_, fun calls later entry entry' hcovers hget hget' => ?_,
    fun calls calls' hcovers hcovers' => ?_⟩
  · obtain ⟨entry, hget⟩ := hstored calls hcovers
    obtain ⟨-, _, _, -, hmerged⟩ := stored_spec (hcovers.sameTrade hsame) hget
    rw [hid]
    exact ⟨entry, hget, h.lastStatus hlater hnewest hcovers hmerged⟩
  · exact creator_kept hsame hid hcovers hget hget'
  · obtain ⟨entry, hget⟩ := hstored calls hcovers
    obtain ⟨entry', hget'⟩ := hstored calls' hcovers'
    obtain ⟨-, l, last, hlast, hmerged⟩ := stored_spec (hcovers.sameTrade hsame) hget
    obtain ⟨-, l', last', hlast', hmerged'⟩ := stored_spec (hcovers'.sameTrade hsame) hget'
    have hmem : last ∈ recordedStates userPubkey calls := by
      rw [hlast]
      exact List.mem_append_right _ (List.mem_singleton_self last)
    have hmem' : last' ∈ recordedStates userPubkey calls' := by
      rw [hlast']
      exact List.mem_append_right _ (List.mem_singleton_self last')
    rw [hcovers.mem_recorded] at hmem
    rw [hcovers'.mem_recorded] at hmem'
    rw [hid, hget, hget']
    refine congrArg some (hmerged.untimed hmerged' (fun s => ?_) ?_ ?_)
    · rw [hcovers.mem_recorded, hcovers'.mem_recorded]
    · rw [h.lastStatus hlater hnewest hcovers hmerged,
        h.lastStatus hlater hnewest hcovers' hmerged']
    · exact h.told last hmem.1 last' hmem'.1 hmem.2 hmem'.2

theorem agrees_of_stranger (hstranger : ∀ s ∈ snaps, isParty userPubkey s = false)
    (hsame : ∀ s ∈ snaps, SameTrade first s) (hid : newest.id = first.id) :
    IndexAgrees verifyEvent userPubkey snaps newest := by
  have hempty (calls : List (EscrowState × ℤ)) (hcovers : ShownBy snaps calls) :
      (indexAfter verifyEvent userPubkey calls).get newest.id = none := by
    rw [hid]
    by_contra hget
    obtain ⟨entry, hget⟩ := Option.ne_none_iff_exists'.mp hget
    obtain ⟨-, _, _, -, hmerged⟩ := stored_spec (hcovers.sameTrade hsame) hget
    obtain ⟨s, hs, -⟩ := hmerged.status
    obtain ⟨hmem, hparty⟩ := (hcovers.mem_recorded s).mp hs
    rw [hstranger s hmem] at hparty
    cases hparty
  refine ⟨fun calls hcovers hparty => ?_, fun calls later entry entry' hcovers hget hget' => ?_,
    fun calls calls' hcovers hcovers' => ?_⟩
  · obtain ⟨s, hs, hsparty⟩ := hparty
    rw [hstranger s hs] at hsparty
    cases hsparty
  · rw [hempty _ hcovers] at hget'
    cases hget'
  · rw [hempty calls hcovers, hempty calls' hcovers']

theorem IndexAgrees.shown_last (h : IndexAgrees verifyEvent userPubkey snaps newest)
    (hsame : ∀ s ∈ snaps, SameTrade first s) (hid : newest.id = first.id) (hs : s ∈ snaps)
    (hparty : isParty userPubkey s = true) :
    ∃ calls entry, ShownBy snaps calls ∧
      (indexAfter verifyEvent userPubkey calls).get newest.id = some entry ∧
      entry.lastStatus = newest.status ∧ first.id ≠ "__proto__" ∧
      Merged verifyEvent userPubkey first (recordedStates userPubkey calls) s entry := by
  have hcovers : ShownBy snaps ((snaps ++ [s]).map fun s => (s, 0)) := by
    refine covers_map (fun t => ?_) 0
    simp only [List.mem_append, List.mem_singleton]
    exact ⟨Or.inl, fun ht => ht.elim id fun ht => ht ▸ hs⟩
  obtain ⟨entry, hget, hstatus⟩ := h.status _ hcovers ⟨s, hs, hparty⟩
  obtain ⟨hkeyed, l, last, hlast, hmerged⟩ := stored_spec (hcovers.sameTrade hsame) (hid ▸ hget)
  refine ⟨_, entry, hcovers, hget, hstatus, hkeyed, ?_⟩
  have hend := hlast
  rw [List.map_append, List.map_singleton, recordedStates_concat, if_pos hparty] at hend
  obtain rfl : s = last := List.singleton_inj.mp (List.append_inj_right' hend rfl)
  exact hmerged

theorem IndexAgrees.unambiguous (h : IndexAgrees verifyEvent userPubkey snaps newest)
    (hsame : ∀ s ∈ snaps, SameTrade first s) (hid : newest.id = first.id)
    (hparty : ∃ s ∈ snaps, isParty userPubkey s = true) :
    Unambiguous userPubkey snaps newest := by
  obtain ⟨s, hs, hsparty⟩ := hparty
  obtain ⟨calls, entry, hcovers, -, hstatus, hkeyed, hmerged⟩ := h.shown_last hsame hid hs hsparty
  refine ⟨by rw [hid]; exact hkeyed, ?_, fun t ht htparty hexpired => ?_,
    fun t ht u hu htparty huparty => ?_⟩
  · obtain ⟨r, hr, hrstatus⟩ := hmerged.status
    obtain ⟨hmem, hrparty⟩ := (hcovers.mem_recorded r).mp hr
    exact ⟨r, hmem, hrparty, hrstatus.symm.trans hstatus⟩
  · obtain ⟨_, entry', -, -, hstatus', -, hmerged'⟩ := h.shown_last hsame hid ht htparty
    rw [← hstatus', ← hexpired]
    refine hmerged'.latest.resolve_right fun hlt => ?_
    rw [hexpired] at hlt
    revert hlt
    cases entry'.lastStatus <;> decide
  · obtain ⟨_, a, ha, hgeta, -, -, hmergeda⟩ := h.shown_last hsame hid ht htparty
    obtain ⟨_, b, hb, hgetb, -, -, hmergedb⟩ := h.shown_last hsame hid hu huparty
    have hsameEntry := h.order _ _ ha hb
    rw [hgeta, hgetb] at hsameEntry
    have huntimed : a.untimed = b.untimed := Option.some.inj hsameEntry
    have hsummary : a.untimed.toTradeSummary = b.untimed.toTradeSummary :=
      congrArg TradeIndexEntry.toTradeSummary huntimed
    rw [indexSummary, indexSummary, hmergeda.summary, hmergedb.summary]
    exact congrArg some hsummary

theorem exists_first (hreached : ∀ s ∈ snaps, Reached host s) (hlater : snaps.Pairwise (Later host))
    (hnewest : snaps.getLast? = some newest) :
    ∃ first, (∀ s ∈ snaps, SameTrade first s) ∧ newest.id = first.id := by
  have hmem := List.mem_of_getLast? hnewest
  cases snaps with
  | nil => cases hmem
  | cons first rest =>
    have hfirst := hreached first List.mem_cons_self
    have hsame : ∀ s ∈ first :: rest, SameTrade first s := by
      rw [List.forall_mem_cons]
      exact ⟨⟨rfl, rfl, hfirst.created⟩, fun s hs =>
        Later.same hfirst ((List.pairwise_cons.mp hlater).1 s hs)⟩
    exact ⟨first, hsame, (hsame newest hmem).sameId⟩

end Entry

end ChamaEscrow
