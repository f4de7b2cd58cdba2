import ChamaEscrow.Trade.Lifecycle

/-!
# Custody after the LOCK

What a trade fixes once it is no longer open.  `EscrowState.core` collects the fields that no
handler writes past the open status, and `PastOpen` lists what a step can still do to the rest of
the custody: nothing, the start of a plan, or the release of shares that were held back.

* `custody_frozen`: nothing about a funded trade's custody changes, but for one release of the
  shares its funder held back.
* `deadline_fixed`: the deadline of a funded trade is the one its LOCK set, in every run in which no
  plan meets a LOCK.
-/

namespace ChamaEscrow

open Js Library

variable {host : Host} {s s' : EscrowState} {e : ParsedEscrowEvent}

/-! ### The frame -/

/-- What no handler writes once the trade is no longer open.  The pools are kept up to their
spelling. -/
structure CustodyCore where
  terms : TradeTerms
  buyer : Option String
  seller : Option String
  amountMsats : JsNumber
  fees : Fees
  notesHash : JsValue
  onchain : Option OnchainLockTerms
  lockedAt : Option JsNumber
  selectedItems : Option (List SelectedMenuItem)
  sharePolicy : JsValue
  arbiterPoolShare : Option Bool
  pool : Except JsError (List JsValue)
  bonded : Except JsError (List JsValue)
  tradeTimeoutSeconds : Option JsNumber

def EscrowState.core (s : EscrowState) : CustodyCore where
  terms := s.toTradeTerms
  buyer := s.participants.buyer
  seller := s.participants.seller
  amountMsats := s.amountMsats
  fees := s.fees
  notesHash := s.lock.notesHash
  onchain := s.lock.onchain
  lockedAt := s.lock.lockedAt
  selectedItems := s.lock.selectedItems
  sharePolicy := s.lock.sharePolicy
  arbiterPoolShare := s.lock.arbiterPoolShare
  pool := s.communityArbiters.spread
  bonded := s.bondedArbiters.spread
  tradeTimeoutSeconds := s.tradeTimeoutSeconds

structure KeepsCustody (s s' : EscrowState) : Prop where
  core : s'.core = s.core
  arbiter : s'.participants.arbiter = s.participants.arbiter
  tranchePlan : s'.tranchePlan = s.tranchePlan
  expiresAt : s'.expiresAt = s.expiresAt
  shares : s'.lock.shares = s.lock.shares
  withheld : s'.lock.withheld = s.lock.withheld

structure StartsPlan (s : EscrowState) (e : ParsedEscrowEvent) (s' : EscrowState) : Prop where
  payload : ∃ p, e.payload = .planStart p ∧ planArbiterGate s e p = .ok () ∧
    s'.participants.arbiter = some p.arbiterPubkey
  parent : s.chamaCircle = none ∧ s.trancheChild = none
  author : e.pubkey = s.initiator.pubkey
  fresh : s.hasEvent e.id = false
  due : isPastDeadline s e = false ∨ s.status = .expired
  first : s.tranchePlan = none
  core : s'.core = s.core
  tranchePlan : s'.tranchePlan.isSome
  shares : s'.lock.shares = s.lock.shares
  withheld : s'.lock.withheld = s.lock.withheld

structure ReleasesShares (s : EscrowState) (e : ParsedEscrowEvent) (s' : EscrowState) : Prop where
  step : ∃ p withheld, e.payload = .lockStep p ∧ p.step = .release ∧
    s.lock.withheld = some withheld ∧ e.pubkey = withheld.lockerPubkey ∧
    truthyKey withheld.releaseEventId = none ∧
    s'.lock.shares = storeReleased s.lock.shares p.shares ∧
    s'.lock.withheld = some { withheld with releaseEventId := some e.id }
  core : s'.core = s.core
  arbiter : s'.participants.arbiter = s.participants.arbiter
  tranchePlan : s'.tranchePlan = s.tranchePlan
  expiresAt : s'.expiresAt = s.expiresAt

inductive PastOpen (s : EscrowState) (e : ParsedEscrowEvent) (s' : EscrowState) : Prop
  | keeps (h : KeepsCustody s s')
  | plan (h : StartsPlan s e s')
  | release (h : ReleasesShares s e s')

variable {next : EscrowState}

theorem IsCopy.keepsCustody (clone : IsCopy s next) : KeepsCustody s next where
  core := by
    unfold EscrowState.core
    rw [clone.terms, clone.participants, clone.amountMsats, clone.fees, clone.lock, clone.pool,
      clone.bonded, clone.tradeTimeoutSeconds]
  arbiter := congrArg PerRole.arbiter clone.participants
  tranchePlan := clone.tranchePlan
  expiresAt := clone.expiresAt
  shares := congrArg LockDetails.shares clone.lock
  withheld := congrArg LockDetails.withheld clone.lock

theorem KeepsCustody.congr (h : KeepsCustody s next)
    (hcore : s'.core = next.core) (harbiter : s'.participants.arbiter = next.participants.arbiter)
    (hplan : s'.tranchePlan = next.tranchePlan) (hexpires : s'.expiresAt = next.expiresAt)
    (hshares : s'.lock.shares = next.lock.shares)
    (hwithheld : s'.lock.withheld = next.lock.withheld) : KeepsCustody s s' :=
  ⟨hcore.trans h.core, harbiter.trans h.arbiter, hplan.trans h.tranchePlan,
    hexpires.trans h.expiresAt, hshares.trans h.shares, hwithheld.trans h.withheld⟩

theorem Handled.pastOpen (h : Handled host s e s') (hopen : s.status ≠ .created)
    (hfresh : s.hasEvent e.id = false) (hdue : isPastDeadline s e = false ∨ s.status = .expired) :
    PastOpen s e s' := by
  cases h
  case planRepeated => exact .keeps ⟨rfl, rfl, rfl, rfl, rfl, rfl⟩
  case planStarted p next payload parent first _ author _ _ gate clone =>
    have hkeeps := clone.keepsCustody
    exact .plan ⟨⟨p, payload, gate, rfl⟩, parent, author, hfresh, hdue, first, hkeeps.core, rfl,
      hkeeps.shares, hkeeps.withheld⟩
  case fundingTerms status _ _ _ _ _ => exact absurd status hopen
  case orderJoined status _ _ _ _ => exact absurd status hopen
  case seatJoined status _ _ _ _ _ _ => exact absurd status hopen
  case subscribed status _ _ _ _ => exact absurd status hopen
  case cancelled status _ _ => exact absurd status hopen
  case locked status _ _ _ _ _ _ _ _ _ => exact absurd status hopen
  case sharesReleased p _ withheld next payload step _ _ held author fresh _ _ clone =>
    have hkeeps := clone.keepsCustody
    refine .release ⟨⟨p, withheld, payload, step, held, author, fresh, ?_, rfl⟩, hkeeps.core,
      hkeeps.arbiter, hkeeps.tranchePlan, hkeeps.expiresAt⟩
    rw [← hkeeps.shares]
  case voted clone count =>
    obtain ⟨votes, acting, rfl⟩ := countVote_eq_ok count
    exact .keeps (clone.keepsCustody.congr rfl rfl rfl rfl rfl rfl)
  case stalled clone => exact .keeps (clone.keepsCustody.congr rfl rfl rfl rfl rfl rfl)
  all_goals
    rename_i clone
    exact .keeps (clone.keepsCustody.congr rfl rfl rfl rfl rfl rfl)

theorem Expires.keepsCustody (h : Expires s e next) : KeepsCustody s next := by
  obtain ⟨copy, clone, rfl⟩ := h.eq
  exact clone.keepsCustody.congr rfl rfl rfl rfl rfl rfl

theorem Expires.status_ne (h : Expires s e next) : next.status ≠ .created := by
  rw [h.status_eq]
  decide

theorem KeepsCustody.trans {t : EscrowState} (h : KeepsCustody s t) (h' : KeepsCustody t s') :
    KeepsCustody s s' :=
  h.congr h'.core h'.arbiter h'.tranchePlan h'.expiresAt h'.shares h'.withheld

theorem ReleasesShares.of_keeps {live : EscrowState} (hlive : KeepsCustody s live)
    (h : ReleasesShares live e s') : ReleasesShares s e s' where
  step := by
    have := h.step
    rwa [hlive.withheld, hlive.shares] at this
  core := h.core.trans hlive.core
  arbiter := h.arbiter.trans hlive.arbiter
  tranchePlan := h.tranchePlan.trans hlive.tranchePlan
  expiresAt := h.expiresAt.trans hlive.expiresAt

theorem Stepped.pastOpen (h : Stepped host s e s') (hopen : s.status ≠ .created) :
    PastOpen s e s' := by
  cases h with
  | echoed => exact .keeps ⟨rfl, rfl, rfl, rfl, rfl, rfl⟩
  | premium _ _ clone => exact .keeps (clone.keepsCustody.congr rfl rfl rfl rfl rfl rfl)
  | settlement _ _ clone => exact .keeps (clone.keepsCustody.congr rfl rfl rfl rfl rfl rfl)
  | expired _ expires => exact .keeps expires.keepsCustody
  | handled fresh _ due _ handled => exact handled.pastOpen hopen fresh due
  | @lateHandled live _ fresh kind expires handled =>
    have hfresh : live.hasEvent e.id = false := by
      rwa [EscrowState.hasEvent, expires.eventChain]
    cases handled.pastOpen expires.status_ne hfresh (Or.inr expires.status_eq) with
    | keeps h => exact .keeps (expires.keepsCustody.trans h)
    | plan h =>
      obtain ⟨p, hp, -⟩ := h.payload
      simp [ParsedEscrowEvent.kind, hp, EscrowPayload.kind] at kind
    | release h => exact .release (h.of_keeps expires.keepsCustody)

/-! ### The LOCK -/

theorem truthyKey_eq_some {key : Option String} {k : String} (h : truthyKey key = some k) :
    key = some k ∧ k ≠ "" := by
  rw [truthyKey, Option.filter_eq_some_iff] at h
  exact ⟨h.1, by simpa using h.2⟩

theorem truthyKey_some {k : String} (h : k ≠ "") : truthyKey (some k) = some k := by
  rw [truthyKey, Option.filter_eq_some_iff]
  exact ⟨rfl, by simpa using h⟩

/-- The seats of a trade are filled with three different keys, and the arbiter's is not empty. -/
structure SeatsFilled (s : EscrowState) : Prop where
  seated : ∃ buyer seller arbiter, s.participants = ⟨some buyer, some seller, some arbiter⟩ ∧
    buyer ≠ seller ∧ seller ≠ arbiter ∧ buyer ≠ arbiter ∧ arbiter ≠ ""

def SellerSeated (s : EscrowState) : Prop :=
  s.participants.seller.isSome ∨ (s.category = "lending" ∧ s.chamaPolicy = none)

variable {role : Role}

variable {pubkey : String}

theorem getRole_eq_some (h : getRole s pubkey = some role) :
    s.participants.get role = some pubkey := by
  simpa using List.find?_some h

theorem getEffectiveParticipantAt_eq_some {time grace : JsNumber}
    (h : getEffectiveParticipantAt s role time grace = some pubkey) :
    truthyKey (s.participants.get role) = some pubkey := by
  unfold getEffectiveParticipantAt at h
  cases hseat : truthyKey (s.participants.get role) with
  | none => simp [hseat] at h
  | some pk =>
    rw [hseat] at h
    dsimp only at h
    split_ifs at h
    · exact h
    · exact h
    · split at h
      · exact h
      · split_ifs at h
        · exact h
        · exact h

theorem getActiveRole_eq_some {time : JsNumber} (h : getActiveRole s pubkey time = some role) :
    getEffectiveParticipantAt s role time = some pubkey := by
  simpa using List.find?_some h

variable {p : LockPayload}

theorem lockerGate_eq_ok (h : lockerGate s e p = .ok role) :
    s.participants.get role = some e.pubkey ∧ ∀ r, expectedLocker s = some r → role = r := by
  unfold lockerGate at h
  dsimp only at h
  split at h
  · cases h
  · rename_i lockerRole hheld
    simp only [bind_eq_ok, guardNone_eq_ok, pure_eq_ok] at h
    obtain ⟨-, hexpected, rfl⟩ := h
    refine ⟨?_, fun r hr => ?_⟩
    · split_ifs at hheld
      · exact getRole_eq_some hheld
      · exact (truthyKey_eq_some
          (getEffectiveParticipantAt_eq_some (getActiveRole_eq_some hheld))).1
    · simpa [hr] using hexpected

structure LockSeats (s : EscrowState) (e : ParsedEscrowEvent) (p : LockPayload) : Prop where
  buyer_ne : p.buyerPubkey ≠ ""
  arbiter_ne : p.arbiterPubkey ≠ ""
  buyer : ∀ pk, joinedAtLock s e .buyer = some pk → pk = p.buyerPubkey
  arbiter : ∀ pk, joinedAtLock s e .arbiter = some pk → pk = p.arbiterPubkey
  seller_ne : truthyKey s.participants.seller ≠ some p.buyerPubkey ∧
    truthyKey s.participants.seller ≠ some p.arbiterPubkey
  distinct : p.buyerPubkey ≠ p.arbiterPubkey

theorem lockSeatsGate_eq_ok {u : Unit} (h : lockSeatsGate s e p = .ok u) : LockSeats s e p := by
  simp only [lockSeatsGate, bind_eq_ok, guardErr_eq_ok, guardNone_eq_ok, js_eq_ok,
    Option.map_eq_none_iff, Option.filter_eq_none_iff, not_or] at h
  obtain ⟨-, hbuyer, -, harbiter, -, hjoinedBuyer, -, hjoinedArbiter, -, -, -, -, hdistinct⟩ := h
  exact ⟨hbuyer, harbiter, fun pk hpk => by simpa using hjoinedBuyer pk hpk,
    fun pk hpk => by simpa using hjoinedArbiter pk hpk, ⟨hdistinct.1, hdistinct.2.1⟩,
    hdistinct.2.2⟩

theorem LockSeats.filled (h : LockSeats s e p)
    (hlocker : lockerGate s e p = .ok role) (hseller : SellerSeated s)
    (hparticipants : s'.participants =
      { s.participants with buyer := some p.buyerPubkey, arbiter := some p.arbiterPubkey }) :
    SeatsFilled s' := by
  obtain ⟨hseat, hexpected⟩ := lockerGate_eq_ok hlocker
  obtain ⟨seller, hsome⟩ : ∃ seller, s.participants.seller = some seller := by
    rcases hseller with hseller | ⟨hcategory, hpolicy⟩
    · exact Option.isSome_iff_exists.mp hseller
    · have : role = .seller := hexpected .seller (by
        simp [expectedLocker, buyerFunds, hcategory, hpolicy])
      subst this
      exact ⟨_, hseat⟩
  have hne {k : String} (hk : k ≠ "") (hnot : truthyKey s.participants.seller ≠ some k) :
      seller ≠ k := by
    rintro rfl
    rw [hsome, truthyKey_some hk] at hnot
    exact hnot rfl
  refine ⟨p.buyerPubkey, seller, p.arbiterPubkey, ?_, (hne h.buyer_ne h.seller_ne.1).symm,
    hne h.arbiter_ne h.seller_ne.2, h.distinct, h.arbiter_ne⟩
  rw [hparticipants]
  exact congrArg (PerRole.mk _ · _) hsome

/-! ### Seats before the LOCK -/

theorem Handled.seller (h : Handled host s e s') (hs : s.participants.seller.isSome) :
    s'.participants.seller.isSome := by
  have kept {next : EscrowState} (clone : IsCopy s next) :
      next.participants.seller.isSome := by
    rwa [clone.participants]
  cases h
  case planRepeated => exact hs
  case seatJoined p next _ _ _ _ _ _ _ clone =>
    cases hrole : p.role with
    | seller => simp [PerRole.set]
    | buyer => exact (kept clone :)
    | arbiter => exact (kept clone :)
  case voted clone count =>
    obtain ⟨votes, acting, rfl⟩ := countVote_eq_ok count
    exact (kept clone :)
  case stalled clone => exact (kept clone :)
  all_goals
    rename_i clone
    exact (kept clone :)

theorem Stepped.seller (h : Stepped host s e s') (hs : s.participants.seller.isSome) :
    s'.participants.seller.isSome := by
  cases h with
  | echoed => exact hs
  | premium _ _ clone => exact (clone.participants ▸ hs :)
  | settlement _ _ clone => exact (clone.participants ▸ hs :)
  | expired _ expires =>
    obtain ⟨copy, clone, rfl⟩ := expires.eq
    exact (clone.participants ▸ hs :)
  | handled _ _ _ _ handled => exact handled.seller hs
  | lateHandled _ _ expires handled =>
    refine handled.seller ?_
    obtain ⟨copy, clone, rfl⟩ := expires.eq
    exact (clone.participants ▸ hs :)

theorem Newborn.sellerSeated {p : CreatePayload} (h : Newborn e p s) : SellerSeated s := by
  obtain ⟨arbiter, hparticipants⟩ := h.participants
  by_cases hlending : p.category = "lending"
  · refine Or.inr ⟨h.category.trans hlending, ?_⟩
    rw [h.chamaPolicy, h.policy_of_lending hlending]
    rfl
  · left
    rw [hparticipants]
    unfold createSeats
    split
    · rfl
    · split_ifs with hchild
      · exact hchild.2
      · rfl

theorem SellerSeated.step (hs : SellerSeated s) (h : Stepped host s e s') : SellerSeated s' := by
  rcases hs with hs | ⟨hcategory, hpolicy⟩
  · exact Or.inl (h.seller hs)
  · refine Or.inr ⟨?_, ?_⟩
    · rwa [h.terms]
    · rwa [h.terms]

theorem Reached.sellerSeated (h : Reached host s) : SellerSeated s := by
  refine Reachable.invariant (fun s hs => ?_) (fun s e s' hs h => ?_) h
  · obtain ⟨e, p, hborn⟩ := hs.newborn
    exact hborn.sellerSeated
  · exact hs.step (applyToState_stepped h)

/-! ### Funded trades -/

/-- The custody of a funded trade: it is open no longer, and its seats are filled. -/
structure Funded (s : EscrowState) : Prop where
  not_open : s.status ≠ .created
  seats : SeatsFilled s

theorem Handled.funded_of_lock (h : Handled host s e s') (hkind : e.kind = .lock)
    (hs : SellerSeated s) : Funded s' := by
  cases h
  case locked p next role withheld amount entries shares payload _ _ status locker seats _ _ _ _ _ _ clone =>
    refine ⟨by simp [lockedState], (lockSeatsGate_eq_ok seats).filled locker hs ?_⟩
    rw [← clone.participants]
    rfl
  all_goals simp_all [ParsedEscrowEvent.kind, EscrowPayload.kind]

theorem planArbiterGate_seated {p : PlanStartPayload} {arbiter : String}
    (h : planArbiterGate s e p = .ok ()) (hseat : truthyKey s.participants.arbiter = some arbiter) :
    p.arbiterPubkey = arbiter := by
  unfold planArbiterGate at h
  rw [hseat] at h
  dsimp only at h
  rw [guardErr_eq_ok, not_not] at h
  exact h.symm

theorem SeatsFilled.step (hs : SeatsFilled s) (hopen : s.status ≠ .created)
    (h : Stepped host s e s') : s'.participants = s.participants := by
  obtain ⟨buyer, seller, arbiter, hseats, -, -, -, harbiter⟩ := hs
  have hseat : truthyKey s.participants.arbiter = some arbiter := by
    rw [hseats]
    exact truthyKey_some harbiter
  have hkept : s'.participants.arbiter = s.participants.arbiter := by
    cases h.pastOpen hopen with
    | keeps h => exact h.arbiter
    | release h => exact h.arbiter
    | plan h =>
      obtain ⟨p, -, hgate, hnext⟩ := h.payload
      rw [hnext, planArbiterGate_seated hgate hseat, (truthyKey_eq_some hseat).1]
  have hcore : s'.core = s.core := by
    cases h.pastOpen hopen with
    | keeps h => exact h.core
    | release h => exact h.core
    | plan h => exact h.core
  have hbuyer : s'.participants.buyer = s.participants.buyer := congrArg CustodyCore.buyer hcore
  have hseller : s'.participants.seller = s.participants.seller :=
    congrArg CustodyCore.seller hcore
  cases hp : s'.participants
  cases hq : s.participants
  simp_all

theorem Stepped.pastOpen_core (h : Stepped host s e s') (hopen : s.status ≠ .created) :
    s'.core = s.core := by
  cases h.pastOpen hopen with
  | keeps h => exact h.core
  | release h => exact h.core
  | plan h => exact h.core

theorem Reached.funded (h : Reached host s) (hlock : s.hasLock = true) : Funded s := by
  refine Run.strengthen (I := fun s => s.hasLock = true → Funded s) (J := SellerSeated)
    (fun s h => Reached.sellerSeated h) (fun s hs hlock => ?_)
    (fun s e s' _ hseller hs h hlock => ?_) h hlock
  · obtain ⟨e, p, hborn⟩ := hs.newborn
    rw [hborn.hasLock] at hlock
    cases hlock
  · have hstep := applyToState_stepped h
    by_cases hbefore : s.hasLock = true
    · obtain ⟨hopen, hseats⟩ := hs hbefore
      refine ⟨hstep.not_open hopen, ?_⟩
      have := hseats.seated
      rw [← hseats.step hopen hstep] at this
      exact ⟨this⟩
    · obtain ⟨hkind, -, -, hhandled⟩ := hstep.of_new_lock (by simpa using hbefore) hlock
      exact hhandled.funded_of_lock hkind hseller

theorem Handled.lock (h : Handled host s e s') : s'.lock = s.lock ∨ s'.hasLock = true := by
  have found {lock : ParsedEscrowEvent} {t : EscrowState} (h : s.lockEvent? = some lock)
      (hchain : t.eventChain = s.eventChain) : t.hasLock = true :=
    hasLock_iff.mpr ⟨lock, hchain ▸ List.mem_of_find?_eq_some h, by simpa using List.find?_some h⟩
  cases h
  case planRepeated => exact Or.inl rfl
  case locked payload _ _ _ _ _ _ _ _ _ _ _ _ =>
    refine Or.inr (hasLock_iff.mpr ⟨e, ?_, ?_⟩)
    · exact List.mem_append_right _ (List.mem_singleton_self e)
    · rw [ParsedEscrowEvent.kind, payload, EscrowPayload.kind]
  case lockAccepted hfound _ _ clone =>
    exact Or.inr (found hfound clone.eventChain)
  case sharesReleased hfound _ _ _ _ _ clone =>
    exact Or.inr (found hfound clone.eventChain)
  case voted clone count =>
    obtain ⟨votes, acting, rfl⟩ := countVote_eq_ok count
    exact Or.inl clone.lock
  case stalled clone => exact Or.inl clone.lock
  all_goals
    rename_i clone
    exact Or.inl clone.lock

theorem Stepped.lock (h : Stepped host s e s') : s'.lock = s.lock ∨ s'.hasLock = true := by
  have expired {next : EscrowState} (expires : Expires s e next) : next.lock = s.lock := by
    obtain ⟨copy, clone, rfl⟩ := expires.eq
    exact clone.lock
  cases h with
  | echoed => exact Or.inl rfl
  | premium _ _ clone => exact Or.inl clone.lock
  | settlement _ _ clone => exact Or.inl clone.lock
  | expired _ expires => exact Or.inl (expired expires)
  | handled _ _ _ _ handled => exact handled.lock
  | lateHandled _ _ expires handled =>
    exact handled.lock.imp (fun h => h.trans (expired expires)) id

theorem Reached.lock_of_unfunded (h : Reached host s) (hlock : s.hasLock = false) :
    s.lock = {} := by
  refine Reachable.invariant (I := fun s => s.hasLock = false → s.lock = {})
    (fun s hs _ => ?_) (fun s e s' hs h hlock => ?_) h hlock
  · obtain ⟨e, p, hborn⟩ := hs.newborn
    exact hborn.lock
  · have hstep := applyToState_stepped h
    rcases hstep.lock with hsame | hnew
    · refine hsame.trans (hs ?_)
      by_contra hbefore
      rw [hstep.hasLock (by simpa using hbefore)] at hlock
      cases hlock
    · rw [hnew] at hlock
      cases hlock

/-- The rule for what an accepted LOCK establishes: it holds of an empty lock, a first LOCK makes it
hold, and every step of a funded trade keeps it. -/
theorem Reached.of_lock {I : EscrowState → Prop} (hempty : ∀ s, s.lock = {} → I s)
    (hlocks : ∀ {s e s'}, Handled host s e s' → e.kind = .lock → s.lock = {} → I s')
    (hkeeps : ∀ {s e s'}, Stepped host s e s' → Reached host s → s.hasLock = true → I s → I s')
    (h : Reached host s) : I s := by
  refine Run.strengthen (J := Reached host) (fun s h => h) (fun s hs => ?_)
    (fun s e s' _ hreached hs h => ?_) h
  · obtain ⟨e, p, hborn⟩ := hs.newborn
    exact hempty s hborn.lock
  · have hstep := applyToState_stepped h
    by_cases hbefore : s.hasLock = true
    · exact hkeeps hstep hreached hbefore hs
    have hlock := hreached.lock_of_unfunded (by simpa using hbefore)
    by_cases hafter : s'.hasLock = true
    · obtain ⟨hkind, -, -, hhandled⟩ := hstep.of_new_lock (by simpa using hbefore) hafter
      exact hlocks hhandled hkind hlock
    · have hreached' : Reached host s' := hreached.next h
      exact hempty s' (hreached'.lock_of_unfunded (by simpa using hafter))

def Clonable (s : EscrowState) : Prop :=
  (∃ keys, s.communityArbiters.spread = .ok keys) ∧ ∃ keys, s.bondedArbiters.spread = .ok keys

theorem Clonable.cloneState (h : Clonable s) : ∃ next, cloneState s = .ok next := by
  obtain ⟨⟨community, hcommunity⟩, bonded, hbonded⟩ := h
  simp [ChamaEscrow.cloneState, hcommunity, hbonded]

theorem Clonable.congr (h : Clonable s) (hcore : s'.core = s.core) : Clonable s' := by
  have hpool : s'.communityArbiters.spread = s.communityArbiters.spread :=
    congrArg CustodyCore.pool hcore
  have hbonded : s'.bondedArbiters.spread = s.bondedArbiters.spread :=
    congrArg CustodyCore.bonded hcore
  unfold Clonable
  rw [hpool, hbonded]
  exact h

theorem IsCopy.clonable (clone : IsCopy s next)
    (hcommunity : s'.communityArbiters = next.communityArbiters)
    (hbonded : s'.bondedArbiters = next.bondedArbiters) : Clonable s' := by
  obtain ⟨community, bonded, -, -, hnext, hnext'⟩ := clone.copied
  exact ⟨⟨community, by rw [hcommunity, hnext]; rfl⟩, bonded, by rw [hbonded, hnext']; rfl⟩

theorem Handled.clonable (h : Handled host s e s') : s' = s ∨ Clonable s' := by
  cases h
  case planRepeated => exact Or.inl rfl
  case voted clone count =>
    obtain ⟨votes, acting, rfl⟩ := countVote_eq_ok count
    exact Or.inr (clone.clonable rfl rfl)
  case stalled clone => exact Or.inr (clone.clonable rfl rfl)
  all_goals
    rename_i clone
    exact Or.inr (clone.clonable rfl rfl)

theorem Expires.clonable (h : Expires s e next) : Clonable next := by
  obtain ⟨copy, clone, rfl⟩ := h.eq
  exact clone.clonable rfl rfl

theorem Reached.clonable_of_moved (h : Reached host s) (hmoved : s.status ≠ .created) :
    Clonable s := by
  refine Reachable.invariant (I := fun s => s.status ≠ .created → Clonable s)
    (fun s hs hmoved => ?_) (fun s e s' hs h hmoved => ?_) h hmoved
  · obtain ⟨e, p, hborn⟩ := hs.newborn
    exact absurd hborn.status hmoved
  · have handled {live : EscrowState} (hlive : live.status ≠ .created → Clonable live)
        (h : Handled host live e s') : Clonable s' := by
      rcases h.clonable with rfl | hclone
      · exact hlive hmoved
      · exact hclone
    cases applyToState_stepped h with
    | echoed => exact hs hmoved
    | premium _ _ clone => exact clone.clonable rfl rfl
    | settlement _ _ clone => exact clone.clonable rfl rfl
    | expired _ expires => exact expires.clonable
    | handled _ _ _ _ h => exact handled hs h
    | lateHandled _ _ expires h => exact handled (fun _ => expires.clonable) h

theorem Reached.clonable (h : Reached host s) (hlock : s.hasLock = true) : Clonable s :=
  h.clonable_of_moved (h.funded hlock).not_open

/-! ### The release -/

def Released (s : EscrowState) : Prop :=
  ∃ withheld, s.lock.withheld = some withheld ∧ (truthyKey withheld.releaseEventId).isSome

theorem ReleasesShares.released (h : ReleasesShares s e s') : Released s' := by
  obtain ⟨p, withheld, -, -, -, -, -, -, hnext⟩ := h.step
  refine ⟨_, hnext, ?_⟩
  change (truthyKey (some e.id)).isSome = true
  rw [truthyKey_some (k := e.id) e.raw.id_ne]
  rfl

theorem Released.step (hs : Released s) (hopen : s.status ≠ .created) (h : Stepped host s e s') :
    Released s' ∧ s'.lock.shares = s.lock.shares := by
  have kept (hwithheld : s'.lock.withheld = s.lock.withheld) : Released s' := by
    unfold Released
    rwa [hwithheld]
  cases h.pastOpen hopen with
  | keeps h => exact ⟨kept h.withheld, h.shares⟩
  | plan h => exact ⟨kept h.withheld, h.shares⟩
  | release h =>
    obtain ⟨withheld, hheld, hreleased⟩ := hs
    obtain ⟨p, withheld', -, -, hheld', -, hfresh, -⟩ := h.step
    obtain rfl : withheld = withheld' := by simpa [hheld] using hheld'
    rw [hfresh] at hreleased
    cases hreleased

theorem Released.liveFold (hs : Released s) (hopen : s.status ≠ .created)
    (es : List ParsedEscrowEvent) :
    (liveFold (applyToState host) s es).lock.shares = s.lock.shares := by
  refine (liveFold_invariant (I := fun t : EscrowState =>
    t.status ≠ .created ∧ Released t ∧ t.lock.shares = s.lock.shares) ?_ ⟨hopen, hs, rfl⟩ es).2.2
  rintro t e t' ⟨htopen, ht, hshares⟩ h
  have hstep := applyToState_stepped h
  obtain ⟨hreleased, hkept⟩ := ht.step htopen hstep
  exact ⟨hstep.not_open htopen, hreleased, hkept.trans hshares⟩

/-- What a funded trade keeps at every accepted event. -/
structure FrozenCustody (s s' : EscrowState) : Prop where
  participants : s'.participants = s.participants
  amountMsats : s'.amountMsats = s.amountMsats
  fees : s'.fees = s.fees
  notesHash : s'.lock.notesHash = s.lock.notesHash
  onchain : s'.lock.onchain = s.lock.onchain
  lockedAt : s'.lock.lockedAt = s.lock.lockedAt
  selectedItems : s'.lock.selectedItems = s.lock.selectedItems
  sharePolicy : s'.lock.sharePolicy = s.lock.sharePolicy
  arbiterPoolShare : s'.lock.arbiterPoolShare = s.lock.arbiterPoolShare

theorem Funded.frozen (hs : Funded s) (h : Stepped host s e s') : FrozenCustody s s' := by
  have hcore := h.pastOpen_core hs.not_open
  exact ⟨hs.seats.step hs.not_open h, congrArg CustodyCore.amountMsats hcore,
    congrArg CustodyCore.fees hcore, congrArg CustodyCore.notesHash hcore,
    congrArg CustodyCore.onchain hcore, congrArg CustodyCore.lockedAt hcore,
    congrArg CustodyCore.selectedItems hcore, congrArg CustodyCore.sharePolicy hcore,
    congrArg CustodyCore.arbiterPoolShare hcore⟩

/-- A funded trade has three different keys in its seats, and every accepted event keeps its
custody.  The routing of the shares is kept too, unless the event is the release of the shares that
the funder held back, after which no further events change it. -/
theorem custody_frozen (host : Host) (s : EscrowState) (hs : Reached host s)
    (hlock : ∃ v ∈ s.eventChain, v.kind = .lock) :
    (∃ buyer seller arbiter, s.participants = ⟨some buyer, some seller, some arbiter⟩ ∧
      buyer ≠ seller ∧ seller ≠ arbiter ∧ buyer ≠ arbiter) ∧
    ∀ e s', applyToState host s e = .ok s' → FrozenCustody s s' ∧
      (s'.lock.shares = s.lock.shares ∧ s'.lock.withheld = s.lock.withheld ∨
        ReleasesShares s e s' ∧ ∀ es,
          (liveFold (applyToState host) s' es).lock.shares = s'.lock.shares) := by
  have hfunded := hs.funded (hasLock_iff.mpr hlock)
  refine ⟨?_, fun e s' h => ?_⟩
  · obtain ⟨buyer, seller, arbiter, hseats, hbs, hsa, hba, -⟩ := hfunded.seats
    exact ⟨buyer, seller, arbiter, hseats, hbs, hsa, hba⟩
  · have hstep := applyToState_stepped h
    refine ⟨hfunded.frozen hstep, ?_⟩
    cases hstep.pastOpen hfunded.not_open with
    | keeps h => exact Or.inl ⟨h.shares, h.withheld⟩
    | plan h => exact Or.inl ⟨h.shares, h.withheld⟩
    | release h =>
      exact Or.inr ⟨h, fun es => h.released.liveFold (hstep.not_open hfunded.not_open) es⟩

/-- The funded sample trade keeps its seats when the buyer votes. -/
theorem custody_frozen_sample :
    ∃ s s' : EscrowState, s.status = .locked ∧ s'.votes.get .buyer = some .release ∧
      FrozenCustody s s' := by
  have hrun : (liveTrade silentHost sampleCreate [sampleJoin, sampleLock]).any
      (fun s => s.status = .locked && s.hasLock &&
        (applyToState silentHost s
          (sampleVote '3' 'b' 1800000030 .buyer .release)).toOption.any fun s' =>
          s'.votes.get .buyer = some .release) = true := by
    decide +kernel
  obtain ⟨s, hs, h⟩ := (Option.any_eq_true _ _).mp hrun
  rw [Bool.and_eq_true, Bool.and_eq_true, decide_eq_true_eq] at h
  obtain ⟨⟨hlocked, hlock⟩, h⟩ := h
  obtain ⟨s', hstep, h⟩ := exists_ok_of_any h
  rw [decide_eq_true_eq] at h
  exact ⟨s, s', hlocked, h, ((custody_frozen silentHost s (liveTrade_reached silentHost hs)
    (hasLock_iff.mp hlock)).2 _ s' hstep).1⟩
/-! ### The deadline -/

structure PlanMeetsLock (s : EscrowState) (e : ParsedEscrowEvent) : Prop where
  fresh : s.hasEvent e.id = false
  due : isPastDeadline s e = false ∨ s.status = .expired
  meets : s.tranchePlan.isSome ∧ e.kind = .lock ∨
    s.hasLock = true ∧ s.tranchePlan = none ∧ e.kind = .planStart

/-- A funded trade has no plan, and an ordinary one the deadline of its LOCK. -/
structure DeadlineFixed (s : EscrowState) : Prop where
  no_plan : s.tranchePlan = none
  deadline : s.chamaPolicy = none → ∃ lockedAt timeout, s.lock.lockedAt = some lockedAt ∧
    s.tradeTimeoutSeconds = some timeout ∧ s.expiresAt = lockedAt + timeout

theorem DeadlineFixed.congr (h : DeadlineFixed s) (hcore : s'.core = s.core)
    (hplan : s'.tranchePlan = s.tranchePlan) (hexpires : s'.expiresAt = s.expiresAt) :
    DeadlineFixed s' := by
  refine ⟨hplan.trans h.no_plan, fun hordinary => ?_⟩
  have hpolicy : s'.chamaPolicy = s.chamaPolicy := congrArg (fun c => c.terms.chamaPolicy) hcore
  have hlockedAt : s'.lock.lockedAt = s.lock.lockedAt := congrArg CustodyCore.lockedAt hcore
  have htimeout : s'.tradeTimeoutSeconds = s.tradeTimeoutSeconds :=
    congrArg CustodyCore.tradeTimeoutSeconds hcore
  rw [hlockedAt, htimeout, hexpires]
  exact h.deadline (hpolicy.symm.trans hordinary)

theorem Handled.deadlineFixed (h : Handled host s e s') (hkind : e.kind = .lock)
    (hplan : s.tranchePlan = none) : DeadlineFixed s' := by
  cases h
  case locked clone =>
    refine ⟨clone.tranchePlan.trans hplan, fun hordinary => ⟨_, _, rfl, rfl, ?_⟩⟩
    have hpolicy : s.chamaPolicy = none := by
      rw [← clone.terms]
      exact hordinary
    simp [lockedState, lockDeadline, hpolicy]
  all_goals simp_all [ParsedEscrowEvent.kind, EscrowPayload.kind]

theorem RunsUnder.deadlineFixed (h : RunsUnder host (fun s e => ¬ PlanMeetsLock s e) s)
    (hlock : s.hasLock = true) : DeadlineFixed s := by
  refine Run.strengthen (I := fun s => s.hasLock = true → DeadlineFixed s) (J := Reached host)
    (fun s h => Run.reachable h) (fun s hs hlock => ?_)
    (fun s e s' hC hreached hs h hlock => ?_) h hlock
  · obtain ⟨e, p, hborn⟩ := hs.newborn
    rw [hborn.hasLock] at hlock
    cases hlock
  · have hstep := applyToState_stepped h
    by_cases hbefore : s.hasLock = true
    · cases hstep.pastOpen (hreached.funded hbefore).not_open with
      | keeps h => exact (hs hbefore).congr h.core h.tranchePlan h.expiresAt
      | release h => exact (hs hbefore).congr h.core h.tranchePlan h.expiresAt
      | plan h =>
        obtain ⟨p, hp, -⟩ := h.payload
        have hkind : e.kind = .planStart := by rw [ParsedEscrowEvent.kind, hp, EscrowPayload.kind]
        exact absurd ⟨h.fresh, h.due, Or.inr ⟨hbefore, h.first, hkind⟩⟩ hC
    · obtain ⟨hkind, hfresh, hdue, hhandled⟩ :=
        hstep.of_new_lock (by simpa using hbefore) hlock
      refine hhandled.deadlineFixed hkind ?_
      by_contra hplan
      exact hC ⟨hfresh, hdue, Or.inl ⟨Option.isSome_iff_ne_none.mpr hplan, hkind⟩⟩

theorem Handled.of_planMeetsLock (h : Handled host s e s') (hC : PlanMeetsLock s e) :
    s'.tranchePlan.isSome ∧ s'.hasLock = true := by
  rcases hC.meets with ⟨hplan, hkind⟩ | ⟨hlock, hnone, hkind⟩
  · cases h
    case locked clone =>
      refine ⟨?_, hasLock_iff.mpr ⟨e, List.mem_append_right _ (List.mem_singleton_self e), hkind⟩⟩
      rw [← clone.tranchePlan] at hplan
      exact hplan
    all_goals simp_all [ParsedEscrowEvent.kind, EscrowPayload.kind]
  · obtain ⟨v, hv, hlocked⟩ := hasLock_iff.mp hlock
    cases h
    case planStarted clone =>
      refine ⟨rfl, hasLock_iff.mpr ⟨v, ?_, hlocked⟩⟩
      exact List.mem_append_left _ (clone.eventChain ▸ hv)
    all_goals simp_all [ParsedEscrowEvent.kind, EscrowPayload.kind]

/-- No plan is funded, and the deadline of a funded ordinary trade is its LOCK's time and the
trade's timeout, in every run in which no plan meets a LOCK; where one does, a plan is funded. -/
theorem deadline_fixed (host : Host) :
    (∀ s, RunsUnder host (fun s e => ¬ PlanMeetsLock s e) s →
      ¬ (s.tranchePlan.isSome ∧ ∃ v ∈ s.eventChain, v.kind = .lock) ∧
      (s.chamaPolicy = none → (∃ v ∈ s.eventChain, v.kind = .lock) →
        ∃ lockedAt timeout, s.lock.lockedAt = some lockedAt ∧
          s.tradeTimeoutSeconds = some timeout ∧ s.expiresAt = lockedAt + timeout)) ∧
      ∀ s e s', PlanMeetsLock s e → applyToState host s e = .ok s' →
        s'.tranchePlan.isSome ∧ ∃ v ∈ s'.eventChain, v.kind = .lock := by
  refine ⟨fun s hs => ⟨?_, fun hordinary hlock => ?_⟩, fun s e s' hC h => ?_⟩
  · rintro ⟨hplan, hlock⟩
    rw [(hs.deadlineFixed (hasLock_iff.mpr hlock)).no_plan] at hplan
    cases hplan
  · exact (hs.deadlineFixed (hasLock_iff.mpr hlock)).deadline hordinary
  · have hkind : e.kind ≠ .premium ∧ e.kind ≠ .settlement := by
      rcases hC.meets with ⟨-, h⟩ | ⟨-, -, h⟩ <;> simp [h]
    have hhandled := (applyToState_stepped h).reaches hC.fresh hC.due hkind
    obtain ⟨hplan, hlock⟩ := hhandled.of_planMeetsLock hC
    exact ⟨hplan, hasLock_iff.mp hlock⟩

def samplePlanStart : ParsedEscrowEvent := sampleEvent '8' 'a' 1800000030 (.planStart {
  planId := hexKey 'e'
  total := 1
  totalMsats := 1000000
  buyerPubkey := hexKey 'b'
  sellerPubkey := hexKey 'a'
  arbiterPubkey := hexKey 'c'
  termsDigest := hexKey 'f'
  coordinatorPubkey := hexKey 'a'
  bitcoinNetwork := .mainnet
  settlementPolicy := none
  sliceCount := none
  sliceCapMsats := none
  tranches := [⟨0, 1000000⟩]
  startedAt := 1800000030 })

/-- A plan that the seller starts after the LOCK sets the deadline of the funded trade aside. -/
theorem plan_after_lock :
    ∃ s, liveTrade silentHost sampleCreate [sampleJoin, sampleLock, samplePlanStart] = some s ∧
      Reached silentHost s ∧ s.chamaPolicy = none ∧ s.tranchePlan.isSome ∧
      (∃ v ∈ s.eventChain, v.kind = .lock) ∧
      ¬ ∃ lockedAt timeout, s.lock.lockedAt = some lockedAt ∧
        s.tradeTimeoutSeconds = some timeout ∧ s.expiresAt = lockedAt + timeout := by
  have hrun : (liveTrade silentHost sampleCreate [sampleJoin, sampleLock, samplePlanStart]).any
      (fun s => s.chamaPolicy = none && s.tranchePlan.isSome && s.hasLock &&
        (s.lock.lockedAt = some 1800000020 && s.tradeTimeoutSeconds = some 3600 &&
          s.expiresAt ≠ 1800003620)) = true := by
    decide +kernel
  obtain ⟨s, hs, h⟩ := (Option.any_eq_true _ _).mp hrun
  simp only [Bool.and_eq_true, decide_eq_true_eq] at h
  obtain ⟨⟨⟨hordinary, hplan⟩, hlock⟩, ⟨hlockedAt, htimeout⟩, hexpires⟩ := h
  refine ⟨s, hs, liveTrade_reached silentHost hs, hordinary, hplan, hasLock_iff.mp hlock, ?_⟩
  rintro ⟨lockedAt, timeout, hlockedAt', htimeout', hexpires'⟩
  rw [hlockedAt, Option.some.injEq] at hlockedAt'
  rw [htimeout, Option.some.injEq] at htimeout'
  rw [← hlockedAt', ← htimeout'] at hexpires'
  exact hexpires (hexpires'.trans (by decide +kernel))

/-- The sample trade without a plan expires an hour after its LOCK. -/
theorem deadline_fixed_sample :
    ∃ s : EscrowState, s.hasLock = true ∧ ∃ lockedAt timeout, s.lock.lockedAt = some lockedAt ∧
      s.tradeTimeoutSeconds = some timeout ∧ s.expiresAt = lockedAt + timeout := by
  have hrun : (liveTrade silentHost sampleCreate [sampleJoin]).any (fun s => s.tranchePlan.isNone &&
      ((liveStep (applyToState silentHost) s sampleLock).hasLock &&
        (liveStep (applyToState silentHost) s sampleLock).chamaPolicy = none)) = true := by
    decide +kernel
  obtain ⟨s, hs, h⟩ := (Option.any_eq_true _ _).mp hrun
  rw [Bool.and_eq_true, Bool.and_eq_true, decide_eq_true_eq] at h
  obtain ⟨hplan, hlock, hordinary⟩ := h
  have hjoined : RunsUnder silentHost (fun s e => ¬ PlanMeetsLock s e) s := by
    refine liveTrade_run silentHost hs fun s e he hC => ?_
    obtain rfl := List.mem_singleton.mp he
    rcases hC.meets with ⟨-, h⟩ | ⟨-, -, h⟩ <;> cases h
  have hlocked := hjoined.live (e := sampleLock) fun hC => by
    rcases hC.meets with ⟨h, -⟩ | ⟨-, -, h⟩
    · rw [Option.isNone_iff_eq_none.mp hplan] at h
      cases h
    · cases h
  exact ⟨_, hlock, ((deadline_fixed silentHost).1 _ hlocked).2 hordinary (hasLock_iff.mp hlock)⟩

end ChamaEscrow
