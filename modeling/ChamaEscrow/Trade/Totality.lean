import ChamaEscrow.Engine.EventParser
import ChamaEscrow.Trade.FundingTerms

/-!
# Steps that return

A step of the reducer ends with a state, with a rejection, or with an exception of one of the
JavaScript operations it runs.  The operations that take not every value are gathered here with
their exact domains, and every handler whose operations stay inside them is shown to return.

- `KeyPools`: the pools of a trade whose CREATE named lists of texts stay lists of texts.
- `bigInt_ok_iff`, `minSlicesForCap_ok_iff`, `normalizePaymentMethods_ok_iff`,
  `arrayLength_ok_iff`, `collectShares_ok_iff`: the domains.
- `Reached.lockBuilds`: the escrow of an accepted on-chain LOCK can be built.
- `returns_dispatch`: every event but a SUBSCRIBE or a LOCK returns from its handler.
-/

namespace ChamaEscrow

open Js Library

variable {host : Host} {s s' : EscrowState} {e : ParsedEscrowEvent}

/-! ### Pools of keys -/

/-- A list of texts. -/
def KeyPool (pool : JsValue) : Prop := ∃ keys : List String, pool = .arr (keys.map .str)

theorem filterByKey_ok (keep : Bool) (keys ks : List String) :
    ∃ kept, filterByKey keep keys (ks.map .str) = .ok kept := by
  induction ks with
  | nil => exact ⟨[], rfl⟩
  | cons k rest ih =>
    obtain ⟨kept, hkept⟩ := ih
    simp [filterByKey, JsValue.lowered, hkept, JsValue.text?, bind, Except.bind, pure, Except.pure]

theorem loweredKeys_ok (ks : List String) : ∃ keys, loweredKeys (ks.map .str) = .ok keys := by
  induction ks with
  | nil => exact ⟨[], rfl⟩
  | cons k rest ih =>
    obtain ⟨keys, hkeys⟩ := ih
    simp [loweredKeys, JsValue.lowered, hkeys]

variable {pool : JsValue}

theorem pickArbiterFromPool_ok (h : KeyPool pool) (escrowId : String)
    (exclude : List (Option String)) :
    ∃ pick, pickArbiterFromPool pool escrowId exclude = .ok pick := by
  obtain ⟨keys, rfl⟩ := h
  obtain ⟨kept, hkept⟩ := filterByKey_ok false (excludedKeys exclude) keys
  simp [pickArbiterFromPool, JsValue.items, hkept]

theorem pickPreferredArbiter_ok {pool bonded : JsValue} (hpool : KeyPool pool)
    (hbonded : KeyPool bonded) (escrowId : String) (exclude : List (Option String)) :
    ∃ pick, pickPreferredArbiter pool bonded escrowId exclude = .ok pick := by
  obtain ⟨legacy, hlegacy⟩ := pickArbiterFromPool_ok hpool escrowId exclude
  obtain ⟨keys, rfl⟩ := hpool
  obtain ⟨members, rfl⟩ := hbonded
  obtain ⟨lowered, hlowered⟩ := loweredKeys_ok keys
  obtain ⟨bonded, hbonded⟩ := filterByKey_ok true lowered members
  obtain ⟨preferred, hpreferred⟩ := pickArbiterFromPool_ok ⟨bonded, rfl⟩ escrowId exclude
  by_cases hempty : bonded = []
  · refine ⟨legacy, ?_⟩
    simp [pickPreferredArbiter, JsValue.items, JsValue.orElse, hlowered, hbonded, hempty, truthyKey,
      hlegacy]
  · cases htruthy : truthyKey preferred with
    | none =>
      refine ⟨legacy, ?_⟩
      simp [pickPreferredArbiter, JsValue.items, JsValue.orElse, hlowered, hbonded, hempty,
        hpreferred, htruthy, hlegacy]
    | some pk =>
      refine ⟨some pk, ?_⟩
      simp [pickPreferredArbiter, JsValue.items, JsValue.orElse, hlowered, hbonded, hempty,
        hpreferred, htruthy]

theorem appendBackups_ok (keys : List String) (escrowId : String)
    (principals : List (Option String)) (fuel : ℕ) (order : List String) :
    ∃ found, appendBackups (keys.map .str) escrowId principals fuel order = .ok found := by
  induction fuel generalizing order with
  | zero => exact ⟨order, rfl⟩
  | succ fuel ih =>
    unfold appendBackups
    split_ifs
    · exact ⟨order, rfl⟩
    · obtain ⟨pick, hpick⟩ := pickArbiterFromPool_ok ⟨keys, rfl⟩ escrowId
        (principals ++ order.map some)
      cases htruthy : truthyKey pick with
      | none => exact ⟨order, by simp [hpick, htruthy]⟩
      | some pk =>
        obtain ⟨found, hfound⟩ := ih (order ++ [pk])
        exact ⟨found, by simp [hpick, htruthy, hfound]⟩

theorem arbiterPriorityOrderFor_ok (h : KeyPool pool) (escrowId : String)
    (buyer seller assigned : Option String) :
    ∃ order, arbiterPriorityOrderFor escrowId pool buyer seller assigned = .ok order := by
  obtain ⟨keys, rfl⟩ := h
  exact appendBackups_ok keys escrowId [buyer, seller] _ _

theorem arbiterShareRecipientsFor_ok (h : KeyPool pool) (escrowId : String)
    (buyer seller assigned : Option String) :
    ∃ keys, arbiterShareRecipientsFor escrowId pool buyer seller assigned = .ok keys := by
  obtain ⟨order, horder⟩ := arbiterPriorityOrderFor_ok h escrowId buyer seller assigned
  obtain ⟨keys, rfl⟩ := h
  simp [arbiterShareRecipientsFor, horder, JsValue.spread]

theorem poolAdmits_ok (h : KeyPool pool) (pubkey : String) :
    ∃ admitted, poolAdmits pool pubkey = .ok admitted := by
  obtain ⟨keys, rfl⟩ := h
  obtain ⟨long, hlong⟩ : ∃ long, (JsValue.arr (keys.map .str)).hasLength = .ok long := ⟨_, rfl⟩
  cases long <;> simp [poolAdmits, hlong, JsValue.includes]

theorem lengthIsZero_ok (h : KeyPool pool) : ∃ empty, pool.lengthIsZero = .ok empty := by
  obtain ⟨keys, rfl⟩ := h
  simp [JsValue.lengthIsZero, JsValue.get]

/-- The pools of a trade are lists of texts. -/
structure KeyPools (s : EscrowState) : Prop where
  community : KeyPool s.communityArbiters
  bonded : KeyPool s.bondedArbiters

variable {next : EscrowState}

namespace KeyPools

theorem clonable (h : KeyPools s) : Clonable s := by
  obtain ⟨⟨keys, hkeys⟩, bonded, hbonded⟩ := h
  exact ⟨⟨_, by rw [hkeys]; rfl⟩, _, by rw [hbonded]; rfl⟩

theorem copy (h : KeyPools s) (clone : IsCopy s next) : KeyPools next := by
  obtain ⟨⟨keys, hkeys⟩, members, hmembers⟩ := h
  obtain ⟨community, bonded, hcommunity, hbonded, hnext, hnext'⟩ := clone.copied
  rw [hkeys] at hcommunity
  rw [hmembers] at hbonded
  cases hcommunity
  cases hbonded
  exact ⟨⟨keys, hnext⟩, members, hnext'⟩

theorem congr (h : KeyPools s) (hcommunity : s'.communityArbiters = s.communityArbiters)
    (hbonded : s'.bondedArbiters = s.bondedArbiters) : KeyPools s' :=
  ⟨hcommunity ▸ h.community, hbonded ▸ h.bonded⟩

theorem handled (h : KeyPools s) (hstep : Handled host s e s') : KeyPools s' := by
  cases hstep
  case planRepeated => exact h
  case voted clone count =>
    obtain ⟨votes, acting, rfl⟩ := countVote_eq_ok count
    exact (h.copy clone).congr rfl rfl
  case stalled clone => exact (h.copy clone).congr rfl rfl
  all_goals
    rename_i clone
    exact (h.copy clone).congr rfl rfl

theorem expires (h : KeyPools s) (hexpires : Expires s e next) : KeyPools next := by
  obtain ⟨copy, clone, rfl⟩ := hexpires.eq
  exact (h.copy clone).congr rfl rfl

theorem step (h : KeyPools s) (hstep : Stepped host s e s') : KeyPools s' := by
  cases hstep with
  | echoed => exact h
  | premium _ _ clone => exact (h.copy clone).congr rfl rfl
  | settlement _ _ clone => exact (h.copy clone).congr rfl rfl
  | expired _ expires => exact h.expires expires
  | handled _ _ _ _ handled => exact h.handled handled
  | lateHandled _ _ expires handled => exact (h.expires expires).handled handled

theorem arbiterVotePriority_ok (h : KeyPools s) (pubkey : String) :
    ∃ place, arbiterVotePriority s pubkey = .ok place := by
  obtain ⟨order, horder⟩ := arbiterPriorityOrderFor_ok h.community s.id s.participants.buyer
    s.participants.seller s.participants.arbiter
  simp [arbiterVotePriority, arbiterPriorityOrder, horder]

theorem fundingArbiter_ok (h : KeyPools s) : ∃ arbiter, fundingArbiter s = .ok arbiter := by
  unfold fundingArbiter
  split
  · exact ⟨_, rfl⟩
  · exact pickPreferredArbiter_ok h.community h.bonded _ _

theorem mayCarryPastExpiry_ok (h : KeyPools s) (pubkey : String) :
    ∃ placed, mayCarryPastExpiry s pubkey = .ok placed := by
  obtain ⟨place, hplace⟩ := h.arbiterVotePriority_ok pubkey
  unfold mayCarryPastExpiry
  split_ifs <;> simp [hplace]

theorem cloneState_ok (h : KeyPools s) : ∃ next, cloneState s = .ok next := h.clonable.cloneState

end KeyPools

/-! ### Domains of the operations -/

theorem bigInt_ok_iff {n : JsNumber} : (∃ i, bigInt n = .ok i) ↔ n.isInteger = true := by
  cases n with
  | fin q =>
    by_cases h : q.den = 1 <;> simp [bigInt, JsNumber.isInteger, h]
  | nan => simp [bigInt, JsNumber.isInteger]
  | posInf => simp [bigInt, JsNumber.isInteger]
  | negInf => simp [bigInt, JsNumber.isInteger]

theorem minSlicesForCap_ok_iff {total : JsNumber} :
    (∃ floor, minSlicesForCap total = .ok floor) ↔ total.isSafeInteger = true ∧ ¬ total ≤ 0 := by
  unfold minSlicesForCap
  split_ifs with h
  · simp only [exists_false, false_iff, not_and, not_not]
    intro hsafe
    simpa [hsafe] using h
  · simpa [not_or] using h

def MethodList (methods : JsValue) : Prop :=
  methods.truthy = false ∨ (∃ text, methods = .str text) ∨ KeyPool methods

theorem normalizeMethods_ok_iff (methods : List JsValue) (seen : List String) :
    (∃ cleaned, normalizeMethods methods seen = .ok cleaned) ↔
      ∃ texts : List String, methods = texts.map .str := by
  induction methods generalizing seen with
  | nil => exact ⟨fun _ => ⟨[], rfl⟩, fun _ => ⟨[], rfl⟩⟩
  | cons method rest ih =>
    constructor
    · rintro ⟨cleaned, h⟩
      simp only [normalizeMethods, bind_eq_ok] at h
      obtain ⟨value, hvalue, h⟩ := h
      obtain ⟨text, rfl⟩ : ∃ text, method = .str text := by
        cases method <;> simp [JsValue.trimmed] at hvalue ⊢
      have hrest : ∃ texts : List String, rest = texts.map .str := by
        split_ifs at h
        · exact (ih _).mp ⟨cleaned, h⟩
        · simp only [bind_eq_ok] at h
          obtain ⟨later, hlater, -⟩ := h
          exact (ih _).mp ⟨later, hlater⟩
      obtain ⟨texts, rfl⟩ := hrest
      exact ⟨text :: texts, rfl⟩
    · rintro ⟨texts, htexts⟩
      cases texts with
      | nil => cases htexts
      | cons text texts =>
        obtain ⟨rfl, rfl⟩ := List.cons.inj htexts
        simp only [normalizeMethods, JsValue.trimmed, bind_eq_ok, Except.ok.injEq, exists_eq_left']
        split_ifs
        · exact (ih _).mpr ⟨texts, rfl⟩
        · simpa using (ih _).mpr ⟨texts, rfl⟩

theorem normalizePaymentMethods_ok_iff {methods : JsValue} :
    (∃ cleaned, normalizePaymentMethods methods = .ok cleaned) ↔ MethodList methods := by
  unfold normalizePaymentMethods MethodList KeyPool
  split_ifs with hfalsy
  · simp_all
  · have htruthy : methods.truthy = true := by simpa using hfalsy
    simp only [htruthy, Bool.true_eq_false, false_or]
    cases methods with
    | arr items =>
      have := normalizeMethods_ok_iff items []
      simp [JsValue.spread, ← this]
    | str text =>
      obtain ⟨cleaned, hcleaned⟩ := (normalizeMethods_ok_iff _ []).mpr ⟨textChars text, rfl⟩
      simp [JsValue.spread, hcleaned]
    | undefined => cases htruthy
    | null => cases htruthy
    | bool b => simp [JsValue.spread]
    | num n => simp [JsValue.spread]
    | obj fields => simp [JsValue.spread]

theorem arrayLength_ok_iff {n : JsNumber} (hpos : 0 < n) (hle : n ≤ 52) :
    (∃ length, arrayLength n = .ok length) ↔ n.isInteger = true := by
  cases n with
  | fin q =>
    have hzero : (0 : JsNumber) = .fin 0 :=
        JsNumber.ofInt_natCast (n := 0) (by norm_num [JsNumber.maxExact])
    have hfifty : (52 : JsNumber) = .fin 52 := JsNumber.ofInt_natCast (n := 52)
      (by norm_num [JsNumber.maxExact])
    rw [hzero, JsNumber.fin_lt_fin] at hpos
    rw [hfifty, JsNumber.fin_le_fin] at hle
    by_cases hden : q.den = 1
    · have hq : q = q.num := by
        conv_lhs => rw [← Rat.num_div_den q, hden]
        simp
      have hnum : 0 ≤ q.num := Rat.num_nonneg.mpr hpos.le
      have hfits : q.num < 4294967296 := by
        have : (q.num : ℚ) ≤ 52 := hq ▸ hle
        have : q.num ≤ 52 := by exact_mod_cast this
        omega
      simp [arrayLength, JsNumber.toNat?, JsNumber.isInteger, hden, hnum, hfits]
    · simp [arrayLength, JsNumber.toNat?, JsNumber.isInteger, hden]
  | nan => simp [arrayLength, JsNumber.toNat?, JsNumber.isInteger]
  | posInf => cases hle
  | negInf => cases hpos

def Indexed (share : JsValue) : Prop :=
  ∃ index text, share.get "shareIndex" = .ok index ∧ index.print = .ok text

theorem collectShares_ok_iff (entries : List JsValue) (shares : OrderedMap String JsValue) :
    (∃ found, collectShares entries shares = .ok found) ↔ ∀ share ∈ entries, Indexed share := by
  induction entries generalizing shares with
  | nil => simp [collectShares]
  | cons share rest ih =>
    simp only [collectShares, bind_eq_ok, List.forall_mem_cons, Indexed]
    constructor
    · rintro ⟨found, index, hindex, text, htext, hrest⟩
      exact ⟨⟨index, text, hindex, htext⟩, (ih _).mp ⟨found, hrest⟩⟩
    · rintro ⟨⟨index, text, hindex, htext⟩, hrest⟩
      obtain ⟨found, hfound⟩ := (ih (shares.set text share)).mpr hrest
      exact ⟨found, index, hindex, text, htext, hfound⟩

/-! ### Handlers that return -/

@[simp]
theorem returns_guardProblem {problem : Option (ErrorCode × String)} {eventId : String} :
    Returns (guardProblem problem eventId) := by
  rcases problem with _ | ⟨code, message⟩ <;> simp [Returns, guardProblem]

section Handlers

theorem returns_planArbiterGate (h : KeyPools s) (p : PlanStartPayload) :
    Returns (planArbiterGate s e p) := by
  have hpick := pickPreferredArbiter_ok h.community h.bonded s.id
    [some p.buyerPubkey, some p.sellerPubkey]
  have hlegacy := pickArbiterFromPool_ok h.community s.id [some p.buyerPubkey, some p.sellerPubkey]
  unfold planArbiterGate
  split <;> simp [hpick, hlegacy]

theorem returns_handlePlanStart (h : KeyPools s) (p : PlanStartPayload) :
    Returns (handlePlanStart s e p) := by
  unfold handlePlanStart
  split <;> simp [startPlan, returns_planArbiterGate h, h.cloneState_ok]

theorem returns_handleChildKey (h : KeyPools s) (p : ChildKeyPayload) :
    Returns (handleChildKey s e p) := by
  unfold handleChildKey
  split <;> simp [h.cloneState_ok]

theorem returns_joinRoleGate (h : KeyPools s) (p : JoinPayload) :
    Returns (joinRoleGate s e p) := by
  have hpick := pickPreferredArbiter_ok h.community h.bonded s.id
    [s.participants.buyer, s.participants.seller]
  have hlegacy := pickArbiterFromPool_ok h.community s.id
    [s.participants.buyer, s.participants.seller]
  unfold joinRoleGate
  split_ifs
  · simp [joinArbiterGate, lengthIsZero_ok h.community, poolAdmits_ok h.community, hpick, hlegacy]
  · simp

theorem returns_handleJoin (h : KeyPools s) (p : JoinPayload) :
    Returns (handleJoin host s e p) := by
  unfold handleJoin
  split
  · simp [joinFundingTerms, h.cloneState_ok, h.fundingArbiter_ok]
  · simp only [avoids_bind, returns_guardErr, true_and]
    intros
    split_ifs
    · simp [joinAgain, h.cloneState_ok]
    · simp [joinSeat, returns_joinRoleGate h, h.cloneState_ok]

theorem returns_handleCancel (h : KeyPools s) (p : CancelPayload) :
    Returns (handleCancel s e p) := by
  simp [handleCancel, h.cloneState_ok]

theorem releasedShareError_ok (h : KeyPools s) (share : LockShareEntry) :
    ∃ problem, releasedShareError s share = .ok problem := by
  unfold releasedShareError
  by_cases harbiter : share.shareIndex.strictEq 2 = true
  · rw [if_pos harbiter]
    dsimp only
    split
    · exact ⟨_, rfl⟩
    · rename_i arbiter _
      have hholders : ∃ keys, arbiterShareHolders s arbiter = .ok keys := by
        unfold arbiterShareHolders
        split_ifs
        · obtain ⟨keys, hkeys⟩ := h.community
          exact arbiterShareRecipientsFor_ok ⟨keys, by rw [hkeys]; rfl⟩ _ _ _ _
        · exact ⟨_, rfl⟩
      obtain ⟨keys, hkeys⟩ := hholders
      simp [hkeys]
  · rw [if_neg harbiter]
    exact ⟨_, rfl⟩

theorem releasedSharesError_ok (h : KeyPools s) (released : List LockShareEntry) :
    ∃ problem, releasedSharesError s released = .ok problem := by
  induction released with
  | nil => exact ⟨none, rfl⟩
  | cons share rest ih =>
    obtain ⟨problem, hproblem⟩ := releasedShareError_ok h share
    obtain ⟨later, hlater⟩ := ih
    cases problem <;> simp [releasedSharesError, hproblem, hlater]

theorem returns_handleLockStep (h : KeyPools s) (p : LockStepPayload) :
    Returns (handleLockStep s e p) := by
  unfold handleLockStep
  simp only [avoids_bind, returns_guardErr, true_and]
  intros
  split
  · simp
  · split
    · simp
    · simp [acceptLock, h.cloneState_ok]
    · unfold releaseShares
      split <;> simp [releasedSharesError_ok h, h.cloneState_ok]

theorem returns_arbiterFloorGate {lone : Option JsNumber → Bool} :
    Returns (arbiterFloorGate s e lone) := by
  unfold arbiterFloorGate
  split <;> simp

theorem returns_voterRole (h : KeyPools s) (p : VotePayload) : Returns (voterRole s e p) := by
  unfold voterRole
  split
  · simp
  · simp only [substituteGate, avoids_bind, returns_guardErr, returns_js, true_and, avoids_pure,
      implies_true, and_true]
    intros
    refine ⟨h.arbiterVotePriority_ok _, ?_⟩
    intros
    split_ifs <;> simp [returns_arbiterFloorGate]

theorem bestArbiterVote_ok (h : KeyPools s) (votes : List (ParsedEscrowEvent × VotePayload))
    (best : Option ArbiterVote) : ∃ found, bestArbiterVote s votes best = .ok found := by
  induction votes generalizing best with
  | nil => exact ⟨best, rfl⟩
  | cons vote rest ih =>
    obtain ⟨e, p⟩ := vote
    obtain ⟨place, hplace⟩ := h.arbiterVotePriority_ok e.pubkey
    unfold bestArbiterVote
    split_ifs
    · exact ih best
    · cases place with
      | none => simpa [hplace] using ih best
      | some place =>
        simp only [hplace, bind_eq_ok, Except.ok.injEq, exists_eq_left']
        split_ifs
        · exact ih _
        · exact ih best

theorem countVote_ok (h : KeyPools next) (p : VotePayload) (role : Role) :
    ∃ s', countVote s next e p role = .ok s' := by
  unfold countVote
  by_cases hpooled : role = .arbiter ∧ s.lock.arbiterPoolShare = some true
  · rw [if_pos hpooled]
    obtain ⟨best, hbest⟩ := bestArbiterVote_ok h (voteEvents next.eventChain) none
    cases best <;> simp [hbest]
  · rw [if_neg hpooled]
    exact ⟨_, rfl⟩

theorem returns_handleVote (h : KeyPools s) (p : VotePayload) :
    Returns (handleVote host s e p) := by
  simp only [handleVote, avoids_bind, returns_guardErr, returns_guardNone, returns_js, true_and]
  intros
  refine ⟨returns_voterRole h p, fun role _ _ _ _ _ => ⟨?_, fun _ _ _ _ => ?_⟩⟩
  · unfold arbiterVoteGate
    split_ifs
    · exact returns_arbiterFloorGate
    · simp
  · refine ⟨h.cloneState_ok, fun next hnext => ?_⟩
    have hrecord : KeyPools (recordVote next e p) :=
      (h.copy (cloneState_isCopy (js_eq_ok.mp hnext))).congr rfl rfl
    exact countVote_ok hrecord p role

theorem returns_handleResolve (h : KeyPools s) (p : ResolvePayload) :
    Returns (handleResolve host s e p) := by
  simp [handleResolve, h.cloneState_ok]

theorem returns_handleClaim (h : KeyPools s) (p : ClaimPayload) :
    Returns (handleClaim s e p) := by
  simp only [handleClaim, avoids_bind, returns_guardErr, true_and]
  intros
  split <;> simp [h.cloneState_ok]

theorem returns_handleComplete (h : KeyPools s) (p : CompletePayload) :
    Returns (handleComplete host s e p) := by
  unfold handleComplete
  split <;> simp [claimRefund, completeTrade, h.cloneState_ok]

theorem returns_handlePeriodRelease (h : KeyPools s) (p : PeriodReleasePayload) :
    Returns (handlePeriodRelease s e p) := by
  simp only [handlePeriodRelease, avoids_bind, returns_guardErr, true_and]
  intros
  split <;> simp [h.cloneState_ok]

theorem returns_handleChat (h : KeyPools s) : Returns (handleChat s e) := by
  simp [handleChat, h.cloneState_ok]

theorem returns_handlePremium (h : KeyPools s) : Returns (handlePremium s e) := by
  unfold handlePremium
  split_ifs <;> simp [h.cloneState_ok]

theorem returns_handleSettlement (h : KeyPools s) (p : SettlementPayload) :
    Returns (handleSettlement s e p) := by
  unfold handleSettlement
  split_ifs <;> simp [h.cloneState_ok]

end Handlers

/-! ### Escrow addresses -/

/-- What the engine relies on in the Bitcoin library: an escrow is built from the keys, the funder,
the heights and the network of its terms, and a key that goes into a leaf is a valid one, so that
it has an address of its own. -/
structure Host.BuildsFromKeys (host : Host) : Prop where
  reads : ∀ terms committed : OnchainFundingTerms, changedTerm terms committed = none →
    host.escrowAddress terms = host.escrowAddress committed
  key : ∀ terms address role, host.escrowAddress terms = .ok address →
    ∃ own, host.taprootAddress (termsKey terms role) terms.network = .ok own

def LockBuilds (host : Host) (s : EscrowState) : Prop :=
  ∀ terms, s.lock.onchain = some terms →
    ∃ address, host.escrowAddress terms.toOnchainFundingTerms = .ok address

theorem fundingTermsError_eq_none {terms : OnchainFundingTerms} {time : JsNumber}
    (h : fundingTermsError host s terms time = none) :
    ∃ address, host.escrowAddress terms = .ok address := by
  obtain ⟨arbiter, hvalid⟩ := fundingTermsError_eq_none_iff.mp h
  have hplan := hvalid.address
  unfold resolveFundingPlan at hplan
  dsimp only at hplan
  split_ifs at hplan
  cases haddress : host.escrowAddress terms with
  | error d => simp [haddress, Except.toOption] at hplan
  | ok address => exact ⟨address, rfl⟩

theorem onchainLockError_eq_ok_none (hhost : host.BuildsFromKeys) {terms : OnchainLockTerms}
    {time : JsNumber} (h : onchainLockError host s terms time = .ok none) :
    ∃ address, host.escrowAddress terms.toOnchainFundingTerms = .ok address := by
  unfold onchainLockError at h
  split at h
  · cases h
  · split at h
    · cases h
    · rename_i committed _ _ hnone
      rw [Option.or_eq_none_iff] at hnone
      rw [hhost.reads _ committed hnone.2]
      exact fundingTermsError_eq_none hnone.1

theorem Handled.lockBuilds_of_lock (hhost : host.BuildsFromKeys) (h : Handled host s e s')
    (hkind : e.kind = .lock) (hlock : s.lock = {}) : LockBuilds host s' := by
  cases h
  case locked p next role withheld amount entries shares _ _ _ _ _ _ rail _ _ _ _ _ clone =>
    intro terms hterms
    have hlocked : p.onchain = some terms := by
      have : next.lock.onchain = none := by rw [clone.lock, hlock]
      simpa [lockedState, lockDetails, this] using hterms
    unfold lockRailGate at rail
    rw [hlocked] at rail
    simp only [bind_eq_ok, js_eq_ok, guardNone_eq_ok] at rail
    obtain ⟨problem, hproblem, -, hnone, -⟩ := rail
    exact onchainLockError_eq_ok_none hhost (hnone ▸ hproblem)
  all_goals simp_all [ParsedEscrowEvent.kind, EscrowPayload.kind]

theorem Reached.lockBuilds (hhost : host.BuildsFromKeys) (h : Reached host s) :
    LockBuilds host s := by
  refine Reached.of_lock (fun s hlock terms hterms => ?_)
    (fun h hkind hlock => h.lockBuilds_of_lock hhost hkind hlock)
    (fun {s e s'} hstep hreached hlocked hs terms hterms => ?_) h
  · rw [hlock] at hterms
    cases hterms
  · have honchain : s'.lock.onchain = s.lock.onchain :=
      congrArg CustodyCore.onchain (hstep.pastOpen_core (hreached.funded hlocked).not_open)
    exact hs terms (honchain ▸ hterms)

theorem winnerSettlementChoice_ok (hhost : host.BuildsFromKeys) (h : LockBuilds host s) :
    ∃ choice, winnerSettlementChoice host s = .ok choice := by
  unfold winnerSettlementChoice
  split
  · rename_i terms winner winnerRole honchain _
    obtain ⟨address, haddress⟩ := h terms honchain
    obtain ⟨own, hown⟩ := hhost.key _ address winnerRole haddress
    simp only [haddress, bind_eq_ok, Except.ok.injEq, exists_eq_left']
    by_cases hsame : address = terms.address
    · simp [hsame, hown]
    · simp [hsame]
  · exact ⟨none, rfl⟩

theorem stalledPayoutEligibility_ok (hhost : host.BuildsFromKeys) (h : LockBuilds host s)
    (now : JsNumber) : ∃ eligible, stalledPayoutEligibility host s now = .ok eligible := by
  obtain ⟨choice, hchoice⟩ := winnerSettlementChoice_ok hhost h
  unfold stalledPayoutEligibility
  split
  · rename_i resolvedAt winner winnerRole _ _
    dsimp only
    generalize (if winnerRole = .buyer then Role.seller else .buyer) = other
    split_ifs
    · exact ⟨none, rfl⟩
    · cases choice with
      | none => simp [hchoice]
      | some choice =>
        simp only [hchoice, bind_eq_ok, Except.ok.injEq, exists_eq_left']
        split_ifs <;> simp
  · exact ⟨none, rfl⟩

theorem returns_handleSettlementStalled (hhost : host.BuildsFromKeys) (h : KeyPools s)
    (hlock : LockBuilds host s) (p : SettlementStalledPayload) :
    Returns (handleSettlementStalled host s e p) := by
  simp only [handleSettlementStalled, avoids_bind, returns_js, returns_guardNone, returns_guardErr,
    true_and, avoids_pure, implies_true, and_true]
  refine ⟨stalledPayoutEligibility_ok hhost hlock _, ?_⟩
  intro eligible _ _ _
  refine ⟨h.cloneState_ok, fun copy hcopy => winnerSettlementChoice_ok hhost ?_⟩
  have hsame : copy.lock = s.lock := (cloneState_isCopy (js_eq_ok.mp hcopy)).lock
  intro terms hterms
  exact hlock terms (hsame ▸ hterms)

/-! ### The gauntlet -/

theorem returns_expiryGate (h : KeyPools s) : Returns (expiryGate s e) := by
  have hexpire : ∃ next, expire s = .ok next := by
    obtain ⟨next, hnext⟩ := h.cloneState_ok
    simp [expire, hnext]
  unfold expiryGate placeGate passDeadline
  split_ifs <;> simp [-Bool.exists_bool, h.mayCarryPastExpiry_ok, hexpire]

theorem returns_applyConsensus (h : KeyPools s)
    (hdispatch : ∀ live, (live = s ∧ (isPastDeadline s e = false ∨ s.status = .expired)) ∨
      ((e.kind = .vote ∨ e.kind = .lockStep) ∧ Expires s e live) → s.hasEvent e.id = false →
        s.status.isTrulyTerminal = false → Returns (dispatch host live e)) :
    Returns (applyConsensus host s e) := by
  unfold applyConsensus
  split_ifs with hknown
  · simp
  · simp only [avoids_bind, returns_guardErr, returns_expiryGate h, guardErr_eq_ok, true_and]
    intro _ hopen due hdue
    have hfresh : s.hasEvent e.id = false := by simpa using hknown
    have hopen : s.status.isTrulyTerminal = false := by simpa using hopen
    rcases expiryGate_cases hdue hopen with ⟨rfl, hready⟩ | ⟨next, hexpires, rfl⟩
    · exact hdispatch s (Or.inl ⟨rfl, hready⟩) hfresh hopen
    · split_ifs with hkind
      · exact hdispatch next (Or.inr ⟨hkind, hexpires⟩) hfresh hopen
      · simp

theorem returns_dispatch (hhost : host.BuildsFromKeys) (h : KeyPools s) (hlock : LockBuilds host s)
    (hkind : e.kind ≠ .subscribe ∧ e.kind ≠ .lock) : Returns (dispatch host s e) := by
  unfold dispatch
  cases hp : e.payload with
  | subscribe p => exact absurd (by rw [ParsedEscrowEvent.kind, hp]; rfl) hkind.1
  | lock p => exact absurd (by rw [ParsedEscrowEvent.kind, hp]; rfl) hkind.2
  | join p => exact returns_handleJoin h p
  | vote p => exact returns_handleVote h p
  | resolve p => exact returns_handleResolve h p
  | claim p => exact returns_handleClaim h p
  | complete p => exact returns_handleComplete h p
  | cancel p => exact returns_handleCancel h p
  | chat p => exact returns_handleChat h
  | periodRelease p => exact returns_handlePeriodRelease h p
  | planStart p => exact returns_handlePlanStart h p
  | childKey p => exact returns_handleChildKey h p
  | settlementStalled p => exact returns_handleSettlementStalled hhost h hlock p
  | lockStep p => exact returns_handleLockStep h p
  | create p => simp
  | premium p => simp
  | settlement p => simp

end ChamaEscrow
