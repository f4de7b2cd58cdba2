import ChamaEscrow.Trade.Totality

/-!
# Events that leave a domain

`Strays` lists how an event the parser accepts leaves the domain of an operation of the reducer, one
constructor for each operation that takes not every value the parser lets through.

* `reducer_returns`: on the trades whose CREATE named lists of texts as pools, the reducer ends with
  a state or a rejection for every event that does not stray, and with an exception for the others.
* `fractional_subscription_throws`: a subscription to two and a half periods strays.
-/

namespace ChamaEscrow

open Js Library

variable {host : Host} {s s' : EscrowState} {e : ParsedEscrowEvent}

/-! ### Leaving a domain -/

structure CheckedShares (p : LockPayload) : Prop where
  ecash : p.onchain = none → ∃ entries, p.shares = .arr entries ∧ entries.length = 3
  withheld : p.withheldShares = some true → ∀ share ∈ elements p.shares,
    ∃ fields n, share = .obj fields ∧ share.field "shareIndex" = .num n

structure CreateOpens (e : ParsedEscrowEvent) (p : CreatePayload) : Prop where
  creator : creatorMatchesEscrowId e.escrowId e.pubkey = true
  described : ¬ (p.description = "" ∨ p.amountMsats ≤ 0)
  funded : ¬ (p.mintUrl = "" ∧ !p.escrowMode.isText "onchain")
  lasting : ¬ p.expirySeconds ≤ 0

/-- A LOCK that is dispatched and passes the checks before its custody. -/
structure LockOpens (s : EscrowState) (e : ParsedEscrowEvent) (p : LockPayload) (role : Role) :
    Prop where
  payload : e.payload = .lock p
  fresh : s.hasEvent e.id = false
  due : isPastDeadline s e = false
  hardening : lockHardeningGate s e p = .ok ()
  notCircle : s.category ≠ "chama"
  chama : chamaLockGate s e p = .ok ()
  status : s.status = .created
  locker : lockerGate s e p = .ok role
  seats : lockSeatsGate s e p = .ok ()

def SharesReadable (shares : JsValue) : Prop :=
  ∃ entries, (shares.orElse (.arr [])).spread = .ok entries ∧ ∀ share ∈ entries, Indexed share

/-- The ways an event leaves the domain of an operation of the reducer: it passes the checks before
the operation, and a field that nobody checked is not what the operation takes. -/
inductive Strays (host : Host) : Option EscrowState → ParsedEscrowEvent → Prop
  | policy {e : ParsedEscrowEvent} {p : CreatePayload} (payload : e.payload = .create p)
      (opens : CreateOpens e p)
      (unsliced : createMode p = .onchain → p.sliceCount.isUndefined = true)
      (other : (statedPolicy p.settlementPolicy (createMode p)).isText
        (defaultSettlementPolicy (createMode p)) = false)
      (unprintable : ∀ text, p.settlementPolicy.print ≠ .ok text) : Strays host none e
  | slices {e : ParsedEscrowEvent} {p : CreatePayload} {count : JsNumber}
      (payload : e.payload = .create p) (opens : CreateOpens e p) (ecash : createMode p = .ecash)
      (stated : (statedPolicy p.settlementPolicy .ecash).isText settlementPolicyEcashSlices = true)
      (sliced : p.sliceCount.number? = some count)
      (range : count.isSafeInteger = true ∧ ¬ count < 1 ∧ ¬ maxSliceCount < count)
      (fraction : p.amountMsats.isSafeInteger = false) : Strays host none e
  | methods {e : ParsedEscrowEvent} {p : CreatePayload} {sliceCount : Option JsNumber}
      {arbiter : Option String} (payload : e.payload = .create p) (opens : CreateOpens e p)
      (slices : slicePolicyGate e p (createMode p) = .ok sliceCount)
      (coordinator : p.trancheChild.any (fun child => e.pubkey ≠ child.coordinatorPubkey) = false)
      (seat : shareArbiter e p (createSeats e p).2.arbiter = .ok arbiter)
      (methods : ¬ MethodList p.paymentMethods) : Strays host none e
  | periods {s : EscrowState} {e : ParsedEscrowEvent} {p : SubscribePayload}
      (payload : e.payload = .subscribe p) (fresh : s.hasEvent e.id = false)
      (due : isPastDeadline s e = false) (plain : s.chamaCircle = none)
      (status : s.status = .created)
      (seated : (getRole s e.pubkey).isSome) (first : s.subscription = none)
      (total : (p.totalPeriods * p.periodAmountMsats).strictEq s.amountMsats = true)
      (fraction : p.totalPeriods.isInteger = false) : Strays host (some s) e
  | deposit {s : EscrowState} {e : ParsedEscrowEvent} {p : LockPayload} {role : Role}
      {terms : OnchainLockTerms} {committed : OnchainFundingTerms} (opens : LockOpens s e p role)
      (onchain : p.onchain = some terms) (frozen : s.onchainFundingTerms = some committed)
      (valid : fundingTermsError host s committed e.timestamp = none)
      (same : changedTerm terms.toOnchainFundingTerms committed = none)
      (digits : isDigits terms.amountSats = true) (fraction : s.amountMsats.isInteger = false) :
      Strays host (some s) e
  | order {s : EscrowState} {e : ParsedEscrowEvent} {p : LockPayload} {role : Role}
      {withheld : Option Withheld} {total : JsNumber} (opens : LockOpens s e p role)
      (rail : lockRailGate host s e p = .ok ()) (withhold : withheldGate s e p role = .ok withheld)
      (ordered : lockOrderGate s e p = .ok total) (onchain : p.onchain.isSome)
      (fraction : total.isInteger = false) : Strays host (some s) e
  | shares {s : EscrowState} {e : ParsedEscrowEvent} {p : LockPayload} {role : Role}
      {withheld : Option Withheld} {total : JsNumber} (opens : LockOpens s e p role)
      (rail : lockRailGate host s e p = .ok ()) (withhold : withheldGate s e p role = .ok withheld)
      (ordered : lockOrderGate s e p = .ok total) (covered : lockAmountGate e p total = .ok ())
      (mode : s.escrowMode = if p.onchain.isSome then .onchain else .ecash)
      (unreadable : ¬ SharesReadable p.shares) : Strays host (some s) e

/-! ### CREATE -/

variable {p : CreatePayload}

theorem returns_sliceCountGate {count : JsNumber} (hpos : ¬ p.amountMsats ≤ 0) :
    Returns (sliceCountGate e p count) ↔
      ¬ ((count.isSafeInteger = true ∧ ¬ count < 1 ∧ ¬ maxSliceCount < count) ∧
        p.amountMsats.isSafeInteger = false) := by
  simp only [sliceCountGate, avoids_bind, returns_guardErr, returns_js, minSlicesForCap_ok_iff,
    guardErr_eq_ok, avoids_pure, hpos]
  simp only [not_or, Bool.not_eq_true', Bool.not_eq_false, implies_true, and_true, true_and,
    not_false_eq_true, forall_const, and_imp, not_and]

theorem returns_slicePolicyGate (hpos : ¬ p.amountMsats ≤ 0) :
    Returns (slicePolicyGate e p (createMode p)) ↔
      ¬ ((createMode p = .onchain → p.sliceCount.isUndefined = true) ∧
        (statedPolicy p.settlementPolicy (createMode p)).isText
          (defaultSettlementPolicy (createMode p)) = false ∧
        ∀ text, p.settlementPolicy.print ≠ .ok text) ∧
      ¬ (createMode p = .ecash ∧
        (statedPolicy p.settlementPolicy .ecash).isText settlementPolicyEcashSlices = true ∧
        ∃ count, p.sliceCount.number? = some count ∧
          (count.isSafeInteger = true ∧ ¬ count < 1 ∧ ¬ maxSliceCount < count) ∧
          p.amountMsats.isSafeInteger = false) := by
  unfold slicePolicyGate
  cases hstated : (statedPolicy p.settlementPolicy (createMode p)).isText
      (defaultSettlementPolicy (createMode p)) with
  | false =>
    -- A policy that is not the default of its rail is printed and refused.
    cases hmode : createMode p <;> rw [hmode] at hstated
    · have hslices : (statedPolicy p.settlementPolicy .ecash).isText settlementPolicyEcashSlices
          = false := hstated
      simp [hstated, hslices]
    · simp [hstated]
  | true =>
    cases hmode : createMode p <;> rw [hmode] at hstated
    · cases hcount : p.sliceCount <;>
        simp [hstated, returns_sliceCountGate hpos, JsValue.isUndefined, JsValue.number?,
          JsNumber.isSafeInteger]
    · cases hcount : p.sliceCount <;>
        simp [hstated, returns_sliceCountGate hpos, JsValue.isUndefined]

def NamesKeys (pool : JsValue) : Prop := pool.truthy = false ∨ KeyPool pool

theorem namesKeys_of_isCirclePool {pool : JsValue} (h : isCirclePool pool = true) :
    KeyPool (pool.orElse (.arr [])) := by
  cases pool with
  | undefined => exact ⟨[], rfl⟩
  | arr keys =>
    simp only [isCirclePool, List.all_eq_true] at h
    refine ⟨keys.filterMap JsValue.text?, ?_⟩
    simp only [JsValue.orElse, JsValue.arr.injEq]
    induction keys with
    | nil => rfl
    | cons key rest ih =>
      have hkey := h key List.mem_cons_self
      have hrest := ih fun k hk => h k (List.mem_cons_of_mem _ hk)
      cases key with
      | str text =>
        simp only [List.filterMap_cons, JsValue.text?, List.map_cons]
        rw [← hrest]
      | _ => cases hkey
  | _ => cases h

variable {cycle : Option ChamaCycleContext} {parent : Option CircleView}
  {witness : Option ShareView} {id pubkey : String}

variable {time : JsNumber} {sim : Bool}

theorem pools_of_chamaCreateError
    (h : chamaCreateError host p id pubkey time parent witness cycle sim = .ok none)
    (hplain : isPlainCreate p = false) :
    isCirclePool p.communityArbiters = true ∧ isCirclePool p.bondedArbiters = true := by
  unfold chamaCreateError at h
  rw [hplain] at h
  simp only [Bool.false_eq_true, if_false] at h
  split at h
  · cases h
  · rename_i hnone
    simp only [firstProblem, Option.map_eq_none_iff, List.find?_eq_none] at hnone
    have := hnone (!isCirclePool p.communityArbiters || !isCirclePool p.bondedArbiters,
      "Invalid circle arbiter pool") (by simp)
    simpa using this

theorem returns_shareArbiter {seated : Option String}
    (h : chamaCreateError host p id pubkey time parent witness cycle sim = .ok none) :
    Returns (shareArbiter e p seated) := by
  unfold shareArbiter
  split
  · simp
  · rename_i hpolicy
    have hplain : isPlainCreate p = false := by
      simp [isPlainCreate, show p.chamaPolicy ≠ .absent from hpolicy]
    obtain ⟨hcommunity, hbonded⟩ := pools_of_chamaCreateError h hplain
    have hpick := pickPreferredArbiter_ok (namesKeys_of_isCirclePool hcommunity)
      (namesKeys_of_isCirclePool hbonded) e.escrowId [some e.pubkey, p.sellerPubkey]
    simp [hpick]

theorem returns_handleCreate_of_law
    (hlaw : chamaCreateError host p e.escrowId e.pubkey e.timestamp e.chamaParent e.chamaWitness
      e.chamaCycle (eventIsSim e.raw) = .ok none) :
    Returns (handleCreate host e p) ↔ (CreateOpens e p →
      Returns (slicePolicyGate e p (createMode p)) ∧
        ∀ count, slicePolicyGate e p (createMode p) = .ok count →
          p.trancheChild.any (fun child => e.pubkey ≠ child.coordinatorPubkey) = false →
          ∀ arbiter, shareArbiter e p (createSeats e p).2.arbiter = .ok arbiter →
            MethodList p.paymentMethods) := by
  simp only [handleCreate, hlaw, avoids_bind, returns_guardErr, returns_guardNone, returns_js,
    returns_shareArbiter hlaw, normalizePaymentMethods_ok_iff, guardErr_eq_ok, guardNone_eq_ok,
    js_eq_ok, avoids_pure]
  simp only [ne_eq, decide_not, Bool.not_eq_true', Bool.not_eq_false, Bool.not_eq_true, not_or,
    not_and, Except.ok.injEq, forall_eq', implies_true, and_true, true_and,
    forall_const, exists_eq', and_imp]
  constructor
  · intro h opens
    obtain ⟨hdescription, hamount⟩ := not_or.mp opens.described
    exact h opens.creator hdescription hamount (by simpa using opens.funded) opens.lasting
  · intro h creator hdescription hamount hfunded hlasting
    exact h ⟨creator, not_or.mpr ⟨hdescription, hamount⟩, by simpa using hfunded, hlasting⟩

theorem returns_handleCreate (hparsed : Parsed host e)
    (hp : e.payload = .create p) : Returns (handleCreate host e p) ↔ ¬ Strays host none e := by
  rw [returns_handleCreate_of_law (hparsed.law hp)]
  constructor
  · intro h hstrays
    cases hstrays with
    | @policy _ q payload opens unsliced other unprintable =>
      obtain rfl : p = q := by simpa using hp.symm.trans payload
      have := (returns_slicePolicyGate (not_or.mp opens.described).2).mp (h opens).1
      exact this.1 ⟨unsliced, other, unprintable⟩
    | @slices _ q count payload opens ecash stated sliced range fraction =>
      obtain rfl : p = q := by simpa using hp.symm.trans payload
      have := (returns_slicePolicyGate (not_or.mp opens.described).2).mp (h opens).1
      exact this.2 ⟨ecash, stated, count, sliced, range, fraction⟩
    | @methods _ q count arbiter payload opens slices coordinator seat methods =>
      obtain rfl : p = q := by simpa using hp.symm.trans payload
      exact methods ((h opens).2 count slices coordinator arbiter seat)
  · intro h opens
    refine ⟨?_, fun count slices coordinator arbiter seat => ?_⟩
    · rw [returns_slicePolicyGate (not_or.mp opens.described).2]
      constructor
      · rintro ⟨unsliced, other, unprintable⟩
        exact h (.policy hp opens unsliced other unprintable)
      · rintro ⟨ecash, stated, count, sliced, range, fraction⟩
        exact h (.slices hp opens ecash stated sliced range fraction)
    · by_contra methods
      exact h (.methods hp opens slices coordinator seat methods)

/-! ### SUBSCRIBE -/

theorem isNumberWith_numberAt {check : JsNumber → Bool} {d : JsValue} {key : String}
    (h : isNumberWith check (d.field key) = true) : check (d.numberAt key) = true := by
  unfold isNumberWith at h
  unfold JsValue.numberAt
  cases hnumber : (d.field key).number? with
  | none => simp [hnumber] at h
  | some n => simpa [hnumber] using h

theorem Parsed.subscribe {p : SubscribePayload} (h : Parsed host e)
    (hp : e.payload = .subscribe p) :
    0 < p.totalPeriods ∧ p.totalPeriods ≤ 52 := by
  obtain ⟨d, hvalid, hread⟩ := h.payload
  have hkind : e.kind = .subscribe := by rw [ParsedEscrowEvent.kind, hp]; rfl
  rw [hkind] at hvalid hread
  simp only [validatePayload, Except.ok.injEq, validateSubscribePayload, Bool.and_eq_true] at hvalid
  rw [hp] at hread
  simp only [readPayload, EscrowPayload.subscribe.injEq] at hread
  subst hread
  simpa using isNumberWith_numberAt hvalid.1.1.1.1

theorem returns_handleSubscribe (h : KeyPools s) {p : SubscribePayload} (hparsed : Parsed host e)
    (hp : e.payload = .subscribe p) :
    Returns (handleSubscribe s e p) ↔ (s.chamaCircle = none → s.status = .created →
      (getRole s e.pubkey).isSome → s.subscription = none →
        (p.totalPeriods * p.periodAmountMsats).strictEq s.amountMsats = true →
          p.totalPeriods.isInteger = true) := by
  obtain ⟨hpos, hle⟩ := hparsed.subscribe hp
  obtain ⟨next, hnext⟩ := h.cloneState_ok
  simp [handleSubscribe, arrayLength_ok_iff hpos hle, hnext, Option.isSome_iff_ne_none]

/-! ### LOCK -/

theorem elements_eq {v : JsValue} {n : ℕ} (h : (elements v).length = n + 1) :
    v = .arr (elements v) := by
  cases v <;> simp [elements] at h ⊢

theorem isWithheldShapeEntry_eq_true {share : JsValue} (h : isWithheldShapeEntry share = true) :
    ∃ fields n, share = .obj fields ∧ share.field "shareIndex" = .num n := by
  simp only [isWithheldShapeEntry, Bool.and_eq_true] at h
  have hindex := h.1.1.2
  cases share with
  | obj fields =>
    unfold isNumberWith at hindex
    cases hfield : (JsValue.obj fields).field "shareIndex" with
    | num n => exact ⟨fields, n, rfl, rfl⟩
    | _ => simp [hfield, JsValue.number?] at hindex
  | _ => simp [JsValue.field, isNumberWith, JsValue.number?] at hindex

theorem Parsed.shares {p : LockPayload} (h : Parsed host e) (hp : e.payload = .lock p) :
    CheckedShares p := by
  obtain ⟨d, hvalid, hread⟩ := h.payload
  have hkind : e.kind = .lock := by rw [ParsedEscrowEvent.kind, hp]; rfl
  rw [hkind] at hvalid hread
  simp only [validatePayload, Except.ok.injEq, validateLockPayload, Bool.and_eq_true] at hvalid
  rw [hp] at hread
  simp only [readPayload, EscrowPayload.lock.injEq] at hread
  subst hread
  obtain ⟨⟨⟨⟨⟨⟨⟨-, hwithheld⟩, hrail⟩, -⟩, -⟩, -⟩, -⟩, -⟩ := hvalid
  constructor
  · intro hecash
    have hundefined : (d.field "onchain").isUndefined = true := by
      by_contra hdefined
      simp [readLock, hdefined] at hecash
    simp only [hundefined, Bool.not_true, Bool.false_eq_true, if_false, Bool.and_eq_true,
      decide_eq_true_eq] at hrail
    exact ⟨_, elements_eq hrail.2, hrail.2⟩
  · intro hflag share hshare
    have hflag : (d.field "withheldShares").bool? = some true := hflag
    simp only [hflag, ne_eq, not_true_eq_false, decide_false, Bool.false_or, withheldShape,
      Bool.and_eq_true, List.all_eq_true] at hwithheld
    exact isWithheldShapeEntry_eq_true (hwithheld.1.2 share hshare).1

theorem returns_lockHardeningGate (h : KeyPools s) (p : LockPayload) :
    Returns (lockHardeningGate s e p) := by
  unfold lockHardeningGate
  split_ifs
  · simp [lengthIsZero_ok h.community]
  · simp

theorem returns_chamaLockGate (h : KeyPools s)
    (hcircle : s.chamaPolicy.isSome → s.chamaCircle.isSome)
    (p : LockPayload) : Returns (chamaLockGate s e p) := by
  unfold chamaLockGate
  split_ifs with hshare
  · obtain ⟨circle, hcircle⟩ := Option.isSome_iff_exists.mp (hcircle hshare)
    have hlate : ∃ late, lockIsOutsideRound s e.timestamp = .ok late := by
      unfold lockIsOutsideRound
      split_ifs <;> simp [hcircle]
    have horder : ∃ order, arbiterPriorityOrder s = .ok order :=
      arbiterPriorityOrderFor_ok h.community _ _ _ _
    simp only [avoids_bind, returns_js, returns_guardErr, true_and]
    refine ⟨hlate, ?_⟩
    intros
    split <;> simp [horder]
  · simp

theorem returns_lockerGate (p : LockPayload) : Returns (lockerGate s e p) := by
  unfold lockerGate
  dsimp only
  generalize (if s.onchainFundingTerms.isSome ∧ p.onchain.isSome then getRole s e.pubkey
    else getActiveRole s e.pubkey e.timestamp) = held
  cases held <;> simp

theorem returns_lockSeatsGate (h : KeyPools s) (p : LockPayload) :
    Returns (lockSeatsGate s e p) := by
  simp [lockSeatsGate, poolAdmits_ok h.community]

theorem carriesShares_ok (shares : JsValue) : ∃ carried, carriesShares shares = .ok carried := by
  unfold carriesShares
  split_ifs with htruthy
  · cases shares with
    | undefined => cases htruthy
    | null => cases htruthy
    | _ =>
      simp only [JsValue.hasLength, JsValue.get, bind_eq_ok, Except.ok.injEq, exists_eq_left']
      split <;> simp
  · exact ⟨false, rfl⟩

theorem onchainLockError_ok_iff {terms : OnchainLockTerms} :
    (∃ problem, onchainLockError host s terms e.timestamp = .ok problem) ↔
      ∀ committed, s.onchainFundingTerms = some committed →
        fundingTermsError host s committed e.timestamp = none →
        changedTerm terms.toOnchainFundingTerms committed = none →
        isDigits terms.amountSats = true → s.amountMsats.isInteger = true := by
  unfold onchainLockError
  cases hfrozen : s.onchainFundingTerms with
  | none => simp
  | some committed =>
    dsimp only
    cases hproblem : (fundingTermsError host s committed e.timestamp).or
        (changedTerm terms.toOnchainFundingTerms committed) with
    | some problem =>
      simp only [Except.ok.injEq, exists_eq', Option.some.injEq, forall_eq', true_iff]
      intro hvalid hsame
      simp [hvalid, hsame] at hproblem
    | none =>
      obtain ⟨hvalid, hsame⟩ := Option.or_eq_none_iff.mp hproblem
      by_cases hdigits : isDigits terms.amountSats = true
      · simp [hvalid, hsame, hdigits, ← bigInt_ok_iff]
      · simp [hdigits]

theorem returns_lockRailGate {p : LockPayload} :
    Returns (lockRailGate host s e p) ↔ ∀ terms, p.onchain = some terms →
      ∃ problem, onchainLockError host s terms e.timestamp = .ok problem := by
  unfold lockRailGate
  cases p.onchain with
  | none => simp
  | some terms => simp [-Bool.exists_bool, carriesShares_ok]

theorem returns_withheldCommitments {entries : List JsValue} {ownIndex : JsNumber}
    {commitments : OrderedMap String String}
    (h : ∀ share ∈ entries, ∃ fields n, share = .obj fields ∧ share.field "shareIndex" = .num n) :
    Returns (withheldCommitments e ownIndex entries commitments) := by
  induction entries generalizing commitments with
  | nil => simp [withheldCommitments]
  | cons share rest ih =>
    obtain ⟨⟨fields, n, rfl, hindex⟩, hrest⟩ := List.forall_mem_cons.mp h
    have hentry : ∃ problem, withheldEntryError e.pubkey ownIndex (.obj fields) = .ok problem := by
      simp only [withheldEntryError, JsValue.get, bind_eq_ok, Except.ok.injEq, exists_eq_left']
      split_ifs <;> simp
    simp only [withheldCommitments, avoids_bind, returns_js, returns_guardNone, true_and, hentry]
    intros
    refine ⟨⟨_, rfl⟩, fun index hget => ?_⟩
    have hget := js_eq_ok.mp hget
    simp only [JsValue.get, JsValue.member, hindex, Except.ok.injEq] at hget
    subst hget
    split_ifs
    · exact ih hrest
    · simp [JsValue.print, JsValue.get, ih hrest]

theorem returns_withheldGate {p : LockPayload} (hp : CheckedShares p) (role : Role) :
    Returns (withheldGate s e p role) := by
  unfold withheldGate
  split_ifs with hflag
  · simp
  · have hflag : p.withheldShares = some true := not_not.mp hflag
    simp only [avoids_bind, returns_js, returns_guardErr, true_and, guardErr_eq_ok, js_eq_ok]
    intro _ hrules
    simp only [not_or, Option.not_isSome_iff_eq_none] at hrules
    obtain ⟨entries, hentries, -⟩ := hp.ecash hrules.2.1
    have hshape := hp.withheld hflag
    rw [hentries] at hshape
    simp only [hentries, JsValue.spread, Except.ok.injEq, exists_eq', true_and, forall_eq']
    exact ⟨returns_withheldCommitments hshape, by simp⟩

theorem returns_lockOrderGate (p : LockPayload) : Returns (lockOrderGate s e p) := by
  unfold lockOrderGate
  dsimp only
  split
  · simp
  · simp
  · simp only [avoids_bind, returns_guardErr, returns_guardProblem, true_and]
    intros
    refine ⟨?_, by simp⟩
    unfold finalizedOrderGate
    dsimp only
    split_ifs
    · split <;> simp
    · simp

theorem returns_lockAmountGate {p : LockPayload} {total : JsNumber} :
    Returns (lockAmountGate e p total) ↔ (p.onchain.isSome → total.isInteger = true) := by
  unfold lockAmountGate
  cases p.onchain with
  | none => simp
  | some terms => simp [-Bool.exists_bool, ← bigInt_ok_iff]

/-- The checks of a LOCK on its custody and its order. -/
structure LockCovered (host : Host) (s : EscrowState) (e : ParsedEscrowEvent) (p : LockPayload)
    (role : Role) (total : JsNumber) : Prop where
  rail : lockRailGate host s e p = .ok ()
  withhold : ∃ withheld, withheldGate s e p role = .ok withheld
  ordered : lockOrderGate s e p = .ok total

theorem returns_fileShares {shares : JsValue} (next : EscrowState) :
    ((∃ entries, (shares.orElse (.arr [])).spread = .ok entries) ∧
      ∀ entries, (shares.orElse (.arr [])).spread = .ok entries →
        ∃ found, collectShares entries next.lock.shares = .ok found) ↔ SharesReadable shares := by
  simp only [collectShares_ok_iff, SharesReadable]
  constructor
  · rintro ⟨⟨entries, hentries⟩, hall⟩
    exact ⟨entries, hentries, hall entries hentries⟩
  · rintro ⟨entries, hentries, hall⟩
    refine ⟨⟨entries, hentries⟩, fun entries' hentries' => ?_⟩
    obtain rfl := Except.ok.inj (hentries.symm.trans hentries')
    exact hall

theorem returns_handleLock (host : Host) (h : KeyPools s)
    (hcircle : s.chamaPolicy.isSome → s.chamaCircle.isSome) {p : LockPayload}
    (hp : CheckedShares p) (payload : e.payload = .lock p) (fresh : s.hasEvent e.id = false)
    (due : isPastDeadline s e = false ∨ s.status = .expired) :
    Returns (handleLock host s e p) ↔ ∀ role, LockOpens s e p role →
      Returns (lockRailGate host s e p) ∧ ∀ total, LockCovered host s e p role total →
        Returns (lockAmountGate e p total) ∧ (lockAmountGate e p total = .ok () →
          (s.escrowMode = if p.onchain.isSome then .onchain else .ecash) →
            SharesReadable p.shares) := by
  simp only [handleLock, avoids_bind, returns_lockHardeningGate h, returns_guardErr,
    returns_chamaLockGate h hcircle, returns_lockerGate, returns_lockSeatsGate h,
    returns_withheldGate hp, returns_lockOrderGate, returns_js, avoids_pure, guardErr_eq_ok,
    true_and, js_eq_ok, h.cloneState_ok, implies_true, and_true, forall_const, not_not,
    returns_fileShares, ne_eq, Unique.forall_iff, PUnit.default_eq_unit]
  constructor
  · intro hall role opens
    obtain ⟨hrail, hrest⟩ := hall opens.hardening opens.notCircle opens.chama opens.status role
      opens.locker opens.seats
    refine ⟨hrail, fun total covered => ?_⟩
    obtain ⟨withheld, hwithheld⟩ := covered.withhold
    obtain ⟨hamount, hshares⟩ := hrest covered.rail withheld hwithheld total covered.ordered
    refine ⟨hamount, fun hcovered hmode => ?_⟩
    obtain ⟨next, hnext⟩ := h.cloneState_ok
    exact hshares hcovered hmode next hnext
  · intro hall hhardening hcategory hchama hstatus role hlocker hseats
    have opens : LockOpens s e p role :=
      ⟨payload, fresh, due.resolve_right (by simp [hstatus]), hhardening, hcategory, hchama,
        hstatus, hlocker, hseats⟩
    obtain ⟨hrail, hrest⟩ := hall role opens
    refine ⟨hrail, fun hpassed withheld hwithheld total hordered => ?_⟩
    obtain ⟨hamount, hshares⟩ := hrest total ⟨hpassed, ⟨withheld, hwithheld⟩, hordered⟩
    exact ⟨hamount, fun hcovered hmode _ _ => hshares hcovered hmode⟩

/-! ### Circles of shares -/

theorem parent_of_chamaCreateError {policy : ChamaPolicy}
    (h : chamaCreateError host p id pubkey time parent witness cycle sim = .ok none)
    (hpolicy : p.chamaPolicy = .known policy) :
    ∃ view circle, parent = some view ∧ circleFromEscrow view = some circle := by
  have hplain : isPlainCreate p = false := by simp [isPlainCreate, hpolicy]
  unfold chamaCreateError at h
  rw [hplain, if_neg Bool.false_ne_true] at h
  split at h
  · cases h
  · by_cases hcategory : p.category = "chama"
    · rw [if_pos hcategory] at h
      simp [circleCreateError, hpolicy] at h
    · rw [if_neg hcategory] at h
      split at h
      · split_ifs at h
        · unfold shareCreateError at h
          split at h
          · rename_i view circle hcircle
            exact ⟨view, circle, rfl, hcircle⟩
          · cases h
        · cases h
      · cases h

theorem circle_of_handleCreate (h : handleCreate host e p = .ok s)
    (hshare : s.chamaPolicy.isSome) : s.chamaCircle.isSome := by
  simp only [handleCreate, bind_eq_ok, pure_eq_ok, js_eq_ok, guardNone_eq_ok] at h
  obtain ⟨chamaError, hlaw, _, rfl, _, -, _, -, _, -, _, -, _, -, _, -, _, -, _, -, rfl⟩ := h
  dsimp only at hshare ⊢
  cases hpolicy : p.chamaPolicy with
  | absent => simp [hpolicy, ChamaPolicyField.policy] at hshare
  | unknown => simp [hpolicy, ChamaPolicyField.policy] at hshare
  | known policy =>
    obtain ⟨view, circle, hview, hround⟩ := parent_of_chamaCreateError hlaw hpolicy
    have hterms : view.chamaCircle.isSome := by
      unfold circleFromEscrow at hround
      split_ifs at hround
      obtain ⟨terms, hterms, -⟩ := Option.map_eq_some_iff.mp hround
      rw [hterms]
      rfl
    simpa [createCircle, hpolicy, hview] using hterms

theorem Reached.circle (h : Reached host s) : s.chamaPolicy.isSome → s.chamaCircle.isSome := by
  refine Reachable.invariant (I := fun s => s.chamaPolicy.isSome → s.chamaCircle.isSome)
    (fun s hs => ?_) (fun s e s' hs h => ?_) h
  · obtain ⟨e, p, -, hcreate⟩ := (created_iff host).mp hs
    exact circle_of_handleCreate hcreate
  · have hterms := (applyToState_stepped h).terms
    have hpolicy : s'.chamaPolicy = s.chamaPolicy := congrArg TradeTerms.chamaPolicy hterms
    have hcircle : s'.chamaCircle = s.chamaCircle := congrArg TradeTerms.chamaCircle hterms
    rwa [hpolicy, hcircle]

/-! ### Runs on keyed pools -/

def KeyedCreate (host : Host) (s : EscrowState) : Prop :=
  ∃ e p, e.payload = .create p ∧ NamesKeys p.communityArbiters ∧ NamesKeys p.bondedArbiters ∧
    handleCreate host e p = .ok s

def KeyedRuns (host : Host) : EscrowState → Prop := Reachable (applyToState host) (KeyedCreate host)

theorem NamesKeys.pool {pool : JsValue} (h : NamesKeys pool) : KeyPool
    (pool.orFalsy (.arr [])) := by
  unfold JsValue.orFalsy
  rcases h with hfalsy | hkeys
  · rw [hfalsy]
    exact ⟨[], rfl⟩
  · split_ifs
    · exact hkeys
    · exact ⟨[], rfl⟩

theorem KeyedRuns.reached (h : KeyedRuns host s) : Reached host s :=
  Reachable.invariant (I := Reached host)
    (fun _ ⟨e, p, hp, _, _, hcreate⟩ => .start ((created_iff host).mpr ⟨e, p, hp, hcreate⟩))
    (fun _ _ _ hs hstep => hs.next hstep) h

theorem KeyedRuns.keyPools (h : KeyedRuns host s) : KeyPools s := by
  refine Reachable.invariant (I := KeyPools) ?_
      (fun s e s' hs h => hs.step (applyToState_stepped h)) h
  rintro s ⟨e, p, hp, hcommunity, hbonded, hcreate⟩
  simp only [handleCreate, bind_eq_ok, pure_eq_ok] at hcreate
  obtain ⟨_, -, _, -, _, -, _, -, _, -, _, -, _, -, _, -, _, -, _, -, rfl⟩ := hcreate
  exact ⟨hcommunity.pool, hbonded.pool⟩

/-! ### The reducer -/

theorem Strays.payload_subscribe_or_lock (h : Strays host (some s) e) :
    (∃ p, e.payload = .subscribe p) ∨ ∃ p, e.payload = .lock p := by
  cases h with
  | periods payload => exact Or.inl ⟨_, payload⟩
  | deposit opens => exact Or.inr ⟨_, opens.payload⟩
  | order opens => exact Or.inr ⟨_, opens.payload⟩
  | shares opens => exact Or.inr ⟨_, opens.payload⟩

theorem returns_subscribe (hs : KeyedRuns host s) (hparsed : Parsed host e) {p : SubscribePayload}
    (hp : e.payload = .subscribe p) :
    Returns (applyToState host s e) ↔ ¬ Strays host (some s) e := by
  have hlaw : outcomeLaw host s e = none := by rw [outcomeLaw, hp]
  have hkind : e.payload.kind.isConsensus = true := by rw [hp]; rfl
  have hhandle := returns_handleSubscribe hs.keyPools hparsed hp
  constructor
  · intro h hstrays
    cases hstrays with
    | @periods _ _ q payload fresh due plain status seated first total fraction =>
      obtain rfl : p = q := by simpa using hp.symm.trans payload
      rw [applyToState_dispatch hkind hlaw fresh (by rw [status]; rfl) (Or.inl due), dispatch, hp,
        hhandle] at h
      rw [h plain status seated first total] at fraction
      cases fraction
    | deposit opens => simpa [hp] using opens.payload
    | order opens => simpa [hp] using opens.payload
    | shares opens => simpa [hp] using opens.payload
  · intro h
    rw [applyToState_consensus hkind]
    refine avoids_bind.mpr ⟨returns_guardNone, fun _ _ => ?_⟩
    refine returns_applyConsensus hs.keyPools fun live hlive fresh hopen => ?_
    rcases hlive with ⟨rfl, due⟩ | ⟨hvote, -⟩
    · rw [dispatch, hp, hhandle]
      intro plain status seated first total
      by_contra fraction
      exact h (.periods hp fresh (due.resolve_right (by simp [status])) plain status seated first
        total (by simpa using fraction))
    · rw [ParsedEscrowEvent.kind, hp] at hvote
      rcases hvote with hvote | hvote <;> cases hvote

theorem returns_lock (hs : KeyedRuns host s) (hparsed : Parsed host e) {p : LockPayload}
    (hp : e.payload = .lock p) : Returns (applyToState host s e) ↔ ¬ Strays host (some s) e := by
  have hlaw : outcomeLaw host s e = none := by rw [outcomeLaw, hp]
  have hkind : e.payload.kind.isConsensus = true := by rw [hp]; rfl
  have hhandle (fresh : s.hasEvent e.id = false)
      (due : isPastDeadline s e = false ∨ s.status = .expired) :=
    returns_handleLock host hs.keyPools hs.reached.circle (hparsed.shares hp) hp fresh due
  -- A LOCK that opens is dispatched on the state itself.
  have hopens {q : LockPayload} {role : Role} (h : Returns (applyToState host s e))
      (opens : LockOpens s e q role) : q = p ∧ Returns (lockRailGate host s e p) ∧
        ∀ total, LockCovered host s e p role total → Returns (lockAmountGate e p total) ∧
          (lockAmountGate e p total = .ok () →
            (s.escrowMode = if p.onchain.isSome then .onchain else .ecash) →
              SharesReadable p.shares) := by
    obtain rfl : p = q := by simpa using hp.symm.trans opens.payload
    rw [applyToState_dispatch hkind hlaw opens.fresh (by rw [opens.status]; rfl)
      (Or.inl opens.due), dispatch, hp, hhandle opens.fresh (Or.inl opens.due)] at h
    exact ⟨rfl, h role opens⟩
  constructor
  · intro h hstrays
    cases hstrays with
    | periods payload => simp [hp] at payload
    | deposit opens onchain frozen valid same digits fraction =>
      obtain ⟨rfl, hrail, -⟩ := hopens h opens
      have hterms := returns_lockRailGate.mp hrail _ onchain
      rw [onchainLockError_ok_iff] at hterms
      rw [hterms _ frozen valid same digits] at fraction
      cases fraction
    | order opens rail withhold ordered onchain fraction =>
      obtain ⟨rfl, -, hrest⟩ := hopens h opens
      have hamount := (hrest _ ⟨rail, ⟨_, withhold⟩, ordered⟩).1
      rw [returns_lockAmountGate.mp hamount onchain] at fraction
      cases fraction
    | shares opens rail withhold ordered covered mode unreadable =>
      obtain ⟨rfl, -, hrest⟩ := hopens h opens
      exact unreadable ((hrest _ ⟨rail, ⟨_, withhold⟩, ordered⟩).2 covered mode)
  · intro h
    rw [applyToState_consensus hkind]
    refine avoids_bind.mpr ⟨returns_guardNone, fun _ _ => ?_⟩
    refine returns_applyConsensus hs.keyPools fun live hlive fresh hopen => ?_
    rcases hlive with ⟨rfl, due⟩ | ⟨hvote, -⟩
    · rw [dispatch, hp]
      refine (hhandle fresh due).mpr fun role opens => ⟨?_, fun total hcovered => ?_⟩
      · refine returns_lockRailGate.mpr fun terms onchain => ?_
        refine onchainLockError_ok_iff.mpr fun committed frozen valid same digits => ?_
        by_contra fraction
        exact h (.deposit opens onchain frozen valid same digits (by simpa using fraction))
      · obtain ⟨rail, ⟨withheld, withhold⟩, ordered⟩ := hcovered
        refine ⟨returns_lockAmountGate.mpr fun onchain => ?_, fun covered mode => ?_⟩
        · by_contra fraction
          exact h (.order opens rail withhold ordered onchain (by simpa using fraction))
        · by_contra unreadable
          exact h (.shares opens rail withhold ordered covered mode unreadable)
    · rw [ParsedEscrowEvent.kind, hp] at hvote
      rcases hvote with hvote | hvote <;> cases hvote

/-- A trade whose CREATE named lists of texts takes every event the parser accepts to a state or to
a rejection, except the ones that stray. -/
theorem returns_applyToState (hhost : host.BuildsFromKeys) (hs : KeyedRuns host s)
    (hparsed : Parsed host e) : Returns (applyToState host s e) ↔ ¬ Strays host (some s) e := by
  by_cases hsubscribe : ∃ p, e.payload = .subscribe p
  · obtain ⟨p, hp⟩ := hsubscribe
    exact returns_subscribe hs hparsed hp
  by_cases hlock : ∃ p, e.payload = .lock p
  · obtain ⟨p, hp⟩ := hlock
    exact returns_lock hs hparsed hp
  have hstays : ¬ Strays host (some s) e := fun h =>
    h.payload_subscribe_or_lock.elim hsubscribe hlock
  refine iff_of_true ?_ hstays
  have hdispatch (live : EscrowState) (hpools : KeyPools live) (hbuilds : LockBuilds host live) :
      Returns (dispatch host live e) := by
    refine returns_dispatch hhost hpools hbuilds ⟨fun hkind => hsubscribe ?_, fun hkind => hlock ?_⟩
    · rw [ParsedEscrowEvent.kind] at hkind
      cases hp : e.payload <;> rw [hp] at hkind <;> first | exact ⟨_, rfl⟩ | cases hkind
    · rw [ParsedEscrowEvent.kind] at hkind
      cases hp : e.payload <;> rw [hp] at hkind <;> first | exact ⟨_, rfl⟩ | cases hkind
  have hconsensus : Returns (applyConsensus host s e) := by
    refine returns_applyConsensus hs.keyPools fun live hlive _ _ => ?_
    have hbuilds := hs.reached.lockBuilds hhost
    rcases hlive with ⟨rfl, -⟩ | ⟨-, hexpires⟩
    · exact hdispatch live hs.keyPools hbuilds
    · refine hdispatch live (hs.keyPools.expires hexpires) ?_
      have hsame : live.lock.onchain = s.lock.onchain :=
        congrArg CustodyCore.onchain hexpires.keepsCustody.core
      intro terms hterms
      exact hbuilds terms (hsame ▸ hterms)
  unfold applyToState
  split
  · simp
  · exact returns_handlePremium hs.keyPools
  · exact returns_handleSettlement hs.keyPools _
  · exact avoids_bind.mpr ⟨returns_guardNone, fun _ _ => hconsensus⟩

theorem sampleCreator_ne : hexKey 'a' ≠ "" := hexKey_ne 'a'

def fractionalSubscribe : NostrEvent where
  id := hexKey '5'
  pubkey := hexKey 'a'
  createdAt := 1800000015
  tags := [["d", "sm_sample"]]
  id_ne := hexKey_ne '5'
  pubkey_ne := sampleCreator_ne
  createdAt_ne := JsNumber.ofInt_ne_nan 1800000015

def fractionalContent : JsValue := .obj [
  ("type", .str "escrow:subscribe"),
  ("totalPeriods", .num (.fin (5 / 2))),
  ("periodAmountMsats", .num 400000),
  ("periodDurationSeconds", .num 60),
  ("description", .str "weekly"),
  ("startsAt", .num 1800000015)]

def parsedFractional : Step ParsedEscrowEvent := parseEscrowEvent silentHost fractionalSubscribe
  EscrowEventKind.subscribe.number (.ok fractionalContent) {}

theorem fractional_throws : ∃ s e error, liveTrade silentHost sampleCreate [sampleJoin] = some s ∧
    Parsed silentHost e ∧ applyEvent silentHost (some s) e = .error (.throws error) := by
  have hrun : (liveTrade silentHost sampleCreate [sampleJoin]).any (fun s =>
      match parsedFractional with
      | .ok e =>
        match applyEvent silentHost (some s) e with
        | .error (.throws _) => true
        | _ => false
      | .error _ => false) = true := by
    decide +kernel
  obtain ⟨s, hs, h⟩ := (Option.any_eq_true _ _).mp hrun
  split at h
  · rename_i e he
    split at h
    · rename_i error hthrows
      exact ⟨s, e, error, hs, ⟨_, _, _, _, he⟩, hthrows⟩
    · cases h
  · cases h

theorem silentHost_buildsFromKeys : silentHost.BuildsFromKeys where
  reads _ _ _ := rfl
  key _ _ _ h := by cases h

theorem keyedRuns_of_liveTrade {create : ParsedEscrowEvent}
    {events : List ParsedEscrowEvent} (hp : create.payload = .create p)
    (hcommunity : NamesKeys p.communityArbiters) (hbonded : NamesKeys p.bondedArbiters)
    (h : liveTrade host create events = some s) : KeyedRuns host s := by
  unfold liveTrade at h
  split at h
  · rename_i s₀ hcreate
    rw [Option.some.injEq] at h
    have hcreate : handleCreate host create p = .ok s₀ := by simpa [applyEvent, hp] using hcreate
    exact h ▸ Run.fold (.start ⟨create, p, hp, hcommunity, hbonded, hcreate⟩) fun _ _ _ => trivial
  · cases h

end ChamaEscrow
