import ChamaEscrow.Trade.Custody

/-!
# On-chain funding terms

The funder's JOIN publishes the address of an on-chain escrow and freezes what it depends on.
`FundingValid` says what `fundingTermsError` admits, `Freezes` what the freezing step leaves, and
`Stepped.keepsFunding` that no later step touches the seats, their keys or the terms.

* `onchain_terms_frozen`: an on-chain LOCK repeats the frozen terms over a deposit that covers the
  amount, and seats and keys are those of the freeze, in every reachable state.
-/

namespace ChamaEscrow

open Js Library

variable {host : Host} {s s' : EscrowState} {e : ParsedEscrowEvent}

/-! ### Valid terms -/

structure FundingValid (host : Host) (s : EscrowState) (terms : OnchainFundingTerms)
    (time : JsNumber)
    (arbiter : String) : Prop where
  mode : s.escrowMode = .onchain
  network : terms.network = s.onchainNetwork
  funder : terms.funder.role = onchainFunder s
  delay : terms.disputeCsvBlocks = disputeCsvBlocks
  buyer : principalTermsError s terms time .buyer = none
  seller : principalTermsError s terms time .seller = none
  seated : fundingArbiter s = .ok (some arbiter) ∧ arbiter ≠ ""
  key : arbiterTermsError host s terms arbiter = .ok none
  address : resolveFundingPlan host terms = some terms.address

variable {terms : OnchainFundingTerms}

variable {time : JsNumber}

theorem fundingTermsError_eq_none_iff :
    fundingTermsError host s terms time = none ↔
        ∃ arbiter, FundingValid host s terms time arbiter := by
  unfold fundingTermsError
  constructor
  · intro h
    split at h
    · rename_i problem hproblem
      subst h
      unfold fundingTermsProblem at hproblem
      split_ifs at hproblem with hmode hnetwork hfunder hdelay haddress
      · cases hproblem
      · cases hproblem
      · cases hproblem
      · cases hproblem
      all_goals
        split at hproblem
        · cases hproblem
        simp only [bind_eq_ok] at hproblem
        obtain ⟨seat, hseat, hproblem⟩ := hproblem
        split at hproblem
        · cases hproblem
        simp only [bind_eq_ok] at hproblem
        obtain ⟨found, hfound, hproblem⟩ := hproblem
      · rename_i _ hprincipals _ arbiter harbiter
        rw [Option.or_eq_none_iff] at hprincipals
        obtain ⟨rfl, hne⟩ := truthyKey_eq_some harbiter
        cases found with
        | some problem => cases hproblem
        | none =>
          exact ⟨arbiter, not_not.mp hmode, not_not.mp hnetwork, not_not.mp hfunder,
            not_not.mp hdelay, hprincipals.1, hprincipals.2, ⟨hseat, hne⟩, hfound, haddress⟩
      · cases found <;> cases hproblem
    · cases h
  · rintro ⟨arbiter, h⟩
    have hproblem : fundingTermsProblem host s terms time = .ok none := by
      unfold fundingTermsProblem
      rw [if_neg (not_not.mpr h.mode), if_neg (not_not.mpr h.network),
        if_neg (not_not.mpr h.funder), if_neg (not_not.mpr h.delay), h.buyer, h.seller, h.seated.1,
        Option.or_none, ok_bind, truthyKey_some h.seated.2]
      dsimp only
      rw [h.key, ok_bind]
      dsimp only
      rw [if_pos h.address]
      rfl
    rw [hproblem]

/-! ### The frame -/

/-- What a step keeps of the seats, their keys and the terms. -/
structure KeepsFunding (s s' : EscrowState) : Prop where
  participants : s'.participants = s.participants
  escrowKeys : s'.escrowKeys = s.escrowKeys
  onchainFundingTerms : s'.onchainFundingTerms = s.onchainFundingTerms

theorem KeepsFunding.refl (s : EscrowState) : KeepsFunding s s := ⟨rfl, rfl, rfl⟩

theorem KeepsFunding.trans {t : EscrowState} (h : KeepsFunding s t) (h' : KeepsFunding t s') :
    KeepsFunding s s' :=
  ⟨h'.participants.trans h.participants, h'.escrowKeys.trans h.escrowKeys,
    h'.onchainFundingTerms.trans h.onchainFundingTerms⟩

variable {next : EscrowState}

theorem IsCopy.keepsFunding (clone : IsCopy s next) : KeepsFunding s next :=
  ⟨clone.participants, clone.escrowKeys, clone.onchainFundingTerms⟩

theorem KeepsFunding.congr (h : KeepsFunding s next)
    (hparticipants : s'.participants = next.participants) (hkeys : s'.escrowKeys = next.escrowKeys)
    (hterms : s'.onchainFundingTerms = next.onchainFundingTerms) : KeepsFunding s s' :=
  h.trans ⟨hparticipants, hkeys, hterms⟩

structure FundingFrozen (s : EscrowState) (terms : OnchainFundingTerms) : Prop where
  terms : s.onchainFundingTerms = some terms
  buyer : (truthyKey s.participants.buyer).isSome
  arbiter : (truthyKey s.participants.arbiter).isSome

theorem FundingFrozen.keeps (hs : FundingFrozen s terms)
    (h : KeepsFunding s s') : FundingFrozen s' terms :=
  ⟨h.onchainFundingTerms.trans hs.terms, h.participants ▸ hs.buyer, h.participants ▸ hs.arbiter⟩

theorem LockSeats.frozen {p : LockPayload} (h : LockSeats s e p) (hs : FundingFrozen s terms) :
    s.participants.buyer = some p.buyerPubkey ∧ s.participants.arbiter = some p.arbiterPubkey := by
  have hjoined (role : Role) :
      joinedAtLock s e role = truthyKey (s.participants.get role) := by
    unfold joinedAtLock
    rw [if_pos (by rw [hs.terms]; rfl)]
  obtain ⟨buyer, hbuyer⟩ := Option.isSome_iff_exists.mp hs.buyer
  obtain ⟨arbiter, harbiter⟩ := Option.isSome_iff_exists.mp hs.arbiter
  rw [← h.buyer buyer ((hjoined .buyer).trans hbuyer),
    ← h.arbiter arbiter ((hjoined .arbiter).trans harbiter)]
  exact ⟨(truthyKey_eq_some hbuyer).1, (truthyKey_eq_some harbiter).1⟩

theorem Handled.keepsFunding (h : Handled host s e s')
    (hs : FundingFrozen s terms) : KeepsFunding s s' := by
  have hfrozen : s.onchainFundingTerms ≠ none := by simp [hs.terms]
  cases h
  case planRepeated => exact .refl s
  case planStarted p next _ _ _ _ _ _ _ gate clone =>
    obtain ⟨arbiter, harbiter⟩ := Option.isSome_iff_exists.mp hs.arbiter
    refine clone.keepsFunding.congr ?_ rfl rfl
    rw [planArbiterGate_seated gate harbiter, ← (truthyKey_eq_some harbiter).1, clone.participants]
  case fundingTerms fresh _ _ _ _ => exact absurd fresh hfrozen
  case orderJoined fresh _ _ _ => exact absurd fresh hfrozen
  case seatJoined fresh _ _ _ _ _ => exact absurd fresh hfrozen
  case cancelled unfunded _ _ _ => exact absurd unfunded hfrozen
  case locked p next _ _ _ _ _ _ _ _ _ _ seats _ _ _ _ _ _ clone =>
    obtain ⟨hbuyer, harbiter⟩ := (lockSeatsGate_eq_ok seats).frozen hs
    refine clone.keepsFunding.congr ?_ rfl rfl
    rw [lockedState, ← hbuyer, ← harbiter, clone.participants]
  case voted clone count =>
    obtain ⟨votes, acting, rfl⟩ := countVote_eq_ok count
    exact clone.keepsFunding.congr rfl rfl rfl
  all_goals
    rename_i clone
    exact clone.keepsFunding.congr rfl rfl rfl

theorem Expires.keepsFunding (h : Expires s e next) : KeepsFunding s next := by
  obtain ⟨copy, clone, rfl⟩ := h.eq
  exact clone.keepsFunding.congr rfl rfl rfl

theorem Stepped.keepsFunding (h : Stepped host s e s')
    (hs : FundingFrozen s terms) : KeepsFunding s s' := by
  cases h with
  | echoed => exact .refl s
  | premium _ _ clone => exact clone.keepsFunding.congr rfl rfl rfl
  | settlement _ _ clone => exact clone.keepsFunding.congr rfl rfl rfl
  | expired _ expires => exact expires.keepsFunding
  | handled _ _ _ _ handled => exact handled.keepsFunding hs
  | lateHandled _ _ expires handled =>
    exact expires.keepsFunding.trans (handled.keepsFunding (hs.keeps expires.keepsFunding))

/-! ### The freeze -/

structure Freezes (host : Host) (s : EscrowState) (e : ParsedEscrowEvent) (s' : EscrowState)
    (terms : OnchainFundingTerms) : Prop where
  step : applyToState host s e = .ok s'
  kind : e.kind = .join
  before : s.onchainFundingTerms = none
  after : s'.onchainFundingTerms = some terms
  valid : fundingTermsError host s terms e.timestamp = none
  seats : ∃ arbiter, fundingArbiter s = .ok arbiter ∧
    s'.participants = { s.participants with arbiter }
  escrowKeys : s'.escrowKeys = s.escrowKeys

theorem Handled.freezes (h : Handled host s e s')
    (hs : s.onchainFundingTerms = none) (hs' : s'.onchainFundingTerms = some terms) :
    e.kind = .join ∧ fundingTermsError host s terms e.timestamp = none ∧
      (∃ arbiter, fundingArbiter s = .ok arbiter ∧
        s'.participants = { s.participants with arbiter }) ∧ s'.escrowKeys = s.escrowKeys := by
  have kept {next : EscrowState} (clone : IsCopy s next)
      (hnext : next.onchainFundingTerms = some terms) : False := by
    rw [clone.onchainFundingTerms, hs] at hnext
    cases hnext
  cases h
  case planRepeated => exact absurd (hs.symm.trans hs') (by simp)
  case fundingTerms p found arbiter next payload _ _ valid _ pick clone =>
    obtain rfl : found = terms := Option.some.inj hs'
    refine ⟨by rw [ParsedEscrowEvent.kind, payload]; rfl, valid, ⟨arbiter, pick, ?_⟩,
      clone.escrowKeys⟩
    rw [clone.participants]
  case voted clone count =>
    obtain ⟨votes, acting, rfl⟩ := countVote_eq_ok count
    exact (kept clone hs').elim
  case stalled clone => exact (kept clone hs').elim
  all_goals
    rename_i clone
    exact (kept clone hs').elim

theorem freezes_of_step (h : applyToState host s e = .ok s')
    (hs : s.onchainFundingTerms = none) (hs' : s'.onchainFundingTerms = some terms) :
    Freezes host s e s' terms := by
  have kept {next : EscrowState} (hkeeps : KeepsFunding s next) :
      next.onchainFundingTerms = none := hkeeps.onchainFundingTerms.trans hs
  have copied {next : EscrowState} (clone : IsCopy s next)
      (hnext : next.onchainFundingTerms = some terms) : False := by
    rw [kept clone.keepsFunding] at hnext
    cases hnext
  cases applyToState_stepped h with
  | echoed => exact absurd (hs.symm.trans hs') (by simp)
  | premium _ _ clone => exact (copied clone hs').elim
  | settlement _ _ clone => exact (copied clone hs').elim
  | expired _ expires => exact absurd ((kept expires.keepsFunding).symm.trans hs') (by simp)
  | handled _ _ _ _ handled =>
    obtain ⟨hkind, hvalid, hseats, hkeys⟩ := handled.freezes hs hs'
    exact ⟨h, hkind, hs, hs', hvalid, hseats, hkeys⟩
  | lateHandled _ kind expires handled =>
    have hjoin := (handled.freezes (kept expires.keepsFunding) hs').1
    rw [hjoin] at kind
    simp at kind

theorem principalTermsError_frozen {role : Role}
    (h : principalTermsError s terms time role = none) (hs' : s'.onchainFundingTerms = some terms)
    (hseat : s'.participants.get role = s.participants.get role)
    (hkeys : s'.escrowKeys = s.escrowKeys) (time' : JsNumber) :
    principalTermsError s' terms time' role = none ∧
      (truthyKey (s'.participants.get role)).isSome := by
  unfold principalTermsError at h ⊢
  dsimp only at h ⊢
  have hsome : (truthyKey (s.participants.get role)).isSome := by
    by_contra hnone
    rw [Option.not_isSome_iff_eq_none] at hnone
    split_ifs at h with hfrozen hseat
    · simp [hnone] at hseat
    · rename_i hactive
      obtain ⟨pubkey, hpubkey⟩ := Option.ne_none_iff_exists'.mp
        (Option.isNone_iff_eq_none.not.mp hactive)
      have := getEffectiveParticipantAt_eq_some (truthyKey_eq_some hpubkey).1
      rw [hnone] at this
      cases this
  have hkey : ¬ (if s.onchainFundingTerms.isSome = true then truthyKey (s.participants.get role)
      else truthyKey (getEffectiveParticipantAt s role time)).isNone = true := by
    intro hnone
    rw [if_pos hnone] at h
    cases h
  rw [if_neg hkey] at h
  rw [hs', hseat, hkeys, Option.isSome_some, if_pos rfl,
    if_neg fun hnone => by simp [Option.isNone_iff_eq_none.mp hnone] at hsome]
  exact ⟨h, hsome⟩

/-- The check reads nothing that changes after the freeze. -/
theorem FundingValid.keeps {arbiter : String}
    (h : FundingValid host s terms time arbiter) (hfrozen : s'.onchainFundingTerms = some terms)
    (hterms : s'.toTradeTerms = s.toTradeTerms)
    (hseats : s'.participants = { s.participants with arbiter := some arbiter })
    (hkeys : s'.escrowKeys = s.escrowKeys) (time' : JsNumber) :
    FundingValid host s' terms time' arbiter ∧ FundingFrozen s' terms := by
  have hbuyer := principalTermsError_frozen h.buyer hfrozen (by rw [hseats]; rfl) hkeys time'
  have hseller := principalTermsError_frozen h.seller hfrozen (by rw [hseats]; rfl) hkeys time'
  have harbiter : s'.participants.arbiter = some arbiter := by rw [hseats]
  refine ⟨⟨?_, ?_, ?_, h.delay, hbuyer.1, hseller.1, ⟨?_, h.seated.2⟩, ?_, h.address⟩,
    hfrozen, hbuyer.2, ?_⟩
  · rw [hterms, h.mode]
  · rw [hterms, h.network]
  · rw [h.funder, onchainFunder, onchainFunder, buyerFunds, buyerFunds, hterms]
  · rw [fundingArbiter, harbiter]
  · have := h.key
    unfold arbiterTermsError at this ⊢
    rwa [hkeys, hterms]
  · rw [harbiter, truthyKey_some h.seated.2]
    rfl

theorem Freezes.valid_after (h : Freezes host s e s' terms) :
    ∃ arbiter, (∀ time, FundingValid host s' terms time arbiter) ∧ FundingFrozen s' terms ∧
      s'.participants = { s.participants with arbiter := some arbiter } := by
  obtain ⟨arbiter, hvalid⟩ := fundingTermsError_eq_none_iff.mp h.valid
  obtain ⟨picked, hpick, hseats⟩ := h.seats
  obtain rfl : picked = some arbiter := Except.ok.inj (hpick.symm.trans hvalid.seated.1)
  have hkeeps := hvalid.keeps h.after (applyToState_stepped h.step).terms hseats h.escrowKeys
  exact ⟨arbiter, fun time => (hkeeps time).1, (hkeeps 0).2, hseats⟩

/-! ### Runs past the freeze -/

theorem FundingFrozen.fold (hs : FundingFrozen s terms)
    (host : Host) (es : List ParsedEscrowEvent) : KeepsFunding s
    (liveFold (applyToState host) s es) ∧
      (liveFold (applyToState host) s es).toTradeTerms = s.toTradeTerms := by
  refine liveFold_invariant (I := fun t => KeepsFunding s t ∧ t.toTradeTerms = s.toTradeTerms) ?_
    ⟨.refl s, rfl⟩ es
  rintro t e t' ⟨hkeeps, hterms⟩ happly
  have hstep := applyToState_stepped happly
  exact ⟨hkeeps.trans (hstep.keepsFunding (hs.keeps hkeeps)), hstep.terms.trans hterms⟩

theorem Reached.freezes (h : Reached host s)
    (hterms : s.onchainFundingTerms = some terms) : ∃ s₀ e s₁ es, Reached host s₀ ∧
      Freezes host s₀ e s₁ terms ∧ s = liveFold (applyToState host) s₁ es := by
  induction h generalizing terms with
  | start hs =>
    obtain ⟨e, p, hborn⟩ := hs.newborn
    rw [hborn.onchainFundingTerms] at hterms
    cases hterms
  | @next s s' e hs _ hstep ih =>
    cases hbefore : s.onchainFundingTerms with
    | none => exact ⟨s, e, s', [], hs, freezes_of_step hstep hbefore hterms, rfl⟩
    | some found =>
      obtain ⟨s₀, e₀, s₁, es, hs₀, hfreezes, rfl⟩ := ih hbefore
      obtain ⟨arbiter, -, hfrozen, -⟩ := hfreezes.valid_after
      have hkeeps := (applyToState_stepped hstep).keepsFunding
          (hfrozen.keeps (hfrozen.fold host es).1)
      obtain rfl : found = terms := by
        rw [hkeeps.onchainFundingTerms, hbefore] at hterms
        exact Option.some.inj hterms
      refine ⟨s₀, e₀, s₁, es ++ [e], hs₀, hfreezes, ?_⟩
      rw [liveFold_append, liveFold_cons, liveStep_of_ok hstep, liveFold_nil]

/-! ### The LOCK -/

/-- The fields that determine the deposit address agree. -/
structure SameDescriptor (a b : OnchainFundingTerms) : Prop where
  address : a.address = b.address
  buyerXonly : a.buyerXonly = b.buyerXonly
  sellerXonly : a.sellerXonly = b.sellerXonly
  arbiterXonly : a.arbiterXonly = b.arbiterXonly
  funder : a.funder = b.funder
  refundLockUntil : a.refundLockUntil = b.refundLockUntil
  disputeCsvBlocks : a.disputeCsvBlocks = b.disputeCsvBlocks
  network : a.network = b.network

theorem sameDescriptor_of_changedTerm {terms committed : OnchainFundingTerms}
    (h : changedTerm terms committed = none) : SameDescriptor terms committed := by
  unfold changedTerm at h
  rw [Option.map_eq_none_iff, List.find?_eq_none] at h
  simp only [List.mem_cons, List.not_mem_nil, or_false, forall_eq_or_imp, forall_eq,
    decide_eq_true_eq, ne_eq, not_not, Bool.not_eq_true', Bool.not_eq_false] at h
  obtain ⟨haddress, hbuyer, hseller, harbiter, hfunder, hrefund, hdispute, hnetwork⟩ := h
  exact ⟨haddress, hbuyer, hseller, harbiter, hfunder, JsNumber.eq_of_strictEq hrefund,
      JsNumber.eq_of_strictEq hdispute,
    hnetwork⟩

structure Covers (lock : OnchainLockTerms) (amountMsats : JsNumber) : Prop where
  digits : isDigits lock.amountSats = true
  amount : ∃ msats, bigInt amountMsats = .ok msats ∧ msats ≤ digitsValue lock.amountSats * 1000

structure Deposited (s : EscrowState) (lock : OnchainLockTerms) : Prop where
  terms : ∃ terms, s.onchainFundingTerms = some terms ∧
    SameDescriptor lock.toOnchainFundingTerms terms
  covers : Covers lock s.amountMsats

variable {lock : OnchainLockTerms}

theorem Handled.deposited_of_lock (h : Handled host s e s')
    (hkind : e.kind = .lock) (hs : s.lock = {}) (hlock : s'.lock.onchain = some lock) :
    Deposited s' lock := by
  cases h
  case locked p next role withheld amount entries shares _ _ _ _ _ _ rail _ _ amounts _ _ clone =>
    have honchain : p.onchain = some lock := by
      have hnone : next.lock.onchain = none := by rw [clone.lock, hs]
      simpa [lockedState, lockDetails, hnone] using hlock
    unfold lockRailGate at rail
    rw [honchain] at rail
    simp only [bind_eq_ok, js_eq_ok, guardNone_eq_ok] at rail
    obtain ⟨problem, hproblem, -, rfl, -⟩ := rail
    unfold lockAmountGate at amounts
    rw [honchain] at amounts
    simp only [bind_eq_ok, js_eq_ok, guardErr_eq_ok, pure_eq_ok] at amounts
    obtain ⟨short, ⟨msats, hmsats, rfl⟩, -, hshort, -⟩ := amounts
    unfold onchainLockError at hproblem
    split at hproblem
    · cases hproblem
    rename_i committed hcommitted
    split at hproblem
    · cases hproblem
    rename_i hnone
    rw [Option.or_eq_none_iff] at hnone
    split_ifs at hproblem with hdigits
    · cases hproblem
    refine ⟨⟨committed, ?_, sameDescriptor_of_changedTerm hnone.2⟩, ?_, msats, hmsats, ?_⟩
    · exact clone.onchainFundingTerms.trans hcommitted
    · simpa using hdigits
    · simpa using hshort
  all_goals simp_all [ParsedEscrowEvent.kind, EscrowPayload.kind]

theorem Reached.deposited (h : Reached host s)
    (hlock : s.lock.onchain = some lock) : Deposited s lock := by
  refine Reached.of_lock (I := fun s => ∀ lock, s.lock.onchain = some lock → Deposited s lock)
    (fun s hempty lock honchain => ?_)
    (fun h hkind hempty lock honchain => h.deposited_of_lock hkind hempty honchain)
    (fun {s e s'} hstep hreached hlocked hs lock honchain => ?_) h lock hlock
  · rw [hempty] at honchain
    cases honchain
  · have hcore := hstep.pastOpen_core (hreached.funded hlocked).not_open
    have hsame : s'.lock.onchain = s.lock.onchain := congrArg CustodyCore.onchain hcore
    have hamount : s'.amountMsats = s.amountMsats := congrArg CustodyCore.amountMsats hcore
    obtain ⟨⟨terms, hterms, hdescriptor⟩, hcovers⟩ := hs lock (hsame ▸ honchain)
    obtain ⟨s₀, e₀, s₁, es, -, hfreezes, rfl⟩ := hreached.freezes hterms
    obtain ⟨arbiter, -, hfrozen, -⟩ := hfreezes.valid_after
    have hkeeps := hstep.keepsFunding (hfrozen.keeps (hfrozen.fold host es).1)
    exact ⟨⟨terms, hkeeps.onchainFundingTerms.trans hterms, hdescriptor⟩, hamount ▸ hcovers⟩

/-- On-chain funding terms are frozen and sufficient: where an on-chain LOCK was accepted, it
repeats the frozen terms over a deposit that covers the amount; the terms are what the state's
seats, keys and rules give; and no event since the freeze, accepted or not, changed a seat, a key or
the terms. -/
theorem onchain_terms_frozen (host : Host) (s : EscrowState) (hs : Reached host s)
    (lock : OnchainLockTerms) (hlock : s.lock.onchain = some lock) :
    ∃ terms arbiter, s.onchainFundingTerms = some terms ∧
      SameDescriptor lock.toOnchainFundingTerms terms ∧
      (∀ time, FundingValid host s terms time arbiter) ∧
      Covers lock s.amountMsats ∧
      ∃ s₀ e s₁, Reached host s₀ ∧ Freezes host s₀ e s₁ terms ∧
        s₁.participants = { s₀.participants with arbiter := some arbiter } ∧
        (∃ es, s = liveFold (applyToState host) s₁ es) ∧
        ∀ es, KeepsFunding s₁ (liveFold (applyToState host) s₁ es) := by
  obtain ⟨⟨terms, hterms, hdescriptor⟩, hcovers⟩ := hs.deposited hlock
  obtain ⟨s₀, e, s₁, es, hs₀, hfreezes, rfl⟩ := hs.freezes hterms
  obtain ⟨arbiter, hvalid, hfrozen, hseats⟩ := hfreezes.valid_after
  have hfold := hfrozen.fold host es
  refine ⟨terms, arbiter, hterms, hdescriptor, fun time => ?_, hcovers, s₀, e, s₁, hs₀, hfreezes,
    hseats, ⟨es, rfl⟩, fun es => (hfrozen.fold host es).1⟩
  refine ((hvalid time).keeps hterms hfold.2 ?_ hfold.1.escrowKeys time).1
  rw [hfold.1.participants, hseats]

/-! ### The sample trade on the chain -/

def samplePublishedKey : Role → String
  | .buyer => "79be667ef9dcbbac55a06295ce870b07029bfcdb2dce28d959f2815b16f81798"
  | .seller => "c6047f9441ed7d6d3045406e95c07cd85c778e4b8cef3ca7abac09b95c709ee5"
  | .arbiter => "f9308a019258c31049344f85f89d5229b531c845836f99b08601f113bce036f9"

def sampleTerms : OnchainFundingTerms where
  address := "bc1ppt4qg83el6nduh6xknt9rm0ysp0drar0c63mdnp6c6te6q3we75s5x0ptu"
  buyerXonly := samplePublishedKey .buyer
  sellerXonly := samplePublishedKey .seller
  arbiterXonly := samplePublishedKey .arbiter
  funder := .seller
  refundLockUntil := 900000
  disputeCsvBlocks := disputeCsvBlocks
  network := .mainnet

def addressHost : Host :=
  { silentHost with escrowAddress := fun _ => .ok sampleTerms.address }

def sampleOnchainCreate : ParsedEscrowEvent := sampleEvent '0' 'a' 1800000000 (.create {
  description := "coins"
  amountMsats := 1000000
  category := "p2p-trade"
  mintUrl := "https://mint"
  platformFeeBps := 0
  platformFeePubkey := hexKey 'd'
  expirySeconds := 3600
  escrowMode := .str "onchain"
  escrowXonly := some (samplePublishedKey .seller)
  communityArbiters := .arr [.str (hexKey 'c')]
  createdAt := 1800000000 })

def sampleKeyedJoin (id author : Char) (time : ℕ) (role : Role) : ParsedEscrowEvent :=
  sampleEvent id author time (.join {
    role
    escrowXonly := some (samplePublishedKey role)
    joinedAt := .ofInt time })

/-- The JOINs of buyer and arbiter, the seller's terms and a LOCK over a deposit of 1000 sats. -/
def onchainEvents : List ParsedEscrowEvent :=
  [sampleKeyedJoin '1' 'b' 1800000010 .buyer, sampleKeyedJoin '3' 'c' 1800000012 .arbiter,
    sampleEvent '4' 'a' 1800000014 (.join {
      fundingTerms := some sampleTerms
      role := .seller
      joinedAt := 1800000014 }),
    sampleEvent '2' 'a' 1800000020 (.lock {
      onchain := some { sampleTerms with
        fundingTxid := hexKey '5'
        fundingVout := 0
        amountSats := "1000" }
      sellerReceivesMsats := 1000000
      arbiterFeeMsats := 0
      buyerPubkey := hexKey 'b'
      arbiterPubkey := hexKey 'c'
      lockedAt := 1800000020 })]

/-- The deposit of the sample trade covers its amount under the terms frozen before. -/
theorem onchain_terms_frozen_sample : ∃ s lock terms, Reached addressHost s ∧
    s.lock.onchain = some lock ∧ s.onchainFundingTerms = some terms ∧
    SameDescriptor lock.toOnchainFundingTerms terms ∧ Covers lock s.amountMsats := by
  have hrun : (liveTrade addressHost sampleOnchainCreate onchainEvents).any
      (fun s => s.lock.onchain.isSome) = true := by
    decide +kernel
  obtain ⟨s, hs, hsome⟩ := (Option.any_eq_true _ _).mp hrun
  obtain ⟨lock, hlock⟩ := Option.isSome_iff_exists.mp hsome
  have hreached := liveTrade_reached addressHost hs
  obtain ⟨terms, -, hterms, hdescriptor, -, hcovers, -⟩ :=
    onchain_terms_frozen addressHost s hreached lock hlock
  exact ⟨s, lock, terms, hreached, hlock, hterms, hdescriptor, hcovers⟩

end ChamaEscrow
