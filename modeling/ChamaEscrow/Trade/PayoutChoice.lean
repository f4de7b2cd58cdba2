import ChamaEscrow.Library.FirstMatch
import ChamaEscrow.Trade.PayoutProof

/-!
# The winner's payout choice under further messages

`winnerSettlementChoice` (`onchain-settlement-choice.ts`) goes over the settlement messages from the
first one on and stops at a proposal of the winner that the other required signer has signed, which
is locked.  Later messages are to leave a locked choice alone.

`locked_choice_stays_iff`: they do, unless the other signer also signs an older proposal of the
winner that was not signed before.  That one then overtakes the choice.
-/

namespace ChamaEscrow

open Js Library

variable {host : Host} {s s' : EscrowState}

/-! ### What a choice depends on -/

/-- What the choice of a trade's payout depends on besides the settlement messages. -/
structure PayoutContext where
  terms : OnchainLockTerms
  winner : String
  winnerRole : Role
  arbitrated : Bool
  fallback : String
  stalled : Option SettlementStalled

namespace PayoutContext

variable (t : PayoutContext)

def leaf : SettlementLeaf := if t.arbitrated then .arbiter else .coop

/-- The other signer that the leaf requires. -/
def otherRole : Role :=
  if t.arbitrated then .arbiter else if t.winnerRole = .buyer then .seller else .buyer

def destination (m : SettlementMessage) : JsValue :=
  m.payload.payoutAddress.orFalsy (.str t.fallback)

def Proposes (m : SettlementMessage) : Prop :=
  m.payload.leaf = t.leaf ∧ m.raw.pubkey = t.winner ∧ m.payload.role = t.winnerRole

structure Verifies (host : Host) (m : SettlementMessage) (id : String) : Prop where
  unsignedId : host.unsignedId m.payload.psbt = .ok id
  stalled : ∀ st, t.stalled = some st → (t.destination m).strictEq st.destination = true
  spends : ∃ utxos, host.inputs m.payload.psbt = .ok utxos ∧
    ∃ u ∈ utxos, u.txid = t.terms.fundingTxid ∧ u.index = t.terms.fundingVout
  verifies : host.settlementVerifies m.payload.psbt t.terms.toOnchainFundingTerms (t.destination m)
    t.leaf = true

def CounterSigned (host : Host) (messages : List SettlementMessage) (id : String) : Prop :=
  ∃ m ∈ messages, m.payload.leaf = t.leaf ∧ hasUnsignedId host id m = true ∧
    host.hasValidSignature m.payload.psbt t.terms.toOnchainFundingTerms t.otherRole t.leaf = true

end PayoutContext

variable (host) in
def payoutContext (state : EscrowState) : Except JsError (Option PayoutContext) :=
  match state.lock.onchain, settlementWinner state with
  | some terms, some (winner, winnerRole) => do
    let address ← host.escrowAddress terms.toOnchainFundingTerms
    if address ≠ terms.address then return none
    else
      let fallback ← host.taprootAddress (termsKey terms.toOnchainFundingTerms winnerRole)
        terms.network
      return some {
        terms, winner, winnerRole, fallback
        arbitrated := isArbitrated state
        stalled := state.settlementStalled }
  | _, _ => .ok none

namespace PayoutContext

def onLeaf (t : PayoutContext) (messages : List SettlementMessage) : List SettlementMessage :=
  messages.filter fun m => m.payload.leaf = t.leaf

def proposals (t : PayoutContext) (messages : List SettlementMessage) : List SettlementMessage :=
  (t.onLeaf messages).filter fun m => m.raw.pubkey = t.winner ∧ m.payload.role = t.winnerRole

def read (t : PayoutContext) (host : Host) (state : EscrowState) :
    List String → SettlementMessage → Option SettlementChoice :=
  proposalChoice host state t.terms t.fallback t.leaf t.otherRole (t.onLeaf state.settlements)

end PayoutContext

theorem winnerSettlementChoice_eq_some {c : SettlementChoice} :
    winnerSettlementChoice host s = .ok (some c) ↔
      ∃ t, payoutContext host s = .ok (some t) ∧
        chooseProposal (t.read host s) (t.proposals s.settlements) [] none = some c := by
  unfold winnerSettlementChoice payoutContext
  cases s.lock.onchain with
  | none => simp
  | some terms =>
    cases hwinner : settlementWinner s with
    | none => simp
    | some w =>
      obtain ⟨winner, winnerRole⟩ := w
      dsimp only
      cases host.escrowAddress terms.toOnchainFundingTerms with
      | error e => simp [bind, Except.bind]
      | ok address =>
        rw [ok_bind, ok_bind]
        by_cases haddress : address ≠ terms.address
        · rw [if_pos haddress, if_pos haddress]
          simp [pure, Except.pure]
        · rw [if_neg haddress, if_neg haddress]
          cases host.taprootAddress (termsKey terms.toOnchainFundingTerms winnerRole)
              terms.network with
          | error e => simp [bind, Except.bind]
          | ok fallback =>
            rw [ok_bind, ok_bind]
            simp only [pure_eq_ok, Option.some.injEq, exists_eq_left']
            rfl

theorem onchain_of_winnerSettlementChoice {c : SettlementChoice}
    (h : winnerSettlementChoice host s = .ok (some c)) : s.lock.onchain.isSome = true := by
  unfold winnerSettlementChoice at h
  cases hterms : s.lock.onchain with
  | none =>
    rw [hterms] at h
    cases h
  | some terms => rfl

/-! ### Reading a proposal -/

def PayoutContext.choiceOf (t : PayoutContext) (host : Host) (messages : List SettlementMessage)
    (m : SettlementMessage) (id : String) : SettlementChoice where
  id := id
  destination := t.destination m
  locked := ((t.onLeaf messages).filter (hasUnsignedId host id)).any fun m =>
    host.hasValidSignature m.payload.psbt t.terms.toOnchainFundingTerms t.otherRole t.leaf
  proposal := m

variable {t : PayoutContext} {m : SettlementMessage} {c : SettlementChoice} {id : String}

theorem locked_choiceOf_iff : (t.choiceOf host s.settlements m id).locked = true ↔
    t.CounterSigned host s.settlements id := by
  unfold PayoutContext.choiceOf PayoutContext.CounterSigned PayoutContext.onLeaf
  simp only [List.any_eq_true, List.mem_filter, decide_eq_true_eq, and_assoc]

/-- What a search that may throw has found. -/
def foundChoice (found : Except JsError (Option SettlementChoice)) : Option SettlementChoice :=
  match found with
  | .ok choice => choice
  | .error _ => none

theorem foundChoice_eq_some {found : Except JsError (Option SettlementChoice)} :
    foundChoice found = some c ↔ found = .ok (some c) := by
  cases found <;> simp [foundChoice]

theorem read_eq_some (hstalled : t.stalled = s.settlementStalled) {seen : List String} :
    t.read host s seen m = some c ↔
      ∃ id, t.Verifies host m id ∧ id ∉ seen ∧ t.choiceOf host s.settlements m id = c := by
  have hdestination : m.payload.payoutAddress.orFalsy (.str t.fallback) = t.destination m := rfl
  unfold PayoutContext.read proposalChoice
  dsimp only
  refine foundChoice_eq_some.trans ?_
  simp only [bind_eq_ok, hdestination]
  constructor
  · rintro ⟨id, hid, utxos, hutxos, h⟩
    split_ifs at h with hseen hother hspends hverifies
    · cases h
    · cases h
    · cases h
    · cases h
    refine ⟨id, ⟨hid, ?_, ⟨utxos, hutxos, ?_⟩, ?_⟩, hseen, ?_⟩
    · intro st hst
      rw [hstalled] at hst
      rw [hst] at hother
      simpa using hother
    · simpa using hspends
    · simpa using hverifies
    · exact Option.some.inj (pure_eq_ok.mp h)
  · rintro ⟨id, hverifies, hseen, rfl⟩
    obtain ⟨utxos, hutxos, hspends⟩ := hverifies.spends
    refine ⟨id, hverifies.unsignedId, utxos, hutxos, ?_⟩
    have hagreed : ¬ (s.settlementStalled.any fun st =>
        !(t.destination m).strictEq st.destination) = true := by
      rw [← hstalled]
      intro hany
      obtain ⟨st, hst, hother⟩ := (Option.any_eq_true _ _).mp hany
      rw [hverifies.stalled st hst] at hother
      cases hother
    rw [if_neg hseen, if_neg hagreed, if_neg (by simpa using hspends),
      if_neg (by simpa using hverifies.verifies)]
    rfl

/-! ### The locked choice -/

theorem chooseProposal_locked_iff {read : List String → SettlementMessage → Option SettlementChoice}
    (hread : ∀ seen m, read seen m = (read [] m).filter fun c => c.id ∉ seen)
    (hlock : ∀ m m' c c', read [] m = some c → read [] m' = some c' → c.id = c'.id →
      c.locked = c'.locked)
    {proposals : List SettlementMessage} {seen : List String} {latest : Option SettlementChoice}
    (hseen : ∀ m c, read [] m = some c → c.id ∈ seen → c.locked = false)
    (hlatest : ∀ c, latest = some c → c.locked = false) :
    chooseProposal read proposals seen latest = some c ∧ c.locked = true ↔
      ∃ m, proposals.find? (fun m => (read [] m).any SettlementChoice.locked) = some m ∧
        read [] m = some c := by
  induction proposals generalizing seen latest with
  | nil =>
    constructor
    · rintro ⟨hc, hlocked⟩
      rw [hlatest c hc] at hlocked
      cases hlocked
    · rintro ⟨m, hm, -⟩
      cases hm
  | cons m rest ih =>
    unfold chooseProposal
    rw [hread seen m]
    cases h₀ : read [] m with
    | none =>
      rw [List.find?_cons_of_neg (by simp [h₀])]
      exact ih hseen hlatest
    | some c₀ =>
      by_cases hknown : c₀.id ∈ seen
      · rw [Option.filter_some, if_neg (by simpa using hknown),
          List.find?_cons_of_neg (by simp [h₀, hseen m c₀ h₀ hknown])]
        exact ih hseen hlatest
      · rw [Option.filter_some, if_pos (by simpa using hknown)]
        dsimp only
        by_cases hlocked : c₀.locked = true
        · rw [if_pos hlocked, List.find?_cons_of_pos (by simp [h₀, hlocked])]
          constructor
          · rintro ⟨hc, -⟩
            exact ⟨m, rfl, h₀.trans hc⟩
          · rintro ⟨m', hm', hc⟩
            obtain rfl := Option.some.inj hm'
            obtain rfl := Option.some.inj (h₀.symm.trans hc)
            exact ⟨rfl, hlocked⟩
        · rw [if_neg hlocked, List.find?_cons_of_neg (by simp [h₀, hlocked])]
          refine ih ?_ ?_
          · intro m' c' hc' hmem
            rcases List.mem_cons.mp hmem with hsame | hmem
            · rw [hlock m' m c' c₀ hc' h₀ hsame]
              simpa using hlocked
            · exact hseen m' c' hc' hmem
          · intro c' hc'
            obtain rfl := Option.some.inj hc'
            simpa using hlocked

instance (t : PayoutContext) (m : SettlementMessage) : Decidable (t.Proposes m) :=
  inferInstanceAs (Decidable (_ ∧ _ ∧ _))

def PayoutContext.isLocked (t : PayoutContext) (host : Host) (state : EscrowState)
    (m : SettlementMessage) : Bool :=
  t.Proposes m && (t.read host state [] m).any SettlementChoice.locked

theorem isLocked_iff (hstalled : t.stalled = s.settlementStalled) : t.isLocked host s m = true ↔
    t.Proposes m ∧ ∃ id, t.Verifies host m id ∧ t.CounterSigned host s.settlements id := by
  unfold PayoutContext.isLocked
  rw [Bool.and_eq_true, decide_eq_true_eq, Option.any_eq_true]
  refine and_congr_right fun _ => ?_
  constructor
  · rintro ⟨c, hc, hlocked⟩
    obtain ⟨id, hverifies, -, rfl⟩ := (read_eq_some hstalled).mp hc
    exact ⟨id, hverifies, locked_choiceOf_iff.mp hlocked⟩
  · rintro ⟨id, hverifies, hsigned⟩
    exact ⟨_, (read_eq_some hstalled).mpr ⟨id, hverifies, List.not_mem_nil, rfl⟩,
      locked_choiceOf_iff.mpr hsigned⟩

theorem find?_proposals (messages : List SettlementMessage) (q : SettlementMessage → Bool) :
    (t.proposals messages).find? q = messages.find? fun m => t.Proposes m && q m := by
  unfold PayoutContext.proposals PayoutContext.onLeaf
  rw [List.find?_filter, List.find?_filter]
  refine congrArg (List.find? · messages) (funext fun m => ?_)
  rw [Bool.eq_iff_iff, Bool.and_eq_true, decide_eq_true_eq (p := t.Proposes m)]
  simp [PayoutContext.Proposes, and_assoc]

theorem lockedChoice_iff (hstalled : t.stalled = s.settlementStalled) :
    chooseProposal (t.read host s) (t.proposals s.settlements) [] none = some c ∧
        c.locked = true ↔
      ∃ m id, s.settlements.find? (t.isLocked host s) = some m ∧ t.Verifies host m id ∧
        t.choiceOf host s.settlements m id = c := by
  have hread : ∀ seen m, t.read host s seen m =
      (t.read host s [] m).filter fun c => c.id ∉ seen := by
    intro seen m
    ext c'
    rw [Option.filter_eq_some_iff, read_eq_some hstalled, read_eq_some hstalled]
    constructor
    · rintro ⟨id, hverifies, hseen, rfl⟩
      exact ⟨⟨id, hverifies, List.not_mem_nil, rfl⟩, decide_eq_true hseen⟩
    · rintro ⟨⟨id, hverifies, -, rfl⟩, hseen⟩
      exact ⟨id, hverifies, of_decide_eq_true hseen, rfl⟩
  have hlock : ∀ m m' c c', t.read host s [] m = some c → t.read host s [] m' = some c' →
      c.id = c'.id → c.locked = c'.locked := by
    intro m m' c c' hc hc' hsame
    obtain ⟨id, -, -, rfl⟩ := (read_eq_some hstalled).mp hc
    obtain ⟨id', -, -, rfl⟩ := (read_eq_some hstalled).mp hc'
    obtain rfl : id = id' := hsame
    rfl
  rw [chooseProposal_locked_iff hread hlock (by simp) (by simp), find?_proposals]
  refine exists_congr fun m => ?_
  constructor
  · rintro ⟨hm, hc⟩
    obtain ⟨id, hverifies, -, rfl⟩ := (read_eq_some hstalled).mp hc
    exact ⟨id, hm, hverifies, rfl⟩
  · rintro ⟨id, hm, hverifies, rfl⟩
    exact ⟨hm, (read_eq_some hstalled).mpr ⟨id, hverifies, List.not_mem_nil, rfl⟩⟩

/-! ### Further messages -/

structure Extends (s s' : EscrowState) (new : List SettlementMessage) : Prop where
  settlements : s'.settlements = s.settlements ++ new
  terms : s'.toTradeTerms = s.toTradeTerms
  lock : s'.lock = s.lock
  participants : s'.participants = s.participants
  resolvedOutcome : s'.resolvedOutcome = s.resolvedOutcome
  resolvedMajority : s'.resolvedMajority = s.resolvedMajority
  stalled : s'.settlementStalled = s.settlementStalled

theorem extends_of_applyToState {e : ParsedEscrowEvent} {p : SettlementPayload}
    (hp : e.payload = .settlement p) (h : applyToState host s e = .ok s') :
    ∃ new, Extends s s' new := by
  unfold applyToState at h
  rw [hp] at h
  dsimp only at h
  unfold handleSettlement at h
  split_ifs at h with hknown
  · obtain rfl := Except.ok.inj h
    exact ⟨[], by simp, rfl, rfl, rfl, rfl, rfl, rfl⟩
  · simp only [bind_eq_ok, guardErr_eq_ok, js_eq_ok, pure_eq_ok] at h
    obtain ⟨-, -, next, hnext, rfl⟩ := h
    have hcopy := cloneState_isCopy hnext
    exact ⟨[⟨e.raw, p⟩], congrArg (· ++ _) hcopy.settlements, hcopy.terms, hcopy.lock,
      hcopy.participants, hcopy.resolvedOutcome, hcopy.resolvedMajority, hcopy.settlementStalled⟩

def IsSettlement (e : ParsedEscrowEvent) : Prop := ∃ p, e.payload = .settlement p

def SettledFrom (host : Host) (s : EscrowState) : EscrowState → Prop :=
  Run (applyToState host) (· = s) fun _ e => IsSettlement e

theorem extends_of_settledFrom (h : SettledFrom host s s') : ∃ new, Extends s s' new := by
  refine Run.invariant (I := fun s' => ∃ new, Extends s s' new) ?_ ?_ h
  · rintro _ rfl
    exact ⟨[], by simp, rfl, rfl, rfl, rfl, rfl, rfl⟩
  · rintro s₁ e s₂ ⟨p, hp⟩ ⟨new, h₁⟩ hstep
    obtain ⟨added, h₂⟩ := extends_of_applyToState hp hstep
    exact ⟨new ++ added, by rw [h₂.settlements, h₁.settlements, List.append_assoc],
      h₂.terms.trans h₁.terms, h₂.lock.trans h₁.lock, h₂.participants.trans h₁.participants,
      h₂.resolvedOutcome.trans h₁.resolvedOutcome, h₂.resolvedMajority.trans h₁.resolvedMajority,
      h₂.stalled.trans h₁.stalled⟩

theorem Extends.payoutContext {new : List SettlementMessage} (h : Extends s s' new) :
    payoutContext host s' = payoutContext host s := by
  have hrole (outcome : Outcome) : payoutRole s' outcome = payoutRole s outcome := by
    unfold payoutRole buyerFunds
    rw [h.terms]
  have hwinner : settlementWinner s' = settlementWinner s := by
    unfold settlementWinner payoutRecipientFor
    rw [hrole, h.participants, h.terms, h.resolvedOutcome]
  have harbitrated : isArbitrated s' = isArbitrated s := by
    unfold isArbitrated
    rw [h.stalled, h.resolvedMajority]
  unfold ChamaEscrow.payoutContext
  rw [hwinner, harbitrated, h.lock, h.stalled]

theorem stalled_of_payoutContext (h : payoutContext host s = .ok (some t)) :
    t.stalled = s.settlementStalled := by
  unfold payoutContext at h
  split at h
  · obtain ⟨address, -, h⟩ := bind_eq_ok.mp h
    split_ifs at h with haddress
    · cases h
    · obtain ⟨fallback, -, h⟩ := bind_eq_ok.mp h
      obtain rfl := Option.some.inj (pure_eq_ok.mp h)
      rfl
  · cases h

variable (host) in
/-- None of the winner's verified proposals that no signed one stands before, and that the other
signer has not signed yet, is signed in the new messages. -/
def OlderStayUnsigned (s : EscrowState) (new : List SettlementMessage) : Prop :=
  ∀ t, payoutContext host s = .ok (some t) →
    ∀ before older after id, s.settlements = before ++ older :: after →
      t.Proposes older → t.Verifies host older id →
      (∀ m ∈ before ++ [older], t.Proposes m → ∀ id', t.Verifies host m id' →
        ¬ t.CounterSigned host s.settlements id') →
      ¬ t.CounterSigned host new id

theorem counterSigned_append {messages new : List SettlementMessage} :
    t.CounterSigned host (messages ++ new) id ↔
      t.CounterSigned host messages id ∨ t.CounterSigned host new id := by
  unfold PayoutContext.CounterSigned
  constructor
  · rintro ⟨m, hm, hsigned⟩
    rcases List.mem_append.mp hm with hm | hm
    · exact Or.inl ⟨m, hm, hsigned⟩
    · exact Or.inr ⟨m, hm, hsigned⟩
  · rintro (⟨m, hm, hsigned⟩ | ⟨m, hm, hsigned⟩)
    · exact ⟨m, List.mem_append_left _ hm, hsigned⟩
    · exact ⟨m, List.mem_append_right _ hm, hsigned⟩

theorem not_isLocked_iff (hstalled : t.stalled = s.settlementStalled) :
    t.isLocked host s m = false ↔ (t.Proposes m → ∀ id, t.Verifies host m id →
      ¬ t.CounterSigned host s.settlements id) := by
  rw [← Bool.not_eq_true, isLocked_iff hstalled]
  push Not
  rfl

/-- A locked choice keeps its transaction and its destination under further settlement events just
when the other signer signs no older verified proposal of the winner in them that was not signed
before. -/
theorem locked_choice_stays_iff (hc : winnerSettlementChoice host s = .ok (some c))
    (hlocked : c.locked = true) (h : SettledFrom host s s') :
    (∃ c', winnerSettlementChoice host s' = .ok (some c') ∧ c'.id = c.id ∧
      c'.destination = c.destination) ↔
      OlderStayUnsigned host s (s'.settlements.drop s.settlements.length) := by
  obtain ⟨new, hnew⟩ := extends_of_settledFrom h
  obtain ⟨t, ht, hchoice⟩ := winnerSettlementChoice_eq_some.mp hc
  have ht' : payoutContext host s' = .ok (some t) := hnew.payoutContext.trans ht
  have hstalled := stalled_of_payoutContext ht
  have hstalled' := stalled_of_payoutContext ht'
  have hdrop : s'.settlements.drop s.settlements.length = new := by
    rw [hnew.settlements, List.drop_left]
  obtain ⟨m, id, hm, hverifies, rfl⟩ := (lockedChoice_iff hstalled).mp ⟨hchoice, hlocked⟩
  have hmono : ∀ m, t.isLocked host s m = true → t.isLocked host s' m = true := by
    intro m' hm'
    obtain ⟨hproposes, id', hverifies', hsigned⟩ := (isLocked_iff hstalled).mp hm'
    refine (isLocked_iff hstalled').mpr ⟨hproposes, id', hverifies', ?_⟩
    rw [hnew.settlements]
    exact counterSigned_append.mpr (Or.inl hsigned)
  have hreport {m' : SettlementMessage} {id' : String}
      (hm' : s'.settlements.find? (t.isLocked host s') = some m')
      (hverifies' : t.Verifies host m' id') : winnerSettlementChoice host s' =
        .ok (some (t.choiceOf host s'.settlements m' id')) :=
    winnerSettlementChoice_eq_some.mpr ⟨t, ht',
      ((lockedChoice_iff hstalled').mpr ⟨m', id', hm', hverifies', rfl⟩).1⟩
  rw [hdrop]
  rcases find?_append_cases hmono hm new with ⟨hfirst, holder⟩ |
    ⟨before, older, after, hfirst, holder, hsplit, hunsigned⟩
  · rw [← hnew.settlements] at hfirst
    refine iff_of_true ⟨_, hreport hfirst hverifies, rfl, rfl⟩ ?_
    intro t₁ ht₁ before older after id' hsplit hproposes hverifies' hunsigned hsigned
    obtain rfl := Option.some.inj (Except.ok.inj (ht.symm.trans ht₁))
    have hnot := holder before older after hsplit fun m' hm' =>
      (not_isLocked_iff hstalled).mpr (hunsigned m' hm')
    refine (not_isLocked_iff hstalled').mp hnot hproposes id' hverifies' ?_
    rw [hnew.settlements]
    exact counterSigned_append.mpr (Or.inr hsigned)
  · rw [← hnew.settlements] at hfirst
    obtain ⟨hproposes, id', hverifies', hsigned⟩ := (isLocked_iff hstalled').mp holder
    have hbefore : ¬ t.CounterSigned host s.settlements id' :=
      (not_isLocked_iff hstalled).mp (hunsigned older (by simp)) hproposes id' hverifies'
    rw [hnew.settlements] at hsigned
    refine iff_of_false ?_ ?_
    · rintro ⟨c', hc', hid, -⟩
      obtain rfl := Option.some.inj (Except.ok.inj ((hreport hfirst hverifies').symm.trans hc'))
      obtain rfl : id' = id := hid
      exact hbefore (locked_choiceOf_iff.mp hlocked)
    · intro hstay
      refine hstay t ht before older after id' hsplit hproposes hverifies' ?_
        ((counterSigned_append.mp hsigned).resolve_left hbefore)
      exact fun m' hm' => (not_isLocked_iff hstalled).mp (hunsigned m' hm')

/-! ### Two continuations -/

theorem eq_str_of_isText {v : JsValue} {text : String} (h : v.isText text = true) :
    v = .str text := by
  cases v with
  | str t => exact congrArg JsValue.str (of_decide_eq_true h)
  | _ => cases h

theorem chooses_of_choosesLocked {text : String} (h : choosesLocked id text s = true) :
    ∃ c, winnerSettlementChoice payoutHost s = .ok (some c) ∧ c.id = id ∧
      c.destination = .str text ∧ c.locked = true := by
  unfold choosesLocked at h
  split at h
  · rename_i c hc
    obtain ⟨hid, hrest⟩ := Bool.and_eq_true_iff.mp h
    obtain ⟨htext, hlocked⟩ := Bool.and_eq_true_iff.mp hrest
    exact ⟨c, hc, of_decide_eq_true hid, eq_str_of_isText htext, hlocked⟩
  · cases h

theorem settledFrom_settled {es : List ParsedEscrowEvent} (h : ∀ e ∈ es, IsSettlement e) :
    SettledFrom payoutHost s (settled s es) := by
  have hstart : SettledFrom payoutHost s s := .start rfl
  exact Run.fold hstart fun _ => h

/-- In the sample trade the locked choice stays when the winner proposes a third payout, which signs
no older one. -/
theorem locked_choice_stays : ∃ s s' c, Reached payoutHost s ∧
    winnerSettlementChoice payoutHost s = .ok (some c) ∧ c.locked = true ∧
    SettledFrom payoutHost s s' ∧
    OlderStayUnsigned payoutHost s (s'.settlements.drop s.settlements.length) := by
  obtain ⟨s, hs, -, -, -, hlocked, -, hnewer, -⟩ := sample_payouts
  obtain ⟨c, hc, hid, htext, hlocked⟩ := chooses_of_choosesLocked hlocked
  obtain ⟨c', hc', hid', htext', -⟩ := chooses_of_choosesLocked hnewer
  have hsettled : SettledFrom payoutHost (settled s chosenEvents)
      (settled (settled s chosenEvents) [newerProposed]) :=
    settledFrom_settled (by simp [IsSettlement, newerProposed, sampleSettle, sampleEvent])
  exact ⟨settled s chosenEvents, _, c, Run.fold hs fun _ _ _ => trivial, hc, hlocked, hsettled,
    (locked_choice_stays_iff hc hlocked hsettled).mp
      ⟨c', hc', hid'.trans hid.symm, htext'.trans htext.symm⟩⟩

/-- In the sample trade the seller's signature under the older payout replaces the locked one. -/
theorem locked_choice_overtaken : ∃ s s' c c', Reached payoutHost s ∧ s.lock.onchain.isSome = true ∧
    winnerSettlementChoice payoutHost s = .ok (some c) ∧ c.locked = true ∧
    SettledFrom payoutHost s s' ∧ winnerSettlementChoice payoutHost s' = .ok (some c') ∧
    c'.id ≠ c.id ∧ c'.destination ≠ c.destination := by
  obtain ⟨s, hs, -, -, -, hlocked, holder, -⟩ := sample_payouts
  obtain ⟨c, hc, hid, htext, hlocked⟩ := chooses_of_choosesLocked hlocked
  obtain ⟨c', hc', hid', htext', -⟩ := chooses_of_choosesLocked holder
  have hsettled : SettledFrom payoutHost (settled s chosenEvents)
      (settled (settled s chosenEvents) [olderSigned]) :=
    settledFrom_settled (by simp [IsSettlement, olderSigned, sampleSettle, sampleEvent])
  refine ⟨settled s chosenEvents, _, c, c', Run.fold hs fun _ _ _ => trivial, ?_, hc, hlocked,
    hsettled, hc', ?_, ?_⟩
  · exact onchain_of_winnerSettlementChoice hc
  · rw [hid, hid']
    decide
  · rw [htext, htext']
    simp

end ChamaEscrow
