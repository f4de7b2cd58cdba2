import ChamaEscrow.Client.VoteSlots
import ChamaEscrow.Trade.Majority

/-!
# Who may vote, twice

`canVote` tells the interface whether a key may vote now; `handleVote`, behind the expiry check of
`applyEvent`, decides it again when the VOTE comes.  Both ask for a place in the trade, released
shares, a key that has not voted, and the floor where the vote is the arbiter's; past the deadline
the floor is everybody's.  They part over three kinds of states (`Diverges`).

* `canVote_iff_accepts`: `canVote` agrees with the reducer on a REFUND exactly outside of them.
-/

namespace ChamaEscrow.VoteSlots

open Js Library

variable {host : Host} {s live : EscrowState} {e : ParsedEscrowEvent} {pubkey : String}
  {now : JsNumber}

/-! ### What both of them ask -/

/-- Whether the share of the arbiter is pooled, so that backups may vote. -/
def Pooled (s : EscrowState) : Prop := s.lock.arbiterPoolShare = some true

/-- The vote of a key is the arbiter's: the key sits in that seat, or in none. -/
def ActsAsArbiter (s : EscrowState) (pubkey : String) : Prop :=
  (getRole s pubkey).getD .arbiter = .arbiter

/-- The shares are released, the key has a seat or a place among the backups, and has not voted. -/
structure StandsToVote (s : EscrowState) (pubkey : String) : Prop where
  released : holdsBackShares s = false
  place : (getRole s pubkey).isSome ∨
    (Pooled s ∧ ∃ i, arbiterVotePriority s pubkey = .ok (some i))
  first : ∀ v ∈ s.eventChain, v.kind = .vote → v.pubkey ≠ pubkey

/-- The arbiter has the floor: the principals both voted and disagree, or a lone vote has stood long
enough. -/
def FloorOpen (s : EscrowState) (now : JsNumber) : Prop :=
  ((s.votes.get .buyer).isSome ∧ (s.votes.get .seller).isSome →
    s.votes.get .buyer ≠ s.votes.get .seller) ∧
  (¬ ((s.votes.get .buyer).isSome ∧ (s.votes.get .seller).isSome) →
    ∃ opensAt, oneSidedEscalationAt s = some opensAt ∧ ¬ now < opensAt)

/-- The assigned arbiter has had the floor for long enough. -/
def GraceOver (s : EscrowState) (now : JsNumber) : Prop :=
  ∃ opensAt, substitutionEligibleAt s = some opensAt ∧ ¬ now < opensAt

theorem graceOver_iff : GraceOver s now ↔
    ¬ ((substitutionEligibleAt s).all fun opensAt => now < opensAt) = true := by
  unfold GraceOver
  cases substitutionEligibleAt s <;> simp

/-- The arbiter has the floor, and a backup no longer waits for the assigned one. -/
def HasFloor (s : EscrowState) (pubkey : String) (now : JsNumber) : Prop :=
  FloorOpen s now ∧ (getRole s pubkey = none → GraceOver s now)

/-! ### The interface -/

theorem live_or_expired : ¬ (s.status ≠ .locked ∧ s.status ≠ .expired) ↔
    s.status = .locked ∨ s.status = .expired := by
  rw [not_and_or, not_not, not_not]

/-- `canVote` takes a trade for one to heal: it is expired, or its clock says so. -/
def SeenPast (s : EscrowState) (now : JsNumber) : Prop :=
  s.status = .expired ∨ (0 < s.expiresAt ∧ s.expiresAt < now)

/-- Why `canVote` keeps a vote in the arbiter's role waiting for the floor. -/
theorem floor_iff : ((match s.votes.get .buyer, s.votes.get .seller with
      | some buyerVote, some sellerVote =>
        if buyerVote = sellerVote then some "Buyer and seller agree — arbiter not needed" else none
      | _, _ =>
        if (oneSidedEscalationAt s).all fun opensAt => now < opensAt then
          some "Waiting for buyer and seller to vote first"
        else none : Option String) = none) ↔ FloorOpen s now := by
  have hlone : ((if (oneSidedEscalationAt s).all fun opensAt => now < opensAt then
        some "Waiting for buyer and seller to vote first" else none : Option String) = none) ↔
      ∃ opensAt, oneSidedEscalationAt s = some opensAt ∧ ¬ now < opensAt := by
    cases oneSidedEscalationAt s <;> simp
  unfold FloorOpen
  cases s.votes.get .buyer with
  | none => simp only [hlone, Option.isSome_none, Bool.false_eq_true, false_and, not_false_eq_true,
      true_implies, false_implies, true_and]
  | some buyerVote =>
    cases s.votes.get .seller with
    | none => simp only [hlone, Option.isSome_none, Bool.false_eq_true, and_false,
        not_false_eq_true, true_implies, false_implies, true_and]
    | some sellerVote => simp

theorem canVote_iff {outcome : Outcome} {cycle : Option ChamaCycleContext}
    (hplain : s.chamaPolicy = none) :
    canVote host s pubkey now outcome cycle = .ok none ↔
      (s.status = .locked ∨ s.status = .expired) ∧ StandsToVote s pubkey ∧
        (ActsAsArbiter s pubkey → SeenPast s now ∨ HasFloor s pubkey now) := by
  have hlaw : intentError host s outcome now cycle = none := by simp [intentError, hplain]
  unfold canVote
  rw [hlaw]
  dsimp only
  by_cases hstatus : s.status ≠ .locked ∧ s.status ≠ .expired
  · rw [if_pos hstatus]
    simp [hstatus]
  rw [if_neg hstatus]
  have hlive := live_or_expired.mp hstatus
  by_cases hheld : holdsBackShares s = true
  · rw [if_pos hheld]
    refine iff_of_false (by simp) fun h => ?_
    rw [h.2.1.released] at hheld
    cases hheld
  rw [if_neg hheld]
  have hreleased : holdsBackShares s = false := by simpa using hheld
  have hpast : (decide (s.status = .expired) || decide (0 < s.expiresAt) &&
      decide (s.expiresAt < now)) = true ↔ SeenPast s now := by
    simp [SeenPast]
  have hfirst : (s.eventChain.any fun v => v.kind = .vote && v.pubkey = pubkey) = true ↔
      ¬ ∀ v ∈ s.eventChain, v.kind = .vote → v.pubkey ≠ pubkey := by
    simp
  cases hseat : getRole s pubkey with
  | some r =>
    have hacts : ActsAsArbiter s pubkey ↔ r = .arbiter := by rw [ActsAsArbiter, hseat]; rfl
    simp only [Option.isNone_some, Bool.false_and, Bool.false_eq_true, if_false, Option.getD_some,
      Option.or_none]
    change (if _ then _ else _) = _ ↔ _
    by_cases hvoted : ∀ v ∈ s.eventChain, v.kind = .vote → v.pubkey ≠ pubkey
    · have hstands : StandsToVote s pubkey := ⟨hreleased, Or.inl (by rw [hseat]; rfl), hvoted⟩
      rw [if_neg (by rw [hfirst, not_not]; exact hvoted), pure_eq_ok]
      simp only [ite_eq_right_iff, Bool.and_eq_true, decide_eq_true_eq, Bool.not_eq_true', hlive,
        hstands, hacts, true_and, HasFloor, hseat, reduceCtorEq, false_implies, and_true]
      rw [← hpast, ← Bool.not_eq_true, and_imp]
      refine forall_congr' fun _ => (imp_congr_right fun _ => floor_iff).trans ?_
      rw [or_iff_not_imp_left]
    · rw [if_pos (hfirst.mpr hvoted)]
      exact iff_of_false (by simp [pure, Except.pure]) fun h => hvoted h.2.1.first
  | none =>
    have hacts : ActsAsArbiter s pubkey := by rw [ActsAsArbiter, hseat]; rfl
    simp only [Option.isNone_none, Bool.true_and, Option.getD_none, decide_true]
    by_cases hpooled : s.lock.arbiterPoolShare = some true
    · have unplaced (hnone : ∀ i, arbiterVotePriority s pubkey ≠ .ok (some i)) :
          ¬ StandsToVote s pubkey := by
        rintro ⟨-, hplace | ⟨-, i, hplace⟩, -⟩
        · rw [hseat] at hplace
          cases hplace
        · exact hnone i hplace
      simp only [hpooled, decide_true, if_true]
      cases hplace : arbiterVotePriority s pubkey with
      | error thrown => exact iff_of_false (by rintro ⟨⟩) fun h => unplaced (by simp [hplace]) h.2.1
      | ok place =>
        cases place with
        | none => exact iff_of_false (by rintro ⟨⟩) fun h => unplaced (by simp [hplace]) h.2.1
        | some i =>
          change (if _ then _ else _) = _ ↔ _
          by_cases hvoted : ∀ v ∈ s.eventChain, v.kind = .vote → v.pubkey ≠ pubkey
          · have hstands : StandsToVote s pubkey := ⟨hreleased, Or.inr ⟨hpooled, i, hplace⟩, hvoted⟩
            rw [if_neg (by rw [hfirst, not_not]; exact hvoted), pure_eq_ok, Option.or_eq_none_iff]
            simp only [ite_eq_right_iff, Bool.and_eq_true, Bool.not_eq_true', hlive, hstands, hacts,
              true_and, true_implies, HasFloor, hseat, reduceCtorEq]
            rw [← hpast, ← Bool.not_eq_true, or_iff_not_imp_left, and_imp, ← imp_and]
            refine imp_congr_right fun _ => and_congr floor_iff ?_
            rw [graceOver_iff]
          · rw [if_pos (hfirst.mpr hvoted)]
            exact iff_of_false (by simp [pure, Except.pure]) fun h => hvoted h.2.1.first
    · simp only [hpooled, decide_false, Bool.false_eq_true, if_false]
      refine iff_of_false (by rintro ⟨⟩) fun h => ?_
      rcases h.2.1.place with hplace | hplace
      · rw [hseat] at hplace
        cases hplace
      · exact hpooled hplace.1

/-! ### The reducer -/

/-- A REFUND by a key that is about to vote: a new VOTE in the role of its author, without a payout
and without a share. -/
structure NewRefund (s : EscrowState) (e : ParsedEscrowEvent) (p : VotePayload) : Prop where
  payload : e.payload = .vote p
  outcome : p.outcome = .refund
  role : p.role = (getRole s e.pubkey).getD .arbiter
  bare : p.shareEnvelope = none ∧ p.onchainRelease = none
  fresh : s.hasEvent e.id = false

def OrderRead (s : EscrowState) (pubkey : String) : Prop :=
  ActsAsArbiter s pubkey → Pooled s → ∃ order, arbiterPriorityOrder s = .ok order

theorem arbiterFloorGate_iff {lone : Option JsNumber → Bool} {u : Unit} :
    arbiterFloorGate s e lone = .ok u ↔
      ((s.votes.get .buyer).isSome ∧ (s.votes.get .seller).isSome →
        s.votes.get .buyer ≠ s.votes.get .seller) ∧
      (¬ ((s.votes.get .buyer).isSome ∧ (s.votes.get .seller).isSome) →
        lone (oneSidedEscalationAt s) = true) := by
  unfold arbiterFloorGate
  cases s.votes.get .buyer <;> cases s.votes.get .seller <;> simp

theorem arbiterVoteGate_iff {role : Role} {u : Unit} : arbiterVoteGate s e role = .ok u ↔
    (role = .arbiter → s.status ≠ .expired → FloorOpen s e.timestamp) := by
  unfold arbiterVoteGate
  split_ifs with h
  · rw [arbiterFloorGate_iff]
    unfold FloorOpen
    simp [h.1, h.2, Option.any_eq_true]
  · simp only [true_iff]
    intro hrole hstatus
    exact absurd ⟨hrole, hstatus⟩ h

theorem FloorOpen.gate (h : FloorOpen s now) : arbiterFloorGate s e Option.isSome = .ok () := by
  rw [arbiterFloorGate_iff]
  refine ⟨h.1, fun hlone => ?_⟩
  obtain ⟨opensAt, hopens, -⟩ := h.2 hlone
  rw [hopens]
  rfl

/-- The author of a REFUND votes in the role it claims: from its seat, or as a backup, who waits for
the assigned arbiter as long as the trade is not expired. -/
theorem voterRole_iff {p : VotePayload} (h : NewRefund s e p) {role : Role} :
    voterRole s e p = .ok role ↔ role = p.role ∧
      ((getRole s e.pubkey).isSome ∨
        (Pooled s ∧ ∃ i, arbiterVotePriority s e.pubkey = .ok (some i))) ∧
      (getRole s e.pubkey = none → s.status ≠ .expired →
        arbiterFloorGate s e Option.isSome = .ok () ∧ GraceOver s e.timestamp) := by
  have hrole := h.role
  unfold voterRole
  cases hseat : getRole s e.pubkey with
  | some r =>
    rw [hseat, Option.getD_some] at hrole
    simp [hrole, eq_comm]
  | none =>
    rw [hseat, Option.getD_none] at hrole
    simp only [substituteGate, bind_eq_ok, guardErr_eq_ok, js_eq_ok, pure_eq_ok, hrole, h.outcome,
      Option.isSome_none, Bool.false_eq_true, false_or, true_implies]
    constructor
    · rintro ⟨_, ⟨_, hpooled, place, hplace, _, hsome, hclock⟩, rfl⟩
      obtain ⟨i, rfl⟩ := Option.ne_none_iff_exists'.mp (by simpa using hsome)
      rw [not_or, not_not, not_not] at hpooled
      refine ⟨rfl, ⟨hpooled.2, i, hplace⟩, fun hlive => ?_⟩
      rw [if_neg hlive] at hclock
      simp only [bind_eq_ok, guardErr_eq_ok] at hclock
      obtain ⟨_, hfloor, hgrace⟩ := hclock
      exact ⟨hfloor, graceOver_iff.mpr hgrace⟩
    · rintro ⟨rfl, ⟨hpooled, i, hplace⟩, hclock⟩
      have hopen : ¬ (Role.arbiter ≠ .arbiter ∨ s.lock.arbiterPoolShare ≠ some true) := by
        rw [not_or, not_not, not_not]
        exact ⟨rfl, hpooled⟩
      refine ⟨(), ⟨(), hopen, some i, hplace, (), by simp, ?_⟩, rfl⟩
      split_ifs with hexpired
      · simp
      · obtain ⟨hfloor, hgrace⟩ := hclock hexpired
        simp only [bind_eq_ok, guardErr_eq_ok]
        exact ⟨(), hfloor, graceOver_iff.mp hgrace⟩

variable {next : EscrowState}

theorem countVote_iff {p : VotePayload} (hp : e.payload = .vote p)
    (hchain : next.eventChain = s.eventChain ++ [e])
    (horder : arbiterPriorityOrder next = arbiterPriorityOrder s) :
    (∃ s', countVote s next e p p.role = .ok s') ↔
      (p.role = .arbiter → Pooled s → ∃ order, arbiterPriorityOrder s = .ok order) := by
  unfold countVote Pooled
  by_cases h : p.role = .arbiter ∧ s.lock.arbiterPoolShare = some true
  · rw [if_pos h]
    simp only [h.1, h.2, true_implies]
    have hmem : (e, p) ∈ voteEvents next.eventChain := by
      rw [mem_voteEvents, hchain]
      exact ⟨List.mem_append_right _ (List.mem_singleton_self e), hp⟩
    constructor
    · rintro ⟨s', hs'⟩
      rw [bind_eq_ok] at hs'
      obtain ⟨best, hbest, -⟩ := hs'
      obtain ⟨order, hread⟩ := order_of_bestArbiterVote hbest hmem h.1
      exact ⟨order, horder ▸ hread⟩
    · rintro ⟨order, hread⟩
      have hbest := bestArbiterVote_eq_argmin (horder.trans hread) (voteEvents next.eventChain) none
      rw [hbest, ok_bind]
      split
      · exact ⟨_, rfl⟩
      · exact ⟨_, rfl⟩
  · rw [if_neg h]
    refine iff_of_true ⟨_, rfl⟩ fun hrole hpool => absurd ⟨hrole, hpool⟩ h

theorem handleVote_iff {p : VotePayload} (h : NewRefund s e p) (hplain : s.chamaPolicy = none)
    (hclone : Clonable s) : (∃ s', handleVote host s e p = .ok s') ↔
      (s.status = .locked ∨ s.status = .expired) ∧ StandsToVote s e.pubkey ∧
        (ActsAsArbiter s e.pubkey → s.status = .expired ∨ HasFloor s e.pubkey e.timestamp) ∧
          OrderRead s e.pubkey := by
  have hpayout : votePayoutError host s e p = none := by
    simp [votePayoutError, atomicReleaseError, h.outcome, h.bare.2]
  have hlaw : chamaOutcomeError host s p.outcome e.timestamp e.chamaCycle (voteJudgment s e)
      p.fillEvidence = none := by
    simp [chamaOutcomeError, hplain]
  have henvelope (role : Role) : voteEnvelopeError s p role = none := by
    simp [voteEnvelopeError, h.bare.1]
  obtain ⟨next, hnext⟩ := hclone.cloneState
  have hcopy := cloneState_isCopy hnext
  have hcount : (∃ s', countVote s (recordVote next e p) e p p.role = .ok s') ↔
      OrderRead s e.pubkey := by
    have hchain : (recordVote next e p).eventChain = s.eventChain ++ [e] := hcopy.push
    have hkeeps : KeepsCustody s (recordVote next e p) :=
      hcopy.keepsCustody.congr rfl rfl rfl rfl rfl rfl
    have horder : arbiterPriorityOrder (recordVote next e p) = arbiterPriorityOrder s :=
      arbiterPriorityOrder_congr hkeeps.core hkeeps.arbiter
    rw [countVote_iff h.payload hchain horder, h.role]
    rfl
  have hfirst : ¬ (s.eventChain.any fun v => v.kind = .vote && v.pubkey = e.pubkey) = true ↔
      ∀ v ∈ s.eventChain, v.kind = .vote → v.pubkey ≠ e.pubkey := by
    simp
  have hrole : p.role = .arbiter ↔ ActsAsArbiter s e.pubkey := by rw [h.role]; rfl
  simp only [handleVote, bind_eq_ok, guardErr_eq_ok, guardNone_eq_ok, js_eq_ok]
  constructor
  · rintro ⟨s', _, -, _, -, _, hheld, _, hstatus, role, hvoter, _, -, _, hnew, _, hclock, _, -,
      next', hnext', hs'⟩
    obtain ⟨rfl, hplace, hwait⟩ := (voterRole_iff h).mp hvoter
    rw [arbiterVoteGate_iff, hrole] at hclock
    obtain rfl := Except.ok.inj (hnext.symm.trans hnext')
    refine ⟨live_or_expired.mp hstatus, ⟨by simpa using hheld, hplace, hfirst.mp hnew⟩, fun hacts => ?_,
      hcount.mp ⟨s', hs'⟩⟩
    by_cases hexpired : s.status = .expired
    · exact Or.inl hexpired
    · exact Or.inr ⟨hclock hacts hexpired, fun hseat => (hwait hseat hexpired).2⟩
  · rintro ⟨hstatus, hstands, hfloor, horder⟩
    obtain ⟨s', hs'⟩ := hcount.mpr horder
    have hopen (hacts : ActsAsArbiter s e.pubkey) (hlive : s.status ≠ .expired) :=
      (hfloor hacts).resolve_left hlive
    have hvoter : voterRole s e p = .ok p.role := by
      refine (voterRole_iff h).mpr ⟨rfl, hstands.place, fun hseat hlive => ?_⟩
      have hacts : ActsAsArbiter s e.pubkey := by
        unfold ActsAsArbiter
        rw [hseat]
        rfl
      exact ⟨(hopen hacts hlive).1.gate, (hopen hacts hlive).2 hseat⟩
    refine ⟨s', (), hpayout, (), hlaw, (), by simp [hstands.released], (),
      live_or_expired.mpr hstatus, p.role, hvoter,
      (), by simp, (), hfirst.mpr hstands.first, (), ?_, (), henvelope _, next, hnext, hs'⟩
    rw [arbiterVoteGate_iff, hrole]
    exact fun hacts hlive => (hopen hacts hlive).1

def expiredCopy (next : EscrowState) : EscrowState := { next with status := .expired }

theorem expiredCopy_stands (clone : IsCopy s next) :
    StandsToVote (expiredCopy next) pubkey ↔ StandsToVote s pubkey := by
  have hkeeps := clone.keepsCustody
  have hseat : getRole (expiredCopy next) pubkey = getRole s pubkey := by
    unfold getRole expiredCopy
    rw [clone.participants]
  have hplace : arbiterVotePriority (expiredCopy next) pubkey = arbiterVotePriority s pubkey :=
    arbiterVotePriority_congr hkeeps.core hkeeps.arbiter pubkey
  have hpool : Pooled (expiredCopy next) ↔ Pooled s := by
    unfold Pooled expiredCopy
    rw [clone.lock]
  have hheld : holdsBackShares (expiredCopy next) = holdsBackShares s := by
    unfold holdsBackShares expiredCopy
    rw [clone.lock]
  have hchain : (expiredCopy next).eventChain = s.eventChain := clone.eventChain
  constructor
  · rintro ⟨hreleased, hplaced, hfirst⟩
    rw [hheld] at hreleased
    rw [hseat, hplace, hpool] at hplaced
    exact ⟨hreleased, hplaced, hchain ▸ hfirst⟩
  · rintro ⟨hreleased, hplaced, hfirst⟩
    refine ⟨hheld.trans hreleased, ?_, hchain.symm ▸ hfirst⟩
    rw [hseat, hplace, hpool]
    exact hplaced

theorem expiredCopy_order (clone : IsCopy s next) :
    OrderRead (expiredCopy next) pubkey ↔ OrderRead s pubkey := by
  have hkeeps : KeepsCustody s (expiredCopy next) :=
    clone.keepsCustody.congr rfl rfl rfl rfl rfl rfl
  have horder : arbiterPriorityOrder (expiredCopy next) = arbiterPriorityOrder s :=
    arbiterPriorityOrder_congr hkeeps.core hkeeps.arbiter
  unfold OrderRead ActsAsArbiter Pooled getRole
  rw [horder]
  unfold expiredCopy
  rw [clone.participants, clone.lock]

theorem NewRefund.expiredCopy {p : VotePayload} (h : NewRefund s e p)
    (clone : IsCopy s next) : NewRefund (expiredCopy next) e p := by
  refine ⟨h.payload, h.outcome, ?_, h.bare, ?_⟩
  · rw [h.role, getRole, getRole, VoteSlots.expiredCopy, clone.participants]
  · rw [← h.fresh, EscrowState.hasEvent, EscrowState.hasEvent, VoteSlots.expiredCopy,
      clone.eventChain]

theorem StandsToVote.carries (h : StandsToVote s pubkey) :
    mayCarryPastExpiry s pubkey = .ok true := by
  unfold mayCarryPastExpiry
  rcases h.place with hseat | ⟨hpooled, i, hplace⟩
  · rw [if_pos hseat]
  · split_ifs with hseat hpool
    · rfl
    · rw [hplace]
      rfl
    · exact absurd hpooled hpool

section Reducer

variable {p : VotePayload}

theorem NewRefund.consensus (h : NewRefund s e p) : e.payload.kind.isConsensus = true := by
  rw [h.payload]
  rfl

theorem NewRefund.lawful (h : NewRefund s e p) (hplain : s.chamaPolicy = none) :
    outcomeLaw host s e = none := by
  rw [outcomeLaw, h.payload]
  simp [chamaOutcomeError, hplain]

theorem NewRefund.kind (h : NewRefund s e p) : e.kind = .vote := by
  rw [ParsedEscrowEvent.kind, h.payload, EscrowPayload.kind]

theorem accepts_late_vote_iff (h : NewRefund s e p) (hplain : s.chamaPolicy = none)
    (hpast : s.expiresAt < e.timestamp) (hstatus : s.status = .created ∨ s.status = .locked) :
    AcceptsEvent host s e ↔ Clonable s ∧ StandsToVote s e.pubkey ∧ OrderRead s e.pubkey := by
  have hlate : ComesLate s e := by
    have hkind := h.kind
    rcases hstatus with hs | hs <;> simp [ComesLate, isPastDeadline, hkind, hpast, hs]
  have hopen : s.status.isTrulyTerminal = false := by rcases hstatus with hs | hs <;> rw [hs] <;> rfl
  have hdispatch {next : EscrowState} (clone : IsCopy s next) :
      (∃ s', dispatch host (expiredCopy next) e = .ok s') ↔
        StandsToVote s e.pubkey ∧ OrderRead s e.pubkey := by
    have hplain' : (expiredCopy next).chamaPolicy = none := by
      rw [← hplain]
      exact congrArg TradeTerms.chamaPolicy clone.terms
    rw [dispatch, h.payload]
    dsimp only
    rw [handleVote_iff (h.expiredCopy clone) hplain' (clone.clonable rfl rfl),
      expiredCopy_stands clone, expiredCopy_order clone]
    simp [expiredCopy]
  unfold AcceptsEvent
  simp only [applyEvent_some, applyToState_consensus h.consensus, h.lawful hplain, applyConsensus,
    h.fresh, Bool.false_eq_true, if_false, bind_eq_ok, guardErr_eq_ok, guardNone_eq_ok, hopen]
  constructor
  · rintro ⟨s', _, -, _, -, due, hdue, hs'⟩
    rcases expiryGate_cases hdue hopen with ⟨-, hready⟩ | ⟨next, hexpires, rfl⟩
    · exact absurd hready (by simp [hlate.1, hlate.2])
    · rw [if_pos (Or.inl h.kind)] at hs'
      obtain ⟨copy, clone, rfl⟩ := hexpires.eq
      obtain ⟨community, bonded, hcommunity, hbonded, -, -⟩ := clone.copied
      exact ⟨⟨⟨community, hcommunity⟩, bonded, hbonded⟩, (hdispatch clone).mp ⟨s', hs'⟩⟩
  · rintro ⟨hclone, hstands, horder⟩
    obtain ⟨next, hnext⟩ := hclone.cloneState
    obtain ⟨s', hs'⟩ := (hdispatch (cloneState_isCopy hnext)).mpr ⟨hstands, horder⟩
    refine ⟨s', (), by simp, (), by simp, _, expiryGate_late hlate (fun _ => hstands.carries) hnext, ?_⟩
    rw [if_pos (Or.inl h.kind)]
    exact hs'

theorem accepts_due_iff (h : NewRefund s e p) (hs : Reached host s) (hplain : s.chamaPolicy = none)
    (hstatus : s.status = .locked ∨ s.status = .expired)
    (hdue : isPastDeadline s e = false ∨ s.status = .expired) :
    AcceptsEvent host s e ↔ StandsToVote s e.pubkey ∧
      (ActsAsArbiter s e.pubkey → s.status = .expired ∨ HasFloor s e.pubkey e.timestamp) ∧
        OrderRead s e.pubkey := by
  have hopen : s.status.isTrulyTerminal = false := by
    rcases hstatus with hs | hs <;> rw [hs] <;> rfl
  have hclone : Clonable s :=
    hs.clonable_of_moved (by rcases hstatus with hs | hs <;> rw [hs] <;> decide)
  unfold AcceptsEvent
  rw [applyEvent_some, applyToState_dispatch h.consensus (h.lawful hplain) h.fresh hopen hdue,
    dispatch, h.payload]
  dsimp only
  rw [handleVote_iff h hplain hclone]
  exact and_iff_right hstatus

theorem status_of_accepts (h : NewRefund s e p) (haccepts : AcceptsEvent host s e) :
    (s.status = .locked ∨ s.status = .expired) ∨
      (s.status = .created ∧ s.expiresAt < e.timestamp) := by
  obtain ⟨s', hs'⟩ := haccepts
  rw [applyEvent_some] at hs'
  have hkind := h.kind
  cases applyToState_stepped hs' with
  | echoed known => simp [h.fresh, hkind] at known
  | premium payload => simp [h.payload] at payload
  | settlement payload => simp [h.payload] at payload
  | expired kind => exact absurd hkind kind.1
  | handled _ _ _ _ handled =>
    rcases handled.votes with ⟨-, hother⟩ | ⟨q, hcast⟩
    · exact absurd hkind hother
    · exact Or.inl hcast.status
  | lateHandled _ _ expires =>
    have hpast := expires.late
    simp only [isPastDeadline, Bool.and_eq_true, decide_eq_true_eq] at hpast
    rcases expires.status with hs | hs
    · exact Or.inr ⟨hs, hpast.1.1.2⟩
    · exact Or.inl (Or.inl hs)

theorem accepts_iff (h : NewRefund s e p) (hs : Reached host s) (hplain : s.chamaPolicy = none) :
    AcceptsEvent host s e ↔
      if s.status = .created then
        s.expiresAt < e.timestamp ∧ Clonable s ∧ StandsToVote s e.pubkey
      else (s.status = .locked ∨ s.status = .expired) ∧ StandsToVote s e.pubkey ∧
        (ActsAsArbiter s e.pubkey → s.status = .expired ∨ s.expiresAt < e.timestamp ∨
          HasFloor s e.pubkey e.timestamp) ∧ OrderRead s e.pubkey := by
  by_cases hlate : s.expiresAt < e.timestamp ∧ (s.status = .created ∨ s.status = .locked)
  · rw [accepts_late_vote_iff h hplain hlate.1 hlate.2]
    rcases hlate.2 with hcreated | hlocked
    · have hread : OrderRead s e.pubkey := fun _ hpooled =>
        absurd hcreated (hs.funded (hs.hasLock_of_pooled hpooled)).not_open
      simp [hcreated, hlate.1, hread]
    · have hclone := hs.clonable_of_moved (by rw [hlocked]; decide)
      simp [hlocked, hlate.1, hclone]
  by_cases hstatus : s.status = .locked ∨ s.status = .expired
  · have hdue : isPastDeadline s e = false ∨ s.status = .expired := by
      refine hstatus.imp_left fun hlocked => ?_
      have hearly : ¬ s.expiresAt < e.timestamp := fun hpast => hlate ⟨hpast, Or.inr hlocked⟩
      simp [isPastDeadline, hearly]
    rw [accepts_due_iff h hs hplain hstatus hdue]
    rcases hstatus with hlocked | hexpired
    · have hearly : ¬ s.expiresAt < e.timestamp := fun hpast => hlate ⟨hpast, Or.inr hlocked⟩
      simp [hlocked, hearly]
    · simp [hexpired]
  · refine iff_of_false (fun haccepts => ?_) fun hyes => ?_
    · rcases status_of_accepts h haccepts with hs | ⟨hcreated, hpast⟩
      · exact hstatus hs
      · exact hlate ⟨hpast, Or.inl hcreated⟩
    · split_ifs at hyes with hcreated
      · exact hlate ⟨hyes.1, Or.inl hcreated⟩
      · exact hstatus hyes.1

end Reducer

/-! ### Where they part -/

/-- The states, keys and times at which `canVote` and the reducer answer differently. -/
inductive Diverges (s : EscrowState) (pubkey : String) (now : JsNumber) : Prop
  -- An open listing past its deadline: the reducer expires it with the vote and counts the vote.
  | unfunded (status : s.status = .created) (late : s.expiresAt < now) (copies : Clonable s)
      (stands : StandsToVote s pubkey)
  -- A deadline that is not positive has passed for the reducer alone.
  | deadline (status : s.status = .locked) (unset : ¬ 0 < s.expiresAt) (late : s.expiresAt < now)
      (stands : StandsToVote s pubkey) (acts : ActsAsArbiter s pubkey)
      (waits : ¬ HasFloor s pubkey now) (order : OrderRead s pubkey)
  -- The arbiter's vote is counted by an order of the pool that throws.
  | pool (status : s.status = .locked ∨ s.status = .expired) (stands : StandsToVote s pubkey)
      (acts : ActsAsArbiter s pubkey) (pooled : Pooled s)
      (unread : ∀ order, arbiterPriorityOrder s ≠ .ok order)
      (floor : SeenPast s now ∨ HasFloor s pubkey now)

/-- On a trade outside circles, `canVote` lets a key vote for the refund exactly when the reducer
accepts its new REFUND at that time, except where the two part. -/
theorem canVote_iff_accepts (host : Host) (s : EscrowState) (hs : Reached host s)
    (hplain : s.chamaPolicy = none) (e : ParsedEscrowEvent) (p : VotePayload) (h : NewRefund s e p)
    (cycle : Option ChamaCycleContext) :
    (canVote host s e.pubkey e.timestamp .refund cycle = .ok none ↔ AcceptsEvent host s e) ↔
      ¬ Diverges s e.pubkey e.timestamp := by
  rw [canVote_iff hplain, accepts_iff h hs hplain]
  constructor
  · rintro hagree (⟨status, late, copies, stands⟩ |
      ⟨status, unset, late, stands, acts, waits, order⟩ |
      ⟨status, stands, acts, pooled, unread, floor⟩)
    · rw [if_pos status, status] at hagree
      simp [late, copies, stands] at hagree
    · rw [if_neg (by rw [status]; decide)] at hagree
      have hyes := hagree.mpr ⟨Or.inl status, stands, fun _ => Or.inr (Or.inl late), order⟩
      rcases hyes.2.2 acts with (hexpired | hpast) | hfloor
      · rw [status] at hexpired
        cases hexpired
      · exact unset hpast.1
      · exact waits hfloor
    · rw [if_neg (by rcases status with h | h <;> rw [h] <;> decide)] at hagree
      obtain ⟨-, -, -, horder⟩ := hagree.mp ⟨status, stands, fun _ => floor⟩
      obtain ⟨order, hread⟩ := horder acts pooled
      exact unread order hread
  · intro hagree
    by_cases hcreated : s.status = .created
    · rw [if_pos hcreated, hcreated]
      refine iff_of_false (by simp) fun ⟨late, copies, stands⟩ => ?_
      exact hagree (.unfunded hcreated late copies stands)
    · rw [if_neg hcreated]
      refine and_congr_right fun hstatus => and_congr_right fun hstands => ?_
      constructor
      · intro hfloor
        refine ⟨fun hacts => ?_, fun hacts hpooled => ?_⟩
        · rcases hfloor hacts with (hexpired | hpast) | hfloor
          · exact Or.inl hexpired
          · exact Or.inr (Or.inl hpast.2)
          · exact Or.inr (Or.inr hfloor)
        · by_contra hunread
          exact hagree (.pool hstatus hstands hacts hpooled (not_exists.mp hunread) (hfloor hacts))
      · rintro ⟨hfloor, horder⟩ hacts
        by_contra hwaits
        rw [not_or] at hwaits
        rcases hfloor hacts with hexpired | hlate | hfloor
        · exact hwaits.1 (Or.inl hexpired)
        · have hlocked : s.status = .locked :=
            hstatus.resolve_right fun h => hwaits.1 (Or.inl h)
          exact hagree (.deadline hlocked (fun hpos => hwaits.1 (Or.inr ⟨hpos, hlate⟩)) hlate hstands
            hacts hwaits.2 horder)
        · exact hwaits.2 hfloor

/-! ### The buyer of the sample trade -/

def buyerRefund (time : ℕ) : ParsedEscrowEvent :=
  ChamaEscrow.sampleVote '3' 'b' time .buyer .refund

/-- Whether `canVote` and the reducer answer the buyer's REFUND as expected. -/
def answers (s : EscrowState) (time : ℕ) (yes accepted : Bool) : Bool :=
  s.chamaPolicy.isNone && getRole s (hexKey 'b') = some .buyer &&
    !s.hasEvent (hexKey '3') &&
      (canVote silentHost s (hexKey 'b') (.ofInt time) .refund none = .ok none) = yes &&
        (applyToState silentHost s (buyerRefund time)).isOk = accepted

theorem newRefund_of_answers {time : ℕ} {yes accepted : Bool}
    (h : answers s time yes accepted = true) :
    s.chamaPolicy = none ∧ ∃ p, NewRefund s (buyerRefund time) p := by
  simp only [answers, Bool.and_eq_true, decide_eq_true_eq, Option.isNone_iff_eq_none,
    Bool.not_eq_true'] at h
  obtain ⟨⟨⟨⟨hplain, hseat⟩, hfresh⟩, -⟩, -⟩ := h
  have hkey : (buyerRefund time).pubkey = hexKey 'b' := rfl
  exact ⟨hplain, _, rfl, rfl, by rw [hkey, hseat]; rfl, ⟨rfl, rfl⟩, hfresh⟩

theorem accepts_of_answers {time : ℕ} {yes accepted : Bool}
    (h : answers s time yes accepted = true) :
    (canVote silentHost s (buyerRefund time).pubkey (buyerRefund time).timestamp .refund none =
      .ok none ↔ yes = true) ∧ (AcceptsEvent silentHost s (buyerRefund time) ↔ accepted = true) := by
  simp only [answers, Bool.and_eq_true, decide_eq_true_eq] at h
  obtain ⟨⟨-, hyes⟩, haccepted⟩ := h
  refine ⟨by rw [← hyes]; rfl, ?_⟩
  rw [← haccepted]
  unfold AcceptsEvent
  rw [applyEvent_some]
  cases applyToState silentHost s (buyerRefund time) <;> simp [Except.isOk, Except.toBool]

/-- A joined listing that nobody funded runs out of time.  `canVote` keeps the buyer from voting, and
the reducer would count the vote. -/
theorem unfunded_vote_counts : ∃ s e p, Reached silentHost s ∧ s.chamaPolicy = none ∧
    NewRefund s e p ∧ canVote silentHost s e.pubkey e.timestamp .refund none ≠ .ok none ∧
      AcceptsEvent silentHost s e := by
  have hrun : (liveTrade silentHost sampleCreate [sampleJoin]).any (fun s =>
      answers s 1800004000 false true) = true := by
    decide +kernel
  obtain ⟨s, hs, h⟩ := (Option.any_eq_true _ _).mp hrun
  obtain ⟨hplain, p, hnew⟩ := newRefund_of_answers h
  obtain ⟨hno, haccepts⟩ := accepts_of_answers h
  exact ⟨s, _, p, liveTrade_reached silentHost hs, hplain, hnew,
    fun hyes => Bool.false_ne_true (hno.mp hyes), haccepts.mpr rfl⟩

/-- On the funded sample trade the buyer may vote, and the vote counts. -/
theorem canVote_iff_accepts_sample : ∃ s, Reached silentHost s ∧
    ¬ Diverges s (buyerRefund 1800000030).pubkey (buyerRefund 1800000030).timestamp := by
  have hrun : (liveTrade silentHost sampleCreate [sampleJoin, sampleLock]).any (fun s =>
      answers s 1800000030 true true) = true := by
    decide +kernel
  obtain ⟨s, hs, h⟩ := (Option.any_eq_true _ _).mp hrun
  obtain ⟨hplain, p, hnew⟩ := newRefund_of_answers h
  obtain ⟨hyes, haccepts⟩ := accepts_of_answers h
  have hreached := liveTrade_reached silentHost hs
  exact ⟨s, hreached, (canVote_iff_accepts silentHost s hreached hplain _ p hnew none).mp
    (iff_of_true (hyes.mpr rfl) (haccepts.mpr rfl))⟩

end ChamaEscrow.VoteSlots
