import ChamaEscrow.Trade.Custody

/-!
# Votes and outcomes

A vote is held per role but cast by a key, and the arbiter's may be cast by a backup.  `VotesBacked`
ties the vote table to the chain: every entry of the table is a VOTE of the chain whose author fills
the role, and no key has two of them.

* `resolved_by_two`: a resolved outcome rests on two votes of two keys in two roles, is never
  replaced, and pays the recipient that the engine computes for it.
-/

namespace ChamaEscrow

open Js Library

variable {host : Host} {s s' : EscrowState} {e : ParsedEscrowEvent}

/-! ### Filling a role -/

/-- A key fills a role: it sits in the seat, or it stands in the committed order of a pooled
LOCK. -/
def Fills (s : EscrowState) (role : Role) (pubkey : String) : Prop :=
  s.participants.get role = some pubkey ∨
    role = .arbiter ∧ s.lock.arbiterPoolShare = some true ∧
      ∃ place, arbiterVotePriority s pubkey = .ok (some place)

theorem arbiterPriorityOrder_congr (hcore : s'.core = s.core)
    (harbiter : s'.participants.arbiter = s.participants.arbiter) :
    arbiterPriorityOrder s' = arbiterPriorityOrder s := by
  have hid : s'.id = s.id := congrArg (fun c => c.terms.id) hcore
  have hpool : s'.communityArbiters.spread = s.communityArbiters.spread :=
    congrArg CustodyCore.pool hcore
  have hbuyer : s'.participants.buyer = s.participants.buyer := congrArg CustodyCore.buyer hcore
  have hseller : s'.participants.seller = s.participants.seller :=
    congrArg CustodyCore.seller hcore
  unfold arbiterPriorityOrder arbiterPriorityOrderFor
  rw [hid, hpool, hbuyer, hseller, harbiter]

theorem arbiterVotePriority_congr (hcore : s'.core = s.core)
    (harbiter : s'.participants.arbiter = s.participants.arbiter) (pubkey : String) :
    arbiterVotePriority s' pubkey = arbiterVotePriority s pubkey := by
  unfold arbiterVotePriority
  rw [arbiterPriorityOrder_congr hcore harbiter]

variable {role : Role}

theorem Fills.congr {pubkey : String} (h : Fills s role pubkey)
    (hcore : s'.core = s.core) (harbiter : s'.participants.arbiter = s.participants.arbiter) :
    Fills s' role pubkey := by
  rcases h with hseat | ⟨hrole, hpooled, place, hplace⟩
  · left
    cases role with
    | buyer => exact (congrArg CustodyCore.buyer hcore).trans hseat
    | seller => exact (congrArg CustodyCore.seller hcore).trans hseat
    | arbiter => exact harbiter.trans hseat
  · refine Or.inr ⟨hrole, ?_, place, ?_⟩
    · exact (congrArg CustodyCore.arbiterPoolShare hcore).trans hpooled
    · rw [arbiterVotePriority_congr hcore harbiter, hplace]

theorem Reached.hasLock_of_pooled (h : Reached host s)
    (hpooled : s.lock.arbiterPoolShare = some true) : s.hasLock = true := by
  by_contra hlock
  rw [h.lock_of_unfunded (by simpa using hlock)] at hpooled
  cases hpooled

theorem Fills.step {pubkey : String} (h : Fills s role pubkey)
    (hs : Reached host s) (hkey : pubkey ≠ "") (hopen : s.status ≠ .created)
    (hstep : Stepped host s e s') : Fills s' role pubkey := by
  have hcore := hstep.pastOpen_core hopen
  cases hstep.pastOpen hopen with
  | keeps hkeeps => exact h.congr hcore hkeeps.arbiter
  | release hrelease => exact h.congr hcore hrelease.arbiter
  | plan hplan =>
    -- A plan may seat an arbiter, but only where none was seated and nobody could stand in.
    rcases h with hseat | ⟨hrole, hpooled, hplace⟩
    · cases role with
      | buyer => exact Or.inl ((congrArg CustodyCore.buyer hcore).trans hseat)
      | seller => exact Or.inl ((congrArg CustodyCore.seller hcore).trans hseat)
      | arbiter =>
        obtain ⟨p, -, hgate, hnext⟩ := hplan.payload
        have htruthy : truthyKey s.participants.arbiter = some pubkey := by
          rw [show s.participants.arbiter = some pubkey from hseat]
          exact truthyKey_some hkey
        exact Or.inl (hnext.trans (congrArg some (planArbiterGate_seated hgate htruthy)))
    · have hfunded := hs.funded (hs.hasLock_of_pooled hpooled)
      have harbiter := congrArg PerRole.arbiter (hfunded.seats.step hopen hstep)
      exact Fills.congr (Or.inr ⟨hrole, hpooled, hplace⟩) hcore harbiter

/-! ### Casting a vote -/

/-- The vote table and the acting arbiter are kept. -/
structure SameVotes (s s' : EscrowState) : Prop where
  votes : s'.votes = s.votes
  acting : s'.actingArbiter = s.actingArbiter

/-- A counted vote: `live` is the state its handler was given. -/
structure CastsVote (live : EscrowState) (e : ParsedEscrowEvent) (p : VotePayload)
    (s' : EscrowState) : Prop where
  payload : e.payload = .vote p
  status : live.status = .locked ∨ live.status = .expired
  after : s'.status = live.status
  role : voterRole live e p = .ok p.role
  fresh : ∀ v ∈ live.eventChain, v.kind = .vote → v.pubkey ≠ e.pubkey
  keeps : KeepsCustody live s'
  chain : s'.eventChain = live.eventChain ++ [e]
  count : ∃ next, KeepsCustody live next ∧ SameVotes live next ∧
    next.eventChain = live.eventChain ++ [e] ∧ countVote live next e p p.role = .ok s'

theorem Handled.votes (h : Handled host s e s') :
    (SameVotes s s' ∧ e.kind ≠ .vote) ∨ ∃ p, CastsVote s e p s' := by
  have other {payload : EscrowPayload} (hp : e.payload = payload)
      (hkind : payload.kind ≠ .vote) : e.kind ≠ .vote := by
    rwa [ParsedEscrowEvent.kind, hp]
  cases h
  case planRepeated payload _ _ =>
    exact Or.inl ⟨⟨rfl, rfl⟩, other payload (by simp [EscrowPayload.kind])⟩
  case voted p next payload status role fresh clone count =>
    have hrecord : KeepsCustody s (recordVote next e p) :=
      clone.keepsCustody.congr rfl rfl rfl rfl rfl rfl
    obtain ⟨votes, acting, hs'⟩ := countVote_eq_ok count
    refine Or.inr ⟨p, payload, status, ?_, role, fresh, ?_, ?_, _, hrecord,
      ⟨clone.votes, clone.actingArbiter⟩, clone.push, count⟩
    · rw [hs']
      exact clone.status
    · rw [hs']
      exact hrecord.congr rfl rfl rfl rfl rfl rfl
    · rw [hs']
      exact clone.push
  case stalled payload _ _ clone =>
    exact Or.inl ⟨⟨clone.votes, clone.actingArbiter⟩, other payload (by simp [EscrowPayload.kind])⟩
  all_goals
    rename_i clone
    exact Or.inl ⟨⟨clone.votes, clone.actingArbiter⟩,
      other (by assumption) (by simp [EscrowPayload.kind])⟩

theorem Expires.sameVotes {next : EscrowState} (h : Expires s e next) : SameVotes s next := by
  obtain ⟨copy, clone, rfl⟩ := h.eq
  exact ⟨clone.votes, clone.actingArbiter⟩

theorem Stepped.votes (h : Stepped host s e s') :
    (SameVotes s s' ∧ (e.kind = .vote → s'.eventChain = s.eventChain)) ∨
      ∃ live p, KeepsCustody s live ∧ SameVotes s live ∧ live.eventChain = s.eventChain ∧
        CastsVote live e p s' := by
  cases h with
  | echoed => exact Or.inl ⟨⟨rfl, rfl⟩, fun _ => rfl⟩
  | premium _ _ clone => exact Or.inl ⟨⟨clone.votes, clone.actingArbiter⟩, fun _ =>
      clone.eventChain⟩
  | settlement _ _ clone =>
    exact Or.inl ⟨⟨clone.votes, clone.actingArbiter⟩, fun _ => clone.eventChain⟩
  | expired _ expires => exact Or.inl ⟨expires.sameVotes, fun _ => expires.eventChain⟩
  | handled _ _ _ _ handled =>
    rcases handled.votes with ⟨hsame, hkind⟩ | ⟨p, hcast⟩
    · exact Or.inl ⟨hsame, fun h => absurd h hkind⟩
    · exact Or.inr ⟨s, p, ⟨rfl, rfl, rfl, rfl, rfl, rfl⟩, ⟨rfl, rfl⟩, rfl, hcast⟩
  | @lateHandled live _ _ _ expires handled =>
    rcases handled.votes with ⟨hsame, hkind⟩ | ⟨p, hcast⟩
    · have hexpired := expires.sameVotes
      exact Or.inl ⟨⟨hsame.votes.trans hexpired.votes, hsame.acting.trans hexpired.acting⟩,
        fun h => absurd h hkind⟩
    · exact Or.inr ⟨live, p, expires.keepsCustody, expires.sameVotes, expires.eventChain, hcast⟩

theorem voterRole_fills {p : VotePayload} (h : voterRole s e p = .ok role) :
    Fills s role e.pubkey := by
  unfold voterRole at h
  split at h
  · rename_i r hrole
    obtain rfl := Except.ok.inj h
    exact Or.inl (getRole_eq_some hrole)
  · simp only [substituteGate, bind_eq_ok, guardErr_eq_ok, js_eq_ok, pure_eq_ok] at h
    obtain ⟨-, ⟨-, hpooled, place, hplace, -, hsome, -⟩, rfl⟩ := h
    rw [not_or, not_not, not_not] at hpooled
    rw [Option.isNone_iff_eq_none] at hsome
    obtain ⟨place, rfl⟩ := Option.ne_none_iff_exists'.mp hsome
    exact Or.inr ⟨rfl, hpooled.2, place, hplace⟩

theorem bestArbiterVote_mem {votes : List (ParsedEscrowEvent × VotePayload)}
    {best₀ : Option ArbiterVote} {best : ArbiterVote}
    (h : bestArbiterVote s votes best₀ = .ok (some best)) :
    best₀ = some best ∨ ∃ v q, (v, q) ∈ votes ∧ q.role = .arbiter ∧ q.outcome = best.outcome ∧
      arbiterVotePriority s v.pubkey = .ok (some best.priority) := by
  induction votes generalizing best₀ with
  | nil =>
    rw [bestArbiterVote, Except.ok.injEq] at h
    exact Or.inl h
  | cons vote rest ih =>
    obtain ⟨v, q⟩ := vote
    have later {best₁ : Option ArbiterVote} (h : bestArbiterVote s rest best₁ = .ok (some best)) :
        best₁ = some best ∨ ∃ w r, (w, r) ∈ (v, q) :: rest ∧ r.role = .arbiter ∧
          r.outcome = best.outcome ∧
          arbiterVotePriority s w.pubkey = .ok (some best.priority) := by
      refine (ih h).imp id ?_
      rintro ⟨w, r, hmem, hw⟩
      exact ⟨w, r, List.mem_cons_of_mem _ hmem, hw⟩
    rw [bestArbiterVote] at h
    split_ifs at h with hrole
    · exact later h
    · rw [bind_eq_ok] at h
      obtain ⟨place, hplace, h⟩ := h
      split at h
      · exact later h
      · rename_i priority
        split_ifs at h with hbetter
        · rcases later h with hbest | hlater
          · obtain rfl := Option.some.inj hbest
            exact Or.inr ⟨v, q, List.mem_cons_self, not_not.mp hrole, rfl, hplace⟩
          · exact Or.inr hlater
        · exact later h

variable {v : ParsedEscrowEvent}

theorem mem_voteEvents {chain : List ParsedEscrowEvent} {q : VotePayload} :
    (v, q) ∈ voteEvents chain ↔ v ∈ chain ∧ v.payload = .vote q := by
  unfold voteEvents
  rw [List.mem_filterMap]
  constructor
  · rintro ⟨w, hw, h⟩
    split at h
    · rename_i r hr
      rw [Option.some.injEq, Prod.mk.injEq] at h
      obtain ⟨rfl, rfl⟩ := h
      exact ⟨hw, hr⟩
    · cases h
  · rintro ⟨hv, hq⟩
    refine ⟨v, hv, ?_⟩
    rw [hq]

/-! ### The vote table -/

def BackedBy (s : EscrowState) (role : Role) (o : Outcome) (v : ParsedEscrowEvent) : Prop :=
  v ∈ s.eventChain ∧ Fills s role v.pubkey ∧
    ∃ q, v.payload = .vote q ∧ q.role = role ∧ q.outcome = o

/-- The vote table and the chain agree. -/
structure VotesBacked (s : EscrowState) : Prop where
  opened : s.status = .created → s.votes = .empty
  once : ∀ v ∈ s.eventChain, ∀ w ∈ s.eventChain, v.kind = .vote → w.kind = .vote →
    v.pubkey = w.pubkey → v = w
  backed : ∀ role o, s.votes.get role = some o → ∃ v, BackedBy s role o v

variable {o : Outcome}

theorem CastsVote.backed {live : EscrowState} {p : VotePayload} (h : CastsVote live e p s')
    (hvote : s'.votes.get role = some o) :
    live.votes.get role = some o ∨ ∃ v, BackedBy s' role o v := by
  obtain ⟨next, hkeeps, hvotes, hchain, hcount⟩ := h.count
  have hcore := h.keeps.core.trans hkeeps.core.symm
  have harbiter := h.keeps.arbiter.trans hkeeps.arbiter.symm
  unfold countVote at hcount
  by_cases hpooled : p.role = .arbiter ∧ live.lock.arbiterPoolShare = some true
  · rw [if_pos hpooled, bind_eq_ok] at hcount
    obtain ⟨best, hbest, hcount⟩ := hcount
    split at hcount
    · obtain rfl := pure_eq_ok.mp hcount
      rw [hvotes.votes] at hvote
      exact Or.inl hvote
    · rename_i best
      obtain rfl := pure_eq_ok.mp hcount
      rw [OrderedMap.get_set] at hvote
      split_ifs at hvote with hrole
      · subst hrole
        obtain rfl := Option.some.inj hvote
        rcases bestArbiterVote_mem hbest with hnone | ⟨v, q, hmem, hq, ho, hplace⟩
        · cases hnone
        · obtain ⟨hv, hpayload⟩ := mem_voteEvents.mp hmem
          have hpool : next.lock.arbiterPoolShare = some true :=
            (congrArg CustodyCore.arbiterPoolShare hkeeps.core).trans hpooled.2
          exact Or.inr ⟨v, hv, Or.inr ⟨rfl, hpool, best.priority, hplace⟩, q, hpayload, hq, ho⟩
      · rw [hvotes.votes] at hvote
        exact Or.inl hvote
  · rw [if_neg hpooled] at hcount
    obtain rfl := pure_eq_ok.mp hcount
    rw [OrderedMap.get_set] at hvote
    split_ifs at hvote with hrole
    · subst hrole
      obtain rfl := Option.some.inj hvote
      have hfills := (voterRole_fills h.role).congr h.keeps.core h.keeps.arbiter
      refine Or.inr ⟨e, ?_, hfills, p, h.payload, rfl, rfl⟩
      rw [h.chain]
      exact List.mem_append_right _ (List.mem_singleton_self e)
    · rw [hvotes.votes] at hvote
      exact Or.inl hvote

theorem VotesBacked.once_step (hs : VotesBacked s) (h : Stepped host s e s') :
    ∀ v ∈ s'.eventChain, ∀ w ∈ s'.eventChain, v.kind = .vote → w.kind = .vote →
      v.pubkey = w.pubkey → v = w := by
  rcases h.eventChain with hsame | hpush
  · rw [hsame]
    exact hs.once
  · have hfresh : e.kind = .vote → ∀ v ∈ s.eventChain, v.kind = .vote → v.pubkey ≠ e.pubkey := by
      intro hkind
      rcases h.votes with ⟨-, hchain⟩ | ⟨live, p, -, -, hchain, hcast⟩
      · rw [hchain hkind] at hpush
        simp at hpush
      · rw [← hchain]
        exact hcast.fresh
    intro v hv w hw hvkind hwkind hkeys
    rw [hpush, List.mem_append, List.mem_singleton] at hv hw
    rcases hv with hv | rfl <;> rcases hw with hw | rfl
    · exact hs.once v hv w hw hvkind hwkind hkeys
    · exact absurd hkeys (hfresh hwkind v hv hvkind)
    · exact absurd hkeys.symm (hfresh hvkind w hw hwkind)
    · rfl

theorem BackedBy.step (h : BackedBy s role o v) (hs : Reached host s) (hopen : s.status ≠ .created)
    (hstep : Stepped host s e s') : BackedBy s' role o v :=
  ⟨hstep.mem h.1, h.2.1.step hs v.raw.pubkey_ne hopen hstep, h.2.2⟩

theorem VotesBacked.step (hs : VotesBacked s) (hreached : Reached host s)
    (h : Stepped host s e s') : VotesBacked s' := by
  refine ⟨fun hcreated => ?_, hs.once_step h, fun role o hvote => ?_⟩
  · have hbefore : s.status = .created := by
      by_contra hopen
      exact h.not_open hopen hcreated
    rcases h.votes with ⟨hsame, -⟩ | ⟨live, p, -, -, -, hcast⟩
    · exact hsame.votes.trans (hs.opened hbefore)
    · have hstatus := hcast.status
      rw [← hcast.after, hcreated] at hstatus
      rcases hstatus with h | h <;> cases h
  · have earlier {role : Role} {o : Outcome} (hvote : s.votes.get role = some o) :
        ∃ v, BackedBy s' role o v := by
      by_cases hopen : s.status = .created
      · rw [hs.opened hopen, OrderedMap.get_empty] at hvote
        cases hvote
      · obtain ⟨v, hv⟩ := hs.backed role o hvote
        exact ⟨v, hv.step hreached hopen h⟩
    rcases h.votes with ⟨hsame, -⟩ | ⟨live, p, -, hlive, -, hcast⟩
    · exact earlier (hsame.votes ▸ hvote)
    · rcases hcast.backed hvote with hbefore | hbacked
      · exact earlier (hlive.votes ▸ hbefore)
      · exact hbacked

theorem Newborn.votesBacked {p : CreatePayload} (h : Newborn e p s) : VotesBacked s := by
  refine ⟨fun _ => h.votes, ?_, fun role o hvote => ?_⟩
  · rw [h.eventChain]
    intro v hv w hw
    rw [List.mem_singleton] at hv hw
    simp [hv, hw]
  · rw [h.votes, OrderedMap.get_empty] at hvote
    cases hvote

theorem Reached.votesBacked (h : Reached host s) : VotesBacked s := by
  refine Run.strengthen (I := VotesBacked) (J := Reached host) (fun s h => h) (fun s hs => ?_)
    (fun s e s' _ hreached hs h => hs.step hreached (applyToState_stepped h)) h
  obtain ⟨e, p, hborn⟩ := hs.newborn
  exact hborn.votesBacked

/-! ### The threshold -/

variable {votes : Votes}

theorem mem_votersFor : role ∈ votersFor votes o ↔ votes.get role = some o := by
  rw [OrderedMap.get_eq_some_iff, votersFor, List.mem_map]
  constructor
  · rintro ⟨⟨r, o'⟩, hmem, rfl⟩
    rw [List.mem_filter, decide_eq_true_eq] at hmem
    obtain ⟨hentry, rfl⟩ := hmem
    exact hentry
  · intro hentry
    exact ⟨(role, o), List.mem_filter.mpr ⟨hentry, by simp⟩, rfl⟩

theorem nodup_votersFor (votes : Votes) (o : Outcome) : (votersFor votes o).Nodup :=
  List.Nodup.sublist (List.filter_sublist.map _) votes.nodup

theorem two_voters (h : 2 ≤ (votersFor votes o).length) :
    ∃ role role', role ≠ role' ∧ votes.get role = some o ∧ votes.get role' = some o := by
  have hnodup := nodup_votersFor votes o
  match hvoters : votersFor votes o with
  | [] => simp [hvoters] at h
  | [_] => simp [hvoters] at h
  | role :: role' :: rest =>
    rw [hvoters, List.nodup_cons] at hnodup
    refine ⟨role, role', ?_, mem_votersFor.mp ?_, mem_votersFor.mp ?_⟩
    · rintro rfl
      exact hnodup.1 List.mem_cons_self
    · simp [hvoters]
    · simp [hvoters]

theorem resolveError_two_voters {p : ResolvePayload} (h : resolveError votes p = none) :
    ∃ role role', role ≠ role' ∧ votes.get role = some p.outcome ∧
      votes.get role' = some p.outcome := by
  unfold resolveError at h
  split at h
  · cases h
  · rename_i threshold hthreshold
    split_ifs at h with houtcome
    rw [not_not] at houtcome
    rw [← houtcome]
    unfold checkVoteThreshold at hthreshold
    split_ifs at hthreshold with hrelease hrefund
    · obtain rfl := Option.some.inj hthreshold
      exact two_voters hrelease
    · obtain rfl := Option.some.inj hthreshold
      exact two_voters hrefund

/-! ### Outcomes -/

def BackedByTwo (s : EscrowState) (o : Outcome) : Prop :=
  ∃ v w role role', v.pubkey ≠ w.pubkey ∧ role ≠ role' ∧ BackedBy s role o v ∧
    BackedBy s role' o w

theorem VotesBacked.two (hs : VotesBacked s) {p : ResolvePayload}
    (h : resolveError s.votes p = none) : BackedByTwo s p.outcome := by
  obtain ⟨role, role', hroles, hrole, hrole'⟩ := resolveError_two_voters h
  obtain ⟨v, hv⟩ := hs.backed role _ hrole
  obtain ⟨w, hw⟩ := hs.backed role' _ hrole'
  refine ⟨v, w, role, role', fun hkeys => hroles ?_, hroles, hv, hw⟩
  obtain ⟨hvmem, -, q, hq, rfl, -⟩ := hv
  obtain ⟨hwmem, -, r, hr, rfl, -⟩ := hw
  have hkind {u : ParsedEscrowEvent} {q : VotePayload} (hu : u.payload = .vote q) :
      u.kind = .vote := by rw [ParsedEscrowEvent.kind, hu, EscrowPayload.kind]
  obtain rfl := hs.once v hvmem w hwmem (hkind hq) (hkind hr) hkeys
  rw [hq, EscrowPayload.vote.injEq] at hr
  rw [hr]

theorem payoutRecipientFor_congr (hcore : s'.core = s.core) (o : Outcome) :
    payoutRecipientFor s' o = payoutRecipientFor s o := by
  have hpolicy : s'.chamaPolicy = s.chamaPolicy := congrArg (fun c => c.terms.chamaPolicy) hcore
  have hcategory : s'.category = s.category := congrArg (fun c => c.terms.category) hcore
  have hbuyer : s'.participants.buyer = s.participants.buyer := congrArg CustodyCore.buyer hcore
  have hseller : s'.participants.seller = s.participants.seller :=
    congrArg CustodyCore.seller hcore
  have hrole : payoutRole s' o = payoutRole s o := by
    unfold payoutRole buyerFunds
    rw [hpolicy, hcategory]
  have hseat : s'.participants.get (payoutRole s o) = s.participants.get (payoutRole s o) := by
    unfold payoutRole
    cases o <;> dsimp only <;> split_ifs <;> assumption
  unfold payoutRecipientFor
  rw [hpolicy, hrole, hseat]

/-- What a resolved outcome rests on, and whom it pays. -/
structure OutcomeBacked (s : EscrowState) : Prop where
  settled : s.resolvedOutcome.isSome → s.status.isSettling = true
  backed : ∀ o, s.resolvedOutcome = some o → BackedByTwo s o
  claimed : ∀ v ∈ s.eventChain, v.kind = .claim → ∃ o, s.resolvedOutcome = some o ∧
    ∃ role, payoutRecipientFor s o = some (v.pubkey, role)

/-- The one step that writes the outcome. -/
structure Resolves (s : EscrowState) (e : ParsedEscrowEvent) (s' : EscrowState) : Prop where
  status : s.status = .locked ∨ s.status = .expired
  after : s'.status = .approved
  outcome : ∃ p, e.payload = .resolve p ∧ resolveError s.votes p = none ∧
    s'.resolvedOutcome = some p.outcome

theorem Handled.resolvedOutcome (h : Handled host s e s') :
    s'.resolvedOutcome = s.resolvedOutcome ∨ Resolves s e s' := by
  cases h
  case planRepeated => exact Or.inl rfl
  case resolved payload _ status votes _ =>
    exact Or.inr ⟨status, rfl, _, payload, votes, rfl⟩
  case voted clone count =>
    obtain ⟨votes, acting, rfl⟩ := countVote_eq_ok count
    exact Or.inl clone.resolvedOutcome
  case stalled clone => exact Or.inl clone.resolvedOutcome
  all_goals
    rename_i clone
    exact Or.inl clone.resolvedOutcome

theorem Stepped.resolvedOutcome (h : Stepped host s e s') :
    s'.resolvedOutcome = s.resolvedOutcome ∨ Resolves s e s' := by
  have expired {next : EscrowState} (expires : Expires s e next) :
      next.resolvedOutcome = s.resolvedOutcome := by
    obtain ⟨copy, clone, rfl⟩ := expires.eq
    exact clone.resolvedOutcome
  cases h with
  | echoed => exact Or.inl rfl
  | premium _ _ clone => exact Or.inl clone.resolvedOutcome
  | settlement _ _ clone => exact Or.inl clone.resolvedOutcome
  | expired _ expires => exact Or.inl (expired expires)
  | handled _ _ _ _ handled => exact handled.resolvedOutcome
  | lateHandled _ kind expires handled =>
    rcases handled.resolvedOutcome with hsame | hresolves
    · exact Or.inl (hsame.trans (expired expires))
    · obtain ⟨p, hp, -⟩ := hresolves.outcome
      simp [ParsedEscrowEvent.kind, hp, EscrowPayload.kind] at kind

theorem Handled.claim_payee (h : Handled host s e s') (hkind : e.kind = .claim) :
    ∃ o, s.resolvedOutcome = some o ∧ ∃ role, payoutRecipientFor s o = some (e.pubkey, role) := by
  cases h
  case claimed p outcome winner winnerRole next payload _ outcomeSet payee author clone =>
    refine ⟨outcome, outcomeSet, winnerRole, ?_⟩
    rw [payee]
    unfold payoutRecipientFor at payee
    split_ifs at payee
    rw [Option.map_eq_some_iff] at payee
    obtain ⟨key, hkey, hpair⟩ := payee
    rw [Prod.mk.injEq] at hpair
    obtain ⟨rfl, rfl⟩ := hpair
    have hseat := (truthyKey_eq_some hkey).1
    rw [getRole_eq_some author, Option.some.injEq] at hseat
    rw [hseat]
  all_goals simp_all [ParsedEscrowEvent.kind, EscrowPayload.kind]

theorem OutcomeBacked.settled_step (hs : OutcomeBacked s) (h : Stepped host s e s')
    (hsome : s'.resolvedOutcome.isSome) : s'.status.isSettling = true := by
  rcases h.resolvedOutcome with hsame | hresolves
  · have hbefore := hs.settled (hsame ▸ hsome)
    rcases h.moves.published with hstatus | hmoves
    · rwa [hstatus]
    · exact hmoves.isSettling hbefore
  · rw [hresolves.after]
    rfl

theorem not_open_of_isSettling (h : s.status.isSettling = true) : s.status ≠ .created := by
  intro hcreated
  rw [hcreated] at h
  cases h

theorem OutcomeBacked.step (hs : OutcomeBacked s) (hreached : Reached host s)
    (h : Stepped host s e s') : OutcomeBacked s' := by
  refine ⟨hs.settled_step h, fun o ho => ?_, fun v hv hkind => ?_⟩
  · rcases h.resolvedOutcome with hsame | hresolves
    · rw [hsame] at ho
      have hopen := not_open_of_isSettling (hs.settled (by rw [ho]; rfl))
      obtain ⟨v, w, role, role', hkeys, hroles, hv, hw⟩ := hs.backed o ho
      exact ⟨v, w, role, role', hkeys, hroles, hv.step hreached hopen h, hw.step hreached hopen h⟩
    · obtain ⟨p, -, hvotes, houtcome⟩ := hresolves.outcome
      have hopen : s.status ≠ .created := by
        rcases hresolves.status with h | h <;> rw [h] <;> decide
      obtain ⟨v, w, role, role', hkeys, hroles, hv, hw⟩ := hreached.votesBacked.two hvotes
      rw [houtcome, Option.some.injEq] at ho
      subst ho
      exact ⟨v, w, role, role', hkeys, hroles, hv.step hreached hopen h, hw.step hreached hopen h⟩
  · have paid (o : Outcome) (ho : s.resolvedOutcome = some o)
        (hpaid : ∃ role, payoutRecipientFor s o = some (v.pubkey, role)) :
        ∃ o, s'.resolvedOutcome = some o ∧
          ∃ role, payoutRecipientFor s' o = some (v.pubkey, role) := by
      have hsettled := hs.settled (by rw [ho]; rfl)
      have hcore := h.pastOpen_core (not_open_of_isSettling hsettled)
      refine ⟨o, ?_, ?_⟩
      · rcases h.resolvedOutcome with hsame | hresolves
        · rw [hsame, ho]
        · rcases hresolves.status with h | h <;> rw [h] at hsettled <;> cases hsettled
      · rwa [payoutRecipientFor_congr hcore]
    by_cases hmem : v ∈ s.eventChain
    · obtain ⟨o, ho, hpaid⟩ := hs.claimed v hmem hkind
      exact paid o ho hpaid
    · obtain ⟨rfl, -, -, hhandled⟩ := h.of_new hv hmem (by simp [hkind])
      obtain ⟨o, ho, hpaid⟩ := hhandled.claim_payee hkind
      exact paid o ho hpaid

theorem Newborn.outcomeBacked {p : CreatePayload} (h : Newborn e p s) : OutcomeBacked s := by
  refine ⟨fun hsome => ?_, fun o ho => ?_, fun v hv hkind => ?_⟩
  · rw [h.resolvedOutcome] at hsome
    cases hsome
  · rw [h.resolvedOutcome] at ho
    cases ho
  · rw [h.eventChain, List.mem_singleton] at hv
    rw [hv, ParsedEscrowEvent.kind, h.payload] at hkind
    cases hkind

theorem Reached.outcomeBacked (h : Reached host s) : OutcomeBacked s := by
  refine Run.strengthen (I := OutcomeBacked) (J := Reached host) (fun s h => h) (fun s hs => ?_)
    (fun s e s' _ hreached hs h => hs.step hreached (applyToState_stepped h)) h
  obtain ⟨e, p, hborn⟩ := hs.newborn
  exact hborn.outcomeBacked

/-- A resolved outcome rests on two votes of the chain, of two keys in two roles; every CLAIM of the
chain is by the recipient that the engine computes for it; and an accepted event keeps the outcome,
or is the RESOLVE that sets it where none was set. -/
theorem resolved_by_two (host : Host) (s : EscrowState) (hs : Reached host s) :
    (∀ o, s.resolvedOutcome = some o → BackedByTwo s o) ∧
      (∀ v ∈ s.eventChain, v.kind = .claim → ∃ o, s.resolvedOutcome = some o ∧
        ∃ role, payoutRecipientFor s o = some (v.pubkey, role)) ∧
      ∀ e s', applyToState host s e = .ok s' → s'.resolvedOutcome = s.resolvedOutcome ∨
        s.resolvedOutcome = none ∧ ∃ p, e.payload = .resolve p ∧
          s'.resolvedOutcome = some p.outcome ∧ BackedByTwo s p.outcome := by
  have hbacked := hs.outcomeBacked
  refine ⟨hbacked.backed, hbacked.claimed, fun e s' h => ?_⟩
  rcases (applyToState_stepped h).resolvedOutcome with hsame | hresolves
  · exact Or.inl hsame
  · obtain ⟨p, hp, hvotes, houtcome⟩ := hresolves.outcome
    refine Or.inr ⟨?_, p, hp, houtcome, hs.votesBacked.two hvotes⟩
    by_contra hset
    have hsettled := hbacked.settled (Option.isSome_iff_ne_none.mpr hset)
    rcases hresolves.status with h | h <;> rw [h] at hsettled <;> cases hsettled

def sampleClaim : ParsedEscrowEvent := sampleEvent 'f' 'b' 1800000060 (.claim {
  claimerRole := .buyer
  notesHashVerification := "notes"
  claimedAt := 1800000060 })

/-- The claimed sample trade rests on the two votes, and pays the buyer. -/
theorem resolved_by_two_sample :
    ∃ s : EscrowState, s.status = .claimed ∧ BackedByTwo s .release ∧
      ∃ role, payoutRecipientFor s .release = some (hexKey 'b', role) := by
  have hrun : (liveTrade silentHost sampleCreate
      (fundedEvents ++ [sampleResolve 1800000050 .release, sampleClaim])).any (fun s =>
        s.status = .claimed && s.resolvedOutcome = some .release &&
          s.eventChain.any fun v => v.kind = .claim && v.pubkey = hexKey 'b') = true := by
    decide +kernel
  obtain ⟨s, hs, h⟩ := (Option.any_eq_true _ _).mp hrun
  simp only [Bool.and_eq_true, decide_eq_true_eq, List.any_eq_true] at h
  obtain ⟨⟨hclaimed, hrelease⟩, v, hv, hkind, hkey⟩ := h
  obtain ⟨hbacked, hpaid, -⟩ := resolved_by_two silentHost s (liveTrade_reached silentHost hs)
  obtain ⟨o, ho, role, hrole⟩ := hpaid v hv hkind
  rw [hrelease, Option.some.injEq] at ho
  subst ho
  exact ⟨s, hclaimed, hbacked _ hrelease, role, hkey ▸ hrole⟩

end ChamaEscrow
