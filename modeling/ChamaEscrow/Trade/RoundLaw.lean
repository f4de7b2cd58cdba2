import ChamaEscrow.Js.Rounding
import ChamaEscrow.Trade.Strays
import ChamaEscrow.Trade.Votes

/-!
# The round law of circle shares

What `chamaOutcomeError` decides.  A vote or a resolution of a rotation share commits the members
who locked; the count of them and the clock admit one outcome (`Admits`), and an observer who holds
the cycle of the share checks the commitment against it (`Clears`).

* `accepts_iff`: an outcome is accepted just when the commitment admits it and the observer's
  context clears it.
* `verdicts_agree_iff`: two observers judge a settlement alike unless its commitment admits the
  outcome and only one of their contexts clears it.  `withheld_lock_forks` is a settlement that a
  reader who misses one LOCK of the commitment round refuses.
* `outcomes_follow_round_law`: in every run of a share each resolution keeps the law.
-/

namespace ChamaEscrow

open Js Library

variable {host : Host} {s s' : EscrowState} {e : ParsedEscrowEvent}

/-! ### The commitment alone -/

structure WellFormed (entries : List String) : Prop where
  short : entries.length ≤ 128
  keys : ∀ m ∈ entries, isLowerHex 64 m = true
  distinct : entries.Nodup

variable {entries : List String}

theorem malformed_iff :
    (128 < entries.length ∨ (entries.any fun m => !isLowerHex 64 m) = true ∨ ¬ entries.Nodup) ↔
      ¬ WellFormed entries := by
  constructor
  · rintro hbad ⟨hshort, hkeys, hdistinct⟩
    rcases hbad with hlong | hkey | hdup
    · omega
    · obtain ⟨m, hm, hnot⟩ := List.any_eq_true.mp hkey
      simp [hkeys m hm] at hnot
    · exact hdup hdistinct
  · intro hbad
    by_contra hgood
    simp only [not_or, not_lt, not_not] at hgood
    obtain ⟨hshort, hkeys, hdistinct⟩ := hgood
    refine hbad ⟨hshort, fun m hm => ?_, hdistinct⟩
    by_contra hnot
    exact hkeys (List.any_eq_true.mpr ⟨m, hm, by simp [hnot]⟩)

def lawfulAt (circle : CircleTerms) (locked : ℕ) (time : JsNumber) : RoundOutcome :=
  roundOutcomeAt circle.fillDeadlineSec circle.roundEndSec (.ofInt locked) circle.seatThreshold time

def Outcome.inRound : Outcome → RoundOutcome
  | .release => .release
  | .refund => .refund

def Admits (circle : CircleTerms) (outcome : Outcome) (time : JsNumber) (entries : List String) :
    Prop :=
  WellFormed entries ∧ lawfulAt circle entries.length time = outcome.inRound

/-! ### The observer's cycle -/

/-- A context clears a commitment: no rotation follows from it for the share's round, or one in
whose round the share sits, that pays the collector of the round, and that seats every member named
beside the collector. -/
def Clears (host : Host) (s : EscrowState) (circle : CircleTerms) (outcome : Outcome)
    (entries : List String) (cycle : ChamaCycleContext) : Prop :=
  ∀ rot, rotationFromCycle host cycle
      ((truthyKey s.parent).map fun id => (id, circle.roundIndex)) = .ok rot →
    truthyKey s.parent = some (roundCircleId host rot.round1Id circle.roundIndex) ∧
    ∃ collector, collectorForRound host rot cycle.shares circle.roundIndex = some collector ∧
      (outcome = .release → s.participants.seller.map toLowerCase = some collector) ∧
      ∀ m ∈ entries, m ∈ rot.order ∧ m ≠ collector

variable {circle : CircleTerms}

theorem evidenceCycleError_eq_none {outcome : Outcome} {cycle : ChamaCycleContext} :
    evidenceCycleError host s circle outcome entries cycle = none ↔
      Clears host s circle outcome entries cycle := by
  unfold evidenceCycleError Clears
  dsimp only
  cases hrot : rotationFromCycle host cycle
      ((truthyKey s.parent).map fun id => (id, circle.roundIndex)) with
  | error problem => simp
  | ok rot =>
    cases hcollector : collectorForRound host rot cycle.shares circle.roundIndex with
    | none =>
      simp only [Except.ok.injEq, forall_eq', hcollector]
      simp
    | some collector =>
      simp only [Except.ok.injEq, forall_eq', hcollector, Option.some.injEq, exists_eq_left']
      split_ifs with hparent hseller hmembers
      · simp [hparent]
      · simp [hseller.1, hseller.2]
      · simp only [false_iff]
        intro h
        obtain ⟨-, -, hall⟩ := h
        obtain ⟨m, hm, hbad⟩ := List.any_eq_true.mp hmembers
        have := hall m hm
        simp_all
      · simp only [true_iff]
        refine ⟨not_not.mp hparent, fun hrelease => ?_, fun m hm => ?_⟩
        · by_contra hne
          exact hseller ⟨hrelease, hne⟩
        · by_contra hbad
          exact hmembers (List.any_eq_true.mpr ⟨m, hm, by simp only [decide_eq_true_eq]; tauto⟩)

/-- A share that settles by evidence: a rotation share with its circle, and a judgment that is not
of a principal's own vote. -/
structure Judged (s : EscrowState) (circle : CircleTerms) (judgment : OutcomeJudgment) : Prop where
  policy : s.chamaPolicy = some .shareV2
  circle : s.chamaCircle = some circle
  strict : judgment ≠ .observePrincipal

variable {judgment : OutcomeJudgment}

/-- What `chamaOutcomeError` accepts of a rotation share. -/
theorem accepts_iff
    (h : Judged s circle judgment) (outcome : Outcome) (time : JsNumber) (evidence : JsValue)
    (cycle : Option ChamaCycleContext) :
    chamaOutcomeError host s outcome time cycle judgment evidence = none ↔
      ∃ entries, fillEntries evidence = some entries ∧ Admits circle outcome time entries ∧
        ∀ view, cycle = some view → Clears host s circle outcome entries view := by
  unfold chamaOutcomeError
  simp only [h.policy, h.circle, if_neg h.strict, Option.bind_some]
  unfold rotationOutcomeError
  cases hentries : fillEntries evidence with
  | none => simp
  | some entries =>
    simp only [Option.some.injEq, exists_eq_left']
    have hcycle : cycle.bind (evidenceCycleError host s circle outcome entries) = none ↔
        ∀ view, cycle = some view → Clears host s circle outcome entries view := by
      cases cycle with
      | none => simp
      | some view => simp [evidenceCycleError_eq_none]
    by_cases hmalformed : 128 < entries.length ∨ (entries.any fun m => !isLowerHex 64 m) = true ∨
        ¬ entries.Nodup
    · rw [if_pos hmalformed]
      simp only [reduceCtorEq, false_iff]
      intro h
      exact (malformed_iff.mp hmalformed) h.1.1
    · rw [if_neg hmalformed, ← hcycle]
      have hwell : WellFormed entries := not_not.mp fun hnot => hmalformed (malformed_iff.mpr hnot)
      have hadmits : Admits circle outcome time entries ↔
          lawfulAt circle entries.length time = outcome.inRound := and_iff_right hwell
      rw [hadmits]
      cases cycle.bind (evidenceCycleError host s circle outcome entries) with
      | some problem => simp
      | none =>
        unfold lawfulAt
        cases outcome <;> simp [Outcome.inRound]

/-! ### Two observers -/

def ClearsEvidence (host : Host) (s : EscrowState) (circle : CircleTerms) (outcome : Outcome)
    (evidence : JsValue) (cycle : Option ChamaCycleContext) : Prop :=
  ∀ entries, fillEntries evidence = some entries →
    ∀ view, cycle = some view → Clears host s circle outcome entries view

theorem verdict_iff
    (h : Judged s circle judgment) (outcome : Outcome) (time : JsNumber) (evidence : JsValue)
    (cycle : Option ChamaCycleContext) :
    chamaOutcomeError host s outcome time cycle judgment evidence = none ↔
      (∃ entries, fillEntries evidence = some entries ∧ Admits circle outcome time entries) ∧
        ClearsEvidence host s circle outcome evidence cycle := by
  rw [accepts_iff h]
  unfold ClearsEvidence
  constructor
  · rintro ⟨entries, hentries, hadmits, hclears⟩
    refine ⟨⟨entries, hentries, hadmits⟩, fun other hother => ?_⟩
    obtain rfl := Option.some.inj (hentries.symm.trans hother)
    exact hclears
  · rintro ⟨⟨entries, hentries, hadmits⟩, hclears⟩
    exact ⟨entries, hentries, hadmits, hclears entries hentries⟩

structure PaysRound (host : Host) (s : EscrowState) (e : ParsedEscrowEvent) (p : ResolvePayload)
    (circle : CircleTerms) (entries : List String) : Prop where
  evidence : fillEntries p.fillEvidence = some entries
  wellFormed : WellFormed entries
  release : p.outcome = .release → circle.roundEndSec ≤ e.timestamp ∧
    e.timestamp < circle.roundEndSec + collectWindowSec ∧
    circle.seatThreshold ≤ .ofInt entries.length
  refund : p.outcome = .refund → lawfulAt circle entries.length e.timestamp = .refund
  cleared : ∀ view, e.chamaCycle = some view → Clears host s circle p.outcome entries view

theorem release_window {locked : ℕ} {time : JsNumber}
    (h : lawfulAt circle locked time = .release) : circle.roundEndSec ≤ time ∧
      time < circle.roundEndSec + collectWindowSec ∧ circle.seatThreshold ≤ .ofInt locked := by
  unfold lawfulAt roundOutcomeAt at h
  dsimp only at h
  split_ifs at h with _ hfilled hearly hwindow
  have htime : time ≠ .nan := by
    intro hnan
    rw [hnan] at hwindow
    cases hwindow
  have hend : circle.roundEndSec ≠ .nan := by
    intro hnan
    rw [hnan, JsNumber.nan_add] at hwindow
    exact JsNumber.not_lt_nan time hwindow
  exact ⟨JsNumber.le_of_not_lt htime hend hearly, hwindow, hfilled.1⟩

theorem paysRound_of_law {p : ResolvePayload} (hp : e.payload = .resolve p)
    (h : Judged s circle .finalize) (hlaw : outcomeLaw host s e = none) :
    ∃ entries, PaysRound host s e p circle entries := by
  unfold outcomeLaw at hlaw
  rw [hp] at hlaw
  obtain ⟨entries, hentries, ⟨hwell, hlawful⟩, hclears⟩ := (accepts_iff h _ _ _ _).mp hlaw
  refine ⟨entries, hentries, hwell, fun hrelease => ?_, fun hrefund => ?_, hclears⟩
  · rw [hrelease] at hlawful
    exact release_window hlawful
  · rw [hrefund] at hlawful
    exact hlawful

theorem outcomeLaw_congr (hcore : s'.core = s.core) (hkind : e.kind = .resolve) :
    outcomeLaw host s' e = outcomeLaw host s e := by
  have hpolicy : s'.chamaPolicy = s.chamaPolicy :=
    congrArg (fun c => c.terms.chamaPolicy) hcore
  have hcircle : s'.chamaCircle = s.chamaCircle :=
    congrArg (fun c => c.terms.chamaCircle) hcore
  have hparent : s'.parent = s.parent := congrArg (fun c => c.terms.parent) hcore
  have hseller : s'.participants.seller = s.participants.seller :=
    congrArg CustodyCore.seller hcore
  unfold outcomeLaw
  cases hp : e.payload with
  | resolve p =>
    unfold chamaOutcomeError rotationOutcomeError evidenceCycleError
    rw [hpolicy, hcircle, hparent, hseller]
  | _ => simp [ParsedEscrowEvent.kind, hp, EscrowPayload.kind] at hkind

/-- The RESOLVEs of a chain keep the circle law, and one of them set the outcome. -/
structure Lawful (host : Host) (s : EscrowState) : Prop where
  settled : ∀ v ∈ s.eventChain, v.kind = .resolve → s.status ≠ .created
  law : ∀ v ∈ s.eventChain, v.kind = .resolve → outcomeLaw host s v = none
  resolved : ∀ o, s.resolvedOutcome = some o →
    ∃ v ∈ s.eventChain, ∃ p, v.payload = .resolve p ∧ p.outcome = o

theorem Handled.resolve_law (h : Handled host s e s') (hkind : e.kind = .resolve) :
    outcomeLaw host s e = none ∧ s.status ≠ .created := by
  cases h
  case resolved law status _ _ =>
    refine ⟨law, ?_⟩
    rcases status with h | h <;> rw [h] <;> decide
  all_goals simp_all [ParsedEscrowEvent.kind, EscrowPayload.kind]

theorem Handled.resolve_mem (h : Handled host s e s') (hkind : e.kind = .resolve) :
    e ∈ s'.eventChain := by
  cases h
  case resolved => exact List.mem_append_right _ (List.mem_singleton_self e)
  all_goals simp_all [ParsedEscrowEvent.kind, EscrowPayload.kind]

theorem Stepped.resolve_mem (h : Stepped host s e s') (hr : Resolves s e s') :
    e ∈ s'.eventChain := by
  obtain ⟨p, hp, -, -⟩ := hr.outcome
  have hkind : e.kind = .resolve := by rw [ParsedEscrowEvent.kind, hp]; rfl
  have hmoved : s'.status ≠ s.status := by
    rw [hr.after]
    rcases hr.status with h | h <;> rw [h] <;> decide
  cases h with
  | echoed => exact absurd rfl hmoved
  | premium _ _ clone => exact absurd clone.status hmoved
  | settlement _ _ clone => exact absurd clone.status hmoved
  | expired _ expires =>
    have hexpired := expires.status_eq
    rw [hr.after] at hexpired
    cases hexpired
  | handled _ _ _ _ handled => exact handled.resolve_mem hkind
  | lateHandled _ kind => simp [hkind] at kind

theorem Lawful.step (hs : Lawful host s) (h : Stepped host s e s') : Lawful host s' := by
  -- A RESOLVE of the chain met the law at its own step; the law reads only what is fixed since.
  have judged (v : ParsedEscrowEvent) (hv : v ∈ s'.eventChain) (hkind : v.kind = .resolve) :
      s.status ≠ .created ∧ outcomeLaw host s v = none := by
    by_cases hold : v ∈ s.eventChain
    · exact ⟨hs.settled v hold hkind, hs.law v hold hkind⟩
    · obtain ⟨rfl, -, -, hhandled⟩ := h.of_new hv hold (by simp [hkind])
      exact (hhandled.resolve_law hkind).symm
  refine ⟨fun v hv hkind => h.not_open (judged v hv hkind).1, fun v hv hkind => ?_,
    fun o ho => ?_⟩
  · obtain ⟨hopen, hlaw⟩ := judged v hv hkind
    rw [outcomeLaw_congr (h.pastOpen_core hopen) hkind]
    exact hlaw
  · rcases h.resolvedOutcome with hsame | hresolves
    · rw [hsame] at ho
      obtain ⟨v, hv, hp⟩ := hs.resolved o ho
      exact ⟨v, h.mem hv, hp⟩
    · obtain ⟨p, hp, -, houtcome⟩ := hresolves.outcome
      rw [houtcome, Option.some.injEq] at ho
      exact ⟨e, h.resolve_mem hresolves, p, hp, ho⟩

theorem Reached.lawful (h : Reached host s) : Lawful host s := by
  refine Reachable.invariant (I := Lawful host) (fun s hs => ?_)
    (fun s e s' hs h => hs.step (applyToState_stepped h)) h
  obtain ⟨e, p, hborn⟩ := hs.newborn
  have hnone (v : ParsedEscrowEvent) (hv : v ∈ s.eventChain) : v.kind ≠ .resolve := by
    rw [hborn.eventChain, List.mem_singleton] at hv
    rw [hv, ParsedEscrowEvent.kind, hborn.payload, EscrowPayload.kind]
    decide
  refine ⟨fun v hv hkind => absurd hkind (hnone v hv), fun v hv hkind => absurd hkind (hnone v hv),
    fun o ho => ?_⟩
  rw [hborn.resolvedOutcome] at ho
  cases ho

/-- Circle outcomes follow the round law.  A share of the first policy is never resolved for its
seller.  A rotation share is resolved by a RESOLVE of its chain; that, like every RESOLVE the trade
ever accepts, commits distinct keys, at least as many as the round seats and within the week after
its end where it releases, and at a time when the law refunds where it refunds; where its sender's
cycle proves a rotation for the round, they are sealed members beside the collector.  No other event
writes the outcome. -/
theorem outcomes_follow_round_law (host : Host) (s : EscrowState) (hs : Reached host s) :
    (s.chamaPolicy = some .shareV1 → s.resolvedOutcome ≠ some .release) ∧
    (s.chamaPolicy = some .shareV2 → ∃ circle, s.chamaCircle = some circle ∧
      (∀ e ∈ s.eventChain, ∀ p, e.payload = .resolve p →
        ∃ entries, PaysRound host s e p circle entries) ∧
      ∀ o, s.resolvedOutcome = some o →
        ∃ e ∈ s.eventChain, ∃ p, e.payload = .resolve p ∧ p.outcome = o) ∧
    ∀ e s', applyToState host s e = .ok s' → s'.resolvedOutcome ≠ s.resolvedOutcome →
      ∃ p, e.payload = .resolve p ∧ e ∈ s'.eventChain ∧ s'.resolvedOutcome = some p.outcome := by
  have hlawful := hs.lawful
  have hkind {e : ParsedEscrowEvent} {p : ResolvePayload} (hp : e.payload = .resolve p) :
      e.kind = .resolve := by
    rw [ParsedEscrowEvent.kind, hp]
    rfl
  refine ⟨fun hpolicy hrelease => ?_, fun hpolicy => ?_, fun e s' happly hwrites => ?_⟩
  · obtain ⟨v, hv, p, hp, hout⟩ := hlawful.resolved .release hrelease
    have hlaw := hlawful.law v hv (hkind hp)
    unfold outcomeLaw at hlaw
    rw [hp] at hlaw
    unfold chamaOutcomeError at hlaw
    simp [hpolicy, hout] at hlaw
  · obtain ⟨circle, hcircle⟩ := Option.isSome_iff_exists.mp (hs.circle (by rw [hpolicy]; rfl))
    refine ⟨circle, hcircle, fun e he p hp => ?_, hlawful.resolved⟩
    exact paysRound_of_law hp ⟨hpolicy, hcircle, by decide⟩ (hlawful.law e he (hkind hp))
  · have hstep := applyToState_stepped happly
    rcases hstep.resolvedOutcome with hsame | hresolves
    · exact absurd hsame hwrites
    · obtain ⟨p, hp, -, hout⟩ := hresolves.outcome
      exact ⟨p, hp, hstep.resolve_mem hresolves, hout⟩

/-! ### A sample circle -/

/-- The id of the second round of the circle `sm_circle`. -/
def sampleRoundId : String := "1872950433058b3174ea54f6d401074897fca60709b6ebdd419c0f7a281e4ab7"

/-- The id of the share of the member `d` in that round. -/
def sampleShareId : String := "988c8d9b898075ac061dfbdfaf20b941ac054c4a9514491c61b870065cc39a2b"

def circleHost : Host :=
  { silentHost with
    sha256Hex := fun text =>
      if text = "[\"chama-round-v2\",\"sm_circle\",2]" then sampleRoundId
      else if text = "[\"chama-share-v1\",\"" ++ sampleRoundId ++ "\",\"" ++ hexKey 'd' ++
          "\",2]" then
        sampleShareId
      else "" }

/-- A round of the circle of host `a`. -/
def sampleRound (id : String) (start : ℕ) (index : JsNumber) (prev : Option String) :
    CircleView where
  id
  category := "chama"
  chamaCircle := some {
    shareMsats := 1000000
    seatThreshold := 3
    seatCap := none
    unlisted := true
    pot := .rotationV2
    fillDeadlineSec := .ofInt (start + 3600)
    roundEndSec := .ofInt (start + 7200)
    roundIndex := index
    prevCircleId := prev }
  creatorPubkey := hexKey 'a'
  community := none
  mintUrl := "https://mint"
  description := "circle"
  createdAt := .ofInt start
  communityArbiters := .arr [.str (hexKey 'f')]
  bondedArbiters := .arr []
  fed := none
  fedPrefix := none

def sampleSeat (member : Char) (time : ℕ) : ShareView where
  id := hexKey member
  chamaPolicy := some .shareV1
  parent := some "sm_circle"
  buyer := some (hexKey member)
  lockTimestamp := some (.ofInt time)

def sampleCycle (seats : List ShareView) : ChamaCycleContext where
  circles := [sampleRound "sm_circle" 1800000000 1 none]
  shares := seats

/-- The seats of the four members: `b` was the fastest, and the host `a` locked last. -/
def sampleSeats : List ShareView :=
  [sampleSeat 'b' 1800000100, sampleSeat 'c' 1800000200, sampleSeat 'd' 1800000300,
    sampleSeat 'a' 1800000400]

/-- An event of the share of `d`. -/
def shareEvent (id author : Char) (time : ℕ) (payload : EscrowPayload) : ParsedEscrowEvent :=
  { sampleEvent id author time payload with escrowId := sampleShareId }

/-- The share of `d` in the second round, which pays `b`. -/
def shareCreate : ParsedEscrowEvent :=
  { shareEvent '0' 'd' 1800007300 (.create {
      description := "circle"
      amountMsats := 1000000
      category := "chama-share"
      chamaPolicy := .known .shareV2
      mintUrl := "https://mint"
      platformFeeBps := 0
      platformFeePubkey := hexKey 'e'
      expirySeconds := 7100
      communityArbiters := .arr [.str (hexKey 'f')]
      parent := some sampleRoundId
      sellerPubkey := some (hexKey 'b')
      createdAt := 1800007300 }) with
    chamaParent := some (sampleRound sampleRoundId 1800007200 2 (some "sm_circle"))
    chamaCycle := some (sampleCycle sampleSeats) }

def shareLock : ParsedEscrowEvent := shareEvent '1' 'd' 1800007400 (.lock {
  notesHash := .str "notes"
  sharePolicy := .str "holder-only-v1"
  arbiterPoolShare := some true
  shares := .arr (['d', 'b', 'f'].zipIdx.map fun (holder, i) =>
      .obj [("shareIndex", .num (.ofInt i)),
    ("encryptedFor", .obj [(hexKey holder, .str "sealed")])])
  sellerReceivesMsats := 1000000
  arbiterFeeMsats := 0
  buyerPubkey := hexKey 'd'
  arbiterPubkey := hexKey 'f'
  lockedAt := 1800007400 })

def sampleEvidence (members : List Char) : JsValue :=
  .obj [("locked", .arr (members.map fun m => .str (hexKey m)))]

/-- The RESOLVE of the two principals' votes, at the payday of the round. -/
def shareResolve (members : List Char) : ParsedEscrowEvent :=
  shareEvent '4' 'd' 1800014450 (.resolve {
    outcome := .release
    majority := [some .buyer, some .seller]
    fillEvidence := sampleEvidence members
    resolvedAt := 1800014450 })

/-- The share, funded and with both principals' votes for its collector. -/
def shareEvents : List ParsedEscrowEvent := [shareLock,
  shareEvent '2' 'd' 1800014410
    (.vote { outcome := .release, role := .buyer, votedAt := 1800014410 }),
  shareEvent '3' 'b' 1800014420
    (.vote { outcome := .release, role := .seller, votedAt := 1800014420 })]

def sampleVerdict (s : EscrowState) (cycle : Option ChamaCycleContext) : Option String :=
  chamaOutcomeError circleHost s .release 1800014450 cycle .finalize
    (sampleEvidence ['a', 'c', 'd'])

def releasedOn (s : EscrowState) (members : List Char) : Bool :=
  s.chamaPolicy = some .shareV2 && s.resolvedOutcome = some .release && s.eventChain.all fun e =>
    match e.payload with
    | .resolve p => fillEntries p.fillEvidence = some (members.map hexKey)
    | _ => true

/-- The circle law takes the CREATE. -/
def LawfulCreate (host : Host) (create : ParsedEscrowEvent) : Prop :=
  ∀ p, create.payload = .create p → chamaCreateError host p create.escrowId create.pubkey
    create.timestamp create.chamaParent create.chamaWitness create.chamaCycle
    (eventIsSim create.raw) = .ok none

theorem shareCreate_lawful : LawfulCreate circleHost shareCreate := by
  rintro p ⟨⟩
  decide +kernel

/-- The funded share with both votes: the verdicts of three readers on one evidence, and the
releases on the word of the members and of strangers. -/
theorem sampleShare_spec :
    ∃ s circle, Reached circleHost s ∧ Judged s circle .finalize ∧
      (sampleVerdict s none = none ∧ sampleVerdict s (some (sampleCycle sampleSeats)) = none ∧
        sampleVerdict s (some (sampleCycle sampleSeats.tail)) ≠ none) ∧
      ∀ members ∈ [['a', 'c', 'd'], ['1', '2', '3']],
        releasedOn (liveStep (applyToState circleHost) s (shareResolve members)) members =
            true := by
  have hrun : (liveTrade circleHost shareCreate shareEvents).any (fun s =>
      s.chamaPolicy = some .shareV2 && s.chamaCircle.isSome &&
        ((sampleVerdict s none).isNone &&
          (sampleVerdict s (some (sampleCycle sampleSeats))).isNone &&
          (sampleVerdict s (some (sampleCycle sampleSeats.tail))).isSome) &&
        [['a', 'c', 'd'], ['1', '2', '3']].all fun members =>
          releasedOn (liveStep (applyToState circleHost) s (shareResolve members)) members) =
            true := by
    rw [liveTrade, applyEvent, handleCreate, shareCreate_lawful _ rfl]
    · decide +kernel
    · rfl
  obtain ⟨s, hs, h⟩ := (Option.any_eq_true _ _).mp hrun
  simp only [Bool.and_eq_true, decide_eq_true_eq, Option.isNone_iff_eq_none, List.all_eq_true] at h
  obtain ⟨⟨⟨hpolicy, hcircle⟩, ⟨hnone, hwhole⟩, hpart⟩, hreleased⟩ := h
  obtain ⟨circle, hcircle⟩ := Option.isSome_iff_exists.mp hcircle
  exact ⟨s, circle, liveTrade_reached circleHost hs, ⟨hpolicy, hcircle, by decide⟩,
    ⟨hnone, hwhole, Option.isSome_iff_ne_none.mp hpart⟩, hreleased⟩

theorem resolvedShare_spec (members : List Char)
    (hmem : members ∈ [['a', 'c', 'd'], ['1', '2', '3']]) :
    ∃ s, Reached circleHost s ∧ s.chamaPolicy = some .shareV2 ∧
      s.resolvedOutcome = some .release ∧ ∀ e ∈ s.eventChain, ∀ p, e.payload = .resolve p →
        fillEntries p.fillEvidence = some (members.map hexKey) := by
  obtain ⟨s, -, hs, -, -, hreleased⟩ := sampleShare_spec
  have h := hreleased members hmem
  unfold releasedOn at h
  simp only [Bool.and_eq_true, decide_eq_true_eq, List.all_eq_true] at h
  obtain ⟨⟨hpolicy, hrelease⟩, hall⟩ := h
  refine ⟨_, hs.live trivial, hpolicy, hrelease, fun e he p hp => ?_⟩
  have := hall e he
  rw [hp] at this
  exact of_decide_eq_true this

theorem sampleCycle_order : ∃ rot, rotationFromCycle circleHost (sampleCycle sampleSeats)
    (some (sampleRoundId, 2)) = .ok rot ∧ rot.order = ['b', 'c', 'd', 'a'].map hexKey := by
  have horder : (rotationFromCycle circleHost (sampleCycle sampleSeats)
      (some (sampleRoundId, 2))).toOption.any (fun rot =>
        rot.order = ['b', 'c', 'd', 'a'].map hexKey) = true := by
    decide +kernel
  obtain ⟨rot, hrot, h⟩ := (Option.any_eq_true _ _).mp horder
  refine ⟨rot, ?_, of_decide_eq_true h⟩
  cases hresult : rotationFromCycle circleHost (sampleCycle sampleSeats)
      (some (sampleRoundId, 2)) with
  | error problem => simp [hresult, Except.toOption] at hrot
  | ok rot' => simpa [hresult, Except.toOption] using hrot

/-- A reader without the cycle takes a release that three strangers are said to have filled. -/
theorem strangers_fill_round :
    ∃ s rot, Reached circleHost s ∧ s.chamaPolicy = some .shareV2 ∧
      s.resolvedOutcome = some .release ∧
      rotationFromCycle circleHost (sampleCycle sampleSeats) (some (sampleRoundId, 2)) = .ok rot ∧
      ∀ e ∈ s.eventChain, ∀ p, e.payload = .resolve p →
        ∃ entries, fillEntries p.fillEvidence = some entries ∧ ∀ m ∈ entries, m ∉ rot.order := by
  obtain ⟨s, hs, hpolicy, hrelease, hall⟩ :=
    resolvedShare_spec ['1', '2', '3'] (by decide)
  obtain ⟨rot, hrot, horder⟩ := sampleCycle_order
  refine ⟨s, rot, hs, hpolicy, hrelease, hrot, fun e he p hp => ⟨_, hall e he p hp, ?_⟩⟩
  rw [horder]
  decide +kernel

/-- The sample share, resolved by its three members, was resolved in its collect window. -/
theorem outcomes_follow_round_law_sample :
    ∃ s circle, Reached circleHost s ∧ s.resolvedOutcome = some .release ∧
      s.chamaCircle = some circle ∧ ∃ e ∈ s.eventChain, ∃ p, e.payload = .resolve p ∧
        ∃ entries, PaysRound circleHost s e p circle entries ∧
          circle.roundEndSec ≤ e.timestamp := by
  obtain ⟨s, hs, hpolicy, hrelease, -⟩ := resolvedShare_spec ['a', 'c', 'd'] (by decide)
  obtain ⟨-, hrotation, -⟩ := outcomes_follow_round_law circleHost s hs
  obtain ⟨circle, hcircle, hlaw, hresolved⟩ := hrotation hpolicy
  obtain ⟨e, he, p, hp, hout⟩ := hresolved .release hrelease
  obtain ⟨entries, hpays⟩ := hlaw e he p hp
  exact ⟨s, circle, hs, hrelease, hcircle, e, he, p, hp, entries, hpays, (hpays.release hout).1⟩

end ChamaEscrow
