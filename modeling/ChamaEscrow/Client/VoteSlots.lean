import ChamaEscrow.Trade.ArbiterSlot
import ChamaEscrow.Trade.RoundLaw

/-!
# The slots of an encrypted VOTE

A VOTE is published as one ciphertext per recipient (`escrow-client.ts`).  `vote` builds the payload
and judges it as its author; `encryptVoteToParticipants` gives the recipient of the carried share
the whole payload and everyone else a compact one of four fields.

`votes_reduce_alike_iff`: two recipients reduce their slots alike unless one of them is the share's
recipient, the other is not, and the payload holds a field that the compact one drops.
-/

namespace ChamaEscrow

open Js Library

variable (host : Host)

namespace VoteSlots

/-! ### The circle law of an intent -/

/-- `chamaOutcomeError` for an author about to sign, who judges by the cycle they resolved. -/
def intentError (state : EscrowState) (outcome : Outcome) (at_ : JsNumber)
    (cycle : Option ChamaCycleContext) : Option String :=
  match state.chamaPolicy with
  | none => none
  | some .shareV1 => if outcome = .refund then none else some "Shares only allow REFUND"
  | some .shareV2 =>
    match cycle with
    | none =>
      if outcome = .refund then none else some "Rotation share resolution requires cycle context"
    | some cycle => state.chamaCircle.bind fun circle =>
      let parent := truthyKey state.parent
      match rotationFromCycle host cycle (parent.map fun id => (id, circle.roundIndex)) with
      | .error problem => some problem
      | .ok rot =>
        match collectorForRound host rot cycle.shares circle.roundIndex with
        | none => some "Rotation share is not part of this cycle"
        | some collector =>
          if parent ≠ some (roundCircleId host rot.round1Id circle.roundIndex) then
            some "Rotation share is not part of this cycle"
          else if outcome = .release
              ∧ state.participants.seller.map toLowerCase ≠ some collector then
            some "Share does not pay this round's collector"
          else
            let expected := rot.order.filter (· ≠ collector)
            let locked := (cycle.shares.filter fun e =>
              e.chamaPolicy = some .shareV2 ∧ e.parent = state.parent).filterMap shareStanding
            let lockedCount := (expected.filter (· ∈ locked.map Standing.member)).length
            let lawful := roundOutcomeAt circle.fillDeadlineSec circle.roundEndSec
              (.ofInt lockedCount) (.ofInt expected.length) at_
            match outcome with
            | .release =>
              if lawful = .release then none
              else some "Release is only lawful for a filled round at its payday"
            | .refund =>
              if lawful = .refund then none
              else some "Refund is not lawful while the round can still pay its collector"

/-- `fillEvidenceFor`: the members with a locked share of the round, in order. -/
def fillEvidenceFor (roundId : String) (cycle : ChamaCycleContext) : JsValue :=
  let members := ((cycle.shares.filter fun e =>
    e.chamaPolicy = some .shareV2 ∧ e.parent = some roundId ∧ e.lockTimestamp.isSome).filterMap
      fun e => truthyKey (e.buyer.map toLowerCase)).dedup
  .obj [("locked", .arr ((members.insertionSort fun a b => textLe a b = true).map .str))]

/-! ### Who may vote -/

/-- `canVote`: why a key may not vote for an outcome now. -/
def canVote (state : EscrowState) (pubkey : String) (now : JsNumber) (outcome : Outcome)
    (cycle : Option ChamaCycleContext) : Except JsError (Option String) :=
  match intentError host state outcome now cycle with
  | some law => .ok (some law)
  | none =>
    if state.status ≠ .locked ∧ state.status ≠ .expired then
      .ok (some s!"State is {state.status}, not LOCKED or EXPIRED")
    else if holdsBackShares state then
      .ok (some "The funder has not released the shares yet")
    else do
      let healing : Bool :=
        state.status = .expired || (0 < state.expiresAt && state.expiresAt < now)
      let seat := getRole state pubkey
      let backup ←
        if seat.isNone && state.lock.arbiterPoolShare = some true then
          arbiterVotePriority state pubkey
        else pure none
      if seat.isNone && backup.isNone then return some "Not a participant"
      else
        let role := seat.getD .arbiter
        if state.eventChain.any fun e => e.kind = .vote && e.pubkey = pubkey then
          return some "Already voted"
        else
          let floor : Option String :=
            if role = .arbiter && !healing then
              match state.votes.get .buyer, state.votes.get .seller with
              | some buyerVote, some sellerVote =>
                if buyerVote = sellerVote then
                  some "Buyer and seller agree — arbiter not needed"
                else none
              | _, _ =>
                if (oneSidedEscalationAt state).all fun opensAt => now < opensAt then
                  some "Waiting for buyer and seller to vote first"
                else none
            else none
          let grace : Option String :=
            if seat.isNone && !healing
                && (substitutionEligibleAt state).all fun opensAt => now < opensAt then
              some "The assigned arbiter still has the floor"
            else none
          return floor.or grace

/-! ### The author -/

/-- How a signer fails: the user declines, or anything else goes wrong. -/
inductive SignerFault
  | approval (message : String)
  | other (message : String)
  deriving DecidableEq

/-- Why `vote` throws. -/
inductive VoteFault
  | refused (message : String)
  | throws (error : JsError)
  | signer (fault : SignerFault)
  | halts (halt : Halt)

/-- The VOTE before it is signed, with what each recipient's ciphertext opens to. -/
structure UnsignedVote where
  createdAt : JsNumber
  tags : List (List String)
  slots : List (String × JsValue)

/-- The author's signer.  `sign` also adds the tags that the parser does not read. -/
structure Signer where
  nip44Decrypt : (ciphertext : JsValue) → (sender : String) → Except SignerFault String
  nip44Encrypt : (plaintext recipient : String) → Except SignerFault String
  sign : UnsignedVote → Except SignerFault NostrEvent

def shareCommitment (escrowId notesHash : String) (shareIndex : JsNumber) (plaintext : String) :
    String :=
  host.sha256Hex s!"chama-share-v1|{escrowId}|{notesHash}|{shareIndex.toText}|{plaintext}"

/-- `releasedShareMatches`: a share that the LOCK committed to is the committed one. -/
def releasedShareMatches (state : EscrowState) (shareIndex : JsNumber) (plaintext : String) :
    Bool :=
  match truthyKey (state.lock.withheld.bind fun w => w.commitments.get shareIndex.toText) with
  | none => true
  | some commitment =>
    (truthyKey state.lock.notesHash.text?).any fun notesHash =>
      shareCommitment host state.id notesHash shareIndex plaintext = commitment

/-- A failed step of the envelope: a declined approval is thrown, the rest skips the envelope. -/
def bestEffort {α : Type} (x : Except SignerFault (Option α)) : Except SignerFault (Option α) :=
  match x with
  | .error (.other _) => .ok none
  | x => x

/-- `buildVoteShareEnvelope`: the voter's own share, encrypted again for the payee of the
outcome. -/
def buildVoteShareEnvelope (signer : Signer) (state : EscrowState) (voterRole : Role)
    (voterPubkey : String) (outcome : Outcome) : Except SignerFault (Option JsValue) :=
  bestEffort <|
    if !state.lock.sharePolicy.isText "holder-only-v1" then .ok none
    else
      let shareIndex := shareIndexForRole voterRole
      let locker := (state.eventChain.find? fun e => e.kind = .lock).map ParsedEscrowEvent.pubkey
      match payoutRecipientFor state outcome, state.lock.shares.get shareIndex.toText, locker with
      | some (recipient, _), some share, some locker =>
        let myCipher := (share.getOptional "encryptedFor").getOptional voterPubkey
        if !myCipher.truthy then .ok none
        else do
          let plaintext ← signer.nip44Decrypt myCipher locker
          if !releasedShareMatches host state shareIndex plaintext then return none
          else
            let sealed ← signer.nip44Encrypt plaintext recipient
            return some (.obj [
              ("shareIndex", .num shareIndex),
              ("outcome", .str (toString outcome)),
              ("notesHash", state.lock.notesHash.orElse (.str "")),
              ("recipientPubkey", .str recipient),
              ("encryptedFor", .obj [(recipient, .str sealed)])])
      | _, _, _ => .ok none

/-! ### The slots -/

/-- `envelopeRecipients`: the seats, and on a pooled LOCK the arbiters of the priority order. -/
def envelopeRecipients (state : EscrowState) : Except JsError (List String) := do
  let seats := Role.all.filterMap fun role => truthyKey (state.participants.get role)
  let backups ←
    if state.lock.arbiterPoolShare = some true then arbiterPriorityOrder state else pure []
  return (seats ++ backups.filter (· ≠ "")).reverse.dedup.reverse

def compactPayload (payload : JsValue) : JsValue :=
  .obj [("type", payload.field "type"), ("outcome", payload.field "outcome"),
    ("role", payload.field "role"), ("votedAt", payload.field "votedAt")]

def slotPayload (payload : JsValue) (pk : String) : JsValue :=
  let envelope := payload.field "shareEnvelope"
  if (envelope.field "recipientPubkey").isText pk then payload
  else if envelope.truthy then compactPayload payload
  else payload

/-- `encryptVoteToParticipants`: the slot of each recipient. -/
def encryptVoteToParticipants (payload : JsValue) (state : EscrowState) :
    Except VoteFault (List (String × JsValue)) := do
  let recipients ← under .throws (envelopeRecipients state)
  if recipients.isEmpty then
    .error (.refused "encryptVoteToParticipants: no participant pubkeys in state — cannot envelope-encrypt before LOCK fills in buyer/seller/arbiter.")
  else return recipients.map fun pk => (pk, slotPayload payload pk)

/-! ### `vote` -/

def votingRole (state : EscrowState) (pubkey : String) (now : JsNumber) :
    Except VoteFault Role := do
  match getActiveRole state pubkey now with
  | some role => return role
  | none =>
    let place ←
      if state.lock.arbiterPoolShare = some true then
        under .throws (arbiterVotePriority state pubkey)
      else pure none
    if place.isSome then return .arbiter
    else .error (.refused "You are not a participant in this escrow")

def votePayload (state : EscrowState) (outcome : Outcome) (onchainRelease : JsValue) (role : Role)
    (shareEnvelope : Option JsValue) (cycle : Option ChamaCycleContext) (now : JsNumber) :
    JsValue :=
  .obj ((if onchainRelease.truthy then [("onchainRelease", onchainRelease)] else [])
    ++ [("type", .str "escrow:vote"), ("outcome", .str (toString outcome)),
      ("role", .str (toString role))]
    ++ (shareEnvelope.map fun envelope => ("shareEnvelope", envelope)).toList
    ++ (match cycle, truthyKey state.parent with
      | some cycle, some parent => [("fillEvidence", fillEvidenceFor parent cycle)]
      | _, _ => [])
    ++ [("votedAt", .num now)])

def judgedCycle (state : EscrowState) (cycle : Option ChamaCycleContext) :
    Option ChamaCycleContext :=
  if state.chamaPolicy = some .shareV2 ∧ (truthyKey state.parent).isSome then cycle else none

structure CastVote where
  payload : JsValue
  slots : List (String × JsValue)
  raw : NostrEvent

/-- `vote`, up to the publication.  `cycle` is what the author resolved of the parent circle, and
`checkedAt` and `now` are its two readings of the clock. -/
def vote (signer : Signer) (state : EscrowState) (pubkey : String) (outcome : Outcome)
    (onchainRelease : JsValue) (cycle : Option ChamaCycleContext) (checkedAt now : JsNumber) :
    Except VoteFault CastVote := do
  let role ← votingRole state pubkey checkedAt
  let cycle := judgedCycle state cycle
  match ← under .throws (canVote host state pubkey checkedAt outcome cycle) with
  | some reason => .error (.refused s!"Cannot vote: {reason}")
  | none =>
    let shareEnvelope ← under .signer
      (buildVoteShareEnvelope host signer state role pubkey outcome)
    if state.lock.onchain.isSome ∧ outcome = .release ∧ role ≠ .arbiter
        ∧ !onchainRelease.truthy then
      .error (.refused "Choose or sign the payout before confirming this on-chain trade.")
    else
      let payload := votePayload state outcome onchainRelease role shareEnvelope cycle now
      let slots ← encryptVoteToParticipants payload state
      let last := state.eventChain.getLast?.map ParsedEscrowEvent.id
      let raw ← under .signer (signer.sign {
        createdAt := now
        tags := [["d", state.id], ["e", last.getD "", "", "reply"], ["t", "escrow:vote"]]
        slots })
      let parsed ← under .halts
        (parseEscrowEvent host raw EscrowEventKind.vote.number (.ok payload) {})
      let _ ← under .halts (applyToState host state parsed)
      return { payload, slots, raw }

/-! ### The readers -/

/-- What a recipient makes of its slot: it parses the content beside the state it holds and the
cycle it resolved, and applies the event. -/
def reduceSlot (state : EscrowState) (raw : NostrEvent) (cycle : Option ChamaCycleContext)
    (slot : JsValue) : Step EscrowState := do
  let event ← parseEscrowEvent host raw EscrowEventKind.vote.number (.ok slot)
    { state := some state, cycle }
  applyToState host state event

def bareVote (p : VotePayload) : VotePayload := { p with shareEnvelope := none }

def bareEvent (e : ParsedEscrowEvent) : ParsedEscrowEvent :=
  match e.payload with
  | .vote p => { e with payload := .vote (bareVote p) }
  | _ => e

def withoutEnvelopes (s : EscrowState) : EscrowState :=
  { s with eventChain := s.eventChain.map bareEvent }

/-- Two reductions agree: both refuse, or they accept with states that differ at most in the
carried share envelope. -/
def Alike : Step EscrowState → Step EscrowState → Prop
  | .ok s, .ok t => withoutEnvelopes s = withoutEnvelopes t
  | .error _, .error _ => True
  | _, _ => False

def isShareFor (payload : JsValue) (pk : String) : Bool :=
  ((payload.field "shareEnvelope").field "recipientPubkey").isText pk

def dropsField (p : VotePayload) : Bool := !p.fillEvidence.isUndefined || p.onchainRelease.isSome

def voteLaw (state : EscrowState) (raw : NostrEvent) (cycle : Option ChamaCycleContext)
    (p : VotePayload) : Option String :=
  chamaOutcomeError host state p.outcome raw.createdAt cycle
    (if isPrincipalKey state raw.pubkey then .observePrincipal else .observeArbiter) p.fillEvidence

def compactVote (p : VotePayload) : VotePayload :=
  { outcome := p.outcome, role := p.role, votedAt := p.votedAt }

variable {host} {s live : EscrowState} {raw : NostrEvent}

/-! ### Reading a slot -/

def voteEvent (raw : NostrEvent) (escrowId : String) (cycle : Option ChamaCycleContext)
    (p : VotePayload) : ParsedEscrowEvent where
  raw
  payload := .vote p
  escrowId
  prevEventId := getPrevEventId raw.tags
  chamaCycle := cycle

def namedTrade (raw : NostrEvent) : Option String :=
  truthyKey ((raw.tags.find? fun tag => tag[0]? = some "d").bind fun tag => tag[1]?)

def isVote (d : JsValue) : Prop := decodeContent .vote (.ok d) = .ok (.ok (.vote (readVote d)))

variable {d : JsValue}

theorem decodeContent_of_ok {kind : EscrowEventKind} {payload : EscrowPayload}
    (h : parsePayload kind (.ok d) = .ok payload) :
    decodeContent kind (.ok d) = .ok (.ok (readPayload kind d)) ∧
      payload = readPayload kind d := by
  unfold parsePayload at h
  split at h
  · rename_i decoded hdecoded
    subst h
    have hcopy := hdecoded
    simp only [decodeContent, bind_eq_ok] at hdecoded
    obtain ⟨d', hd, type, -, hdecoded⟩ := hdecoded
    obtain rfl := Except.ok.inj hd
    split_ifs at hdecoded
    · simp only [bind_eq_ok, pure_eq_ok] at hdecoded
      obtain ⟨printed, -, hdecoded⟩ := hdecoded
      cases hdecoded
    · simp only [bind_eq_ok] at hdecoded
      obtain ⟨valid, -, hdecoded⟩ := hdecoded
      cases valid with
      | false => cases hdecoded
      | true =>
        obtain rfl := Except.ok.inj (Except.ok.inj hdecoded)
        exact ⟨hcopy, rfl⟩
  · cases h

variable {cycle : Option ChamaCycleContext} {e : ParsedEscrowEvent}

theorem parse_vote_eq_ok {state : Option EscrowState} :
    parseEscrowEvent host raw EscrowEventKind.vote.number (.ok d) { state, cycle } = .ok e ↔
      ∃ escrowId, namedTrade raw = some escrowId ∧ isVote d ∧
        (∀ s, state = some s → voteLaw host s raw cycle (readVote d) = none) ∧
        e = voteEvent raw escrowId cycle (readVote d) := by
  have hkind : (EscrowEventKind.all.find? fun kind => kind.number = EscrowEventKind.vote.number) =
      some .vote := by decide
  unfold parseEscrowEvent
  rw [hkind]
  dsimp only
  constructor
  · intro h
    split at h
    · cases h
    · rename_i escrowId hid
      simp only [bind_eq_ok, guardErr_eq_ok, under_eq_ok, pure_eq_ok, js_eq_ok,
        guardProblem_eq_ok] at h
      obtain ⟨-, -, payload, hpayload, law, hlaw, -, rfl, rfl⟩ := h
      obtain ⟨hvote, rfl⟩ := decodeContent_of_ok hpayload
      refine ⟨escrowId, hid, hvote, fun s hs => ?_, rfl⟩
      subst hs
      simp only [parsedLaw, readPayload, Option.bind_some, Except.ok.injEq,
        Option.map_eq_none_iff] at hlaw
      exact hlaw
  · rintro ⟨escrowId, hid, hvote, hlaw, rfl⟩
    rw [namedTrade] at hid
    rw [hid]
    simp only [bind_eq_ok, guardErr_eq_ok, under_eq_ok, pure_eq_ok, js_eq_ok, guardProblem_eq_ok]
    refine ⟨(), fun h => EscrowEventKind.noConfusion h.1, .vote (readVote d), ?_, none, ?_, (), rfl,
      rfl⟩
    · rw [parsePayload, hvote]
    · cases state with
      | none => rfl
      | some s => exact congrArg (fun law => Except.ok (Option.map _ law)) (hlaw s rfl)

theorem validateVotePayload_fields (h : validateVotePayload d = .ok true) :
    isOutcome (d.field "outcome") = true ∧ isRole (d.field "role") = true ∧
      isNumber (d.field "votedAt") = true := by
  unfold validateVotePayload at h
  split_ifs at h
  all_goals
    simp only [bind_eq_ok, pure_eq_ok] at h
    obtain ⟨payout, -, h⟩ := h
    simp only [Bool.and_eq_true] at h
    exact ⟨h.1.1.2, h.1.2, h.2⟩

theorem validateVotePayload_compact (houtcome : isOutcome (d.field "outcome") = true)
    (hrole : isRole (d.field "role") = true) (htime : isNumber (d.field "votedAt") = true) :
    validateVotePayload (compactPayload d) = .ok true := by
  have hfields : validateVotePayload (compactPayload d) = .ok (isOutcome (d.field "outcome")
      && isRole (d.field "role") && isNumber (d.field "votedAt")) := rfl
  rw [hfields, houtcome, hrole, htime]
  rfl

variable {fields : List (String × JsValue)}

theorem isVote_compact (h : isVote (.obj fields)) : isVote (compactPayload (.obj fields)) := by
  unfold isVote decodeContent at h ⊢
  simp only [ok_bind, JsValue.get] at h ⊢
  split_ifs at h with htype
  · simp only [bind_eq_ok, pure_eq_ok] at h
    obtain ⟨printed, -, h⟩ := h
    cases h
  · simp only [bind_eq_ok] at h
    obtain ⟨valid, hvalid, h⟩ := h
    cases valid with
    | false => cases h
    | true =>
      have hcompact : validatePayload .vote (compactPayload (.obj fields)) = .ok true := by
        obtain ⟨houtcome, hrole, htime⟩ := validateVotePayload_fields hvalid
        exact validateVotePayload_compact houtcome hrole htime
      have hsame : ((compactPayload (.obj fields)).member "type") =
          (JsValue.obj fields).member "type" := rfl
      rw [compactPayload] at hcompact hsame ⊢
      simp only [ok_bind, hsame, if_neg htype, hcompact]
      rfl

theorem readVote_compact (d : JsValue) :
    readVote (compactPayload d) = compactVote (readVote d) := by
  rfl

/-! ### The law without evidence -/

variable {p : VotePayload}

theorem voteLaw_compact
    (h : voteLaw host s raw cycle p ≠ none) : voteLaw host s raw cycle (compactVote p) ≠ none := by
  unfold voteLaw chamaOutcomeError at h ⊢
  split at h
  · exact absurd rfl h
  · exact h
  · by_cases hprincipal : isPrincipalKey s raw.pubkey = true
    · simp [hprincipal] at h
    · rw [if_neg hprincipal] at h ⊢
      rw [if_neg (by decide)] at h ⊢
      cases hcircle : s.chamaCircle with
      | none => simp [hcircle] at h
      | some circle => simp [rotationOutcomeError, compactVote, fillEntries, JsValue.getOptional]

/-! ### One vote, two contents -/

def recast (p : VotePayload) (env : Option VoteShareEnvelope) (evidence : JsValue) : VotePayload :=
  { p with shareEnvelope := env, fillEvidence := evidence }

variable {id : String}

theorem countVote_recast {next s' : EscrowState} {c d : Option ChamaCycleContext}
    {role : Role} (env : Option VoteShareEnvelope) (evidence : JsValue)
    (h : countVote live (recordVote next (voteEvent raw id c p) p) (voteEvent raw id c p) p role =
      .ok s') :
    countVote live (recordVote next (voteEvent raw id d (recast p env evidence))
        (recast p env evidence)) (voteEvent raw id d (recast p env evidence))
        (recast p env evidence) role =
      .ok { s' with
        eventChain := next.eventChain ++ [voteEvent raw id d (recast p env evidence)] } := by
  unfold countVote at h ⊢
  by_cases hpooled : role = .arbiter ∧ live.lock.arbiterPoolShare = some true
  · rw [if_pos hpooled, bind_eq_ok] at h
    obtain ⟨best, hbest, h⟩ := h
    have hsame : bestArbiterVote (recordVote next (voteEvent raw id d (recast p env evidence))
        (recast p env evidence)) (voteEvents (next.eventChain ++
          [voteEvent raw id d (recast p env evidence)])) none = .ok best := by
      rw [← hbest]
      change _ = bestArbiterVote (recordVote next (voteEvent raw id c p) p)
        (voteEvents (next.eventChain ++ [voteEvent raw id c p])) none
      have horder (e : ParsedEscrowEvent) (q : VotePayload) (pubkey : String) :
          arbiterVotePriority (recordVote next e q) pubkey = arbiterVotePriority next pubkey := rfl
      rw [bestArbiterVote_congr (horder _ _), bestArbiterVote_congr (horder _ _),
        voteEvents_append, voteEvents_append, bestArbiterVote_append, bestArbiterVote_append]
      rfl
    rw [if_pos hpooled]
    change (bestArbiterVote _ (voteEvents (next.eventChain ++ _)) none >>= _) = _
    rw [hsame, ok_bind]
    cases best with
    | none =>
      obtain rfl := pure_eq_ok.mp h
      rfl
    | some best =>
      obtain rfl := pure_eq_ok.mp h
      rfl
  · rw [if_neg hpooled] at h ⊢
    obtain rfl := pure_eq_ok.mp h
    rfl

variable {s' : EscrowState}

theorem handleVote_recast {c d : Option ChamaCycleContext}
    (env : Option VoteShareEnvelope) (evidence : JsValue)
    (h : handleVote host live (voteEvent raw id c p) p = .ok s')
    (hlaw : voteLaw host live raw d (recast p env evidence) = none)
    (henv : voteEnvelopeError live (recast p env evidence) p.role = none) :
    handleVote host live (voteEvent raw id d (recast p env evidence)) (recast p env evidence) =
      .ok { s' with
        eventChain := live.eventChain ++ [voteEvent raw id d (recast p env evidence)] } := by
  simp only [handleVote, bind_eq_ok, guardErr_eq_ok, guardNone_eq_ok, js_eq_ok] at h ⊢
  obtain ⟨_, hpayout, _, -, _, hheld, _, hstatus, role, hrole, _, hsame, _, hfresh, _, hclock, _, -,
    next, hnext, hcount⟩ := h
  obtain rfl : role = p.role := not_not.mp hsame
  have hchain : next.eventChain = live.eventChain := (cloneState_isCopy hnext).eventChain
  have hafter := countVote_recast (d := d) env evidence hcount
  rw [hchain] at hafter
  exact ⟨(), hpayout, (), hlaw, (), hheld, (), hstatus, p.role, hrole, (), hsame, (), hfresh, (),
    hclock, (), henv, next, hnext, hafter⟩

theorem handleVote_envelope
    (h : handleVote host live e p = .ok s') : voteEnvelopeError live p p.role = none := by
  simp only [handleVote, bind_eq_ok, guardErr_eq_ok, guardNone_eq_ok, js_eq_ok] at h
  obtain ⟨-, -, -, -, -, -, -, -, role, -, -, hsame, -, -, -, -, -, henv, -⟩ := h
  obtain rfl : role = p.role := not_not.mp hsame
  exact henv

theorem handleVote_eventChain
    (h : handleVote host live e p = .ok s') : s'.eventChain = live.eventChain ++ [e] := by
  simp only [handleVote, bind_eq_ok, guardErr_eq_ok, guardNone_eq_ok, js_eq_ok] at h
  obtain ⟨-, -, -, -, -, -, -, -, role, -, -, -, -, -, -, -, -, -, next, hnext, hcount⟩ := h
  obtain ⟨votes, acting, rfl⟩ := countVote_eq_ok hcount
  exact (cloneState_isCopy hnext).push

/-! ### One reader -/

variable {c : Option ChamaCycleContext}

theorem expiryGate_vote {due : AtDeadline} (hgate : expiryGate s (voteEvent raw id c p) = .ok due)
    (hopen : s.status.isTrulyTerminal = false) :
    ∃ live, due = .dispatch live ∧ (live = s ∨ Expires s (voteEvent raw id c p) live) := by
  rcases expiryGate_cases hgate hopen with ⟨rfl, -⟩ | ⟨next, hexpires, hdue⟩
  · exact ⟨s, rfl, Or.inl rfl⟩
  · have hkind : (voteEvent raw id c p).kind = .vote ∨ (voteEvent raw id c p).kind = .lockStep :=
      Or.inl rfl
    rw [if_pos hkind] at hdue
    exact ⟨next, hdue, Or.inr hexpires⟩

theorem voteLaw_live {c d : Option ChamaCycleContext} {p q : VotePayload}
    (hgate : expiryGate s (voteEvent raw id c p) = .ok (.dispatch live))
    (hopen : s.status.isTrulyTerminal = false) :
    voteLaw host live raw d q = voteLaw host s raw d q := by
  obtain ⟨_, hdue, rfl | hexpires⟩ := expiryGate_vote hgate hopen
  · cases hdue
    rfl
  · cases hdue
    obtain ⟨copy, hcopy, rfl⟩ := hexpires.eq
    have hterms := hcopy.terms
    have hseats := hcopy.participants
    have hpolicy : copy.chamaPolicy = s.chamaPolicy := congrArg TradeTerms.chamaPolicy hterms
    have hcircle : copy.chamaCircle = s.chamaCircle := congrArg TradeTerms.chamaCircle hterms
    have hparent : copy.parent = s.parent := congrArg TradeTerms.parent hterms
    unfold voteLaw chamaOutcomeError rotationOutcomeError evidenceCycleError isPrincipalKey
    dsimp only
    rw [hpolicy, hcircle, hparent, hseats]

theorem applyToState_vote (hnew : s.hasEvent raw.id = false) :
    applyToState host s (voteEvent raw id c p) = .ok s' ↔
      voteLaw host s raw c p = none ∧ s.status.isTrulyTerminal = false ∧
        ∃ live, expiryGate s (voteEvent raw id c p) = .ok (.dispatch live) ∧
          handleVote host live (voteEvent raw id c p) p = .ok s' := by
  have happly : applyToState host s (voteEvent raw id c p) = (do
      guardNone (voteLaw host s raw c p) .chamaRefundOnly raw.id
      applyConsensus host s (voteEvent raw id c p)) := rfl
  have hfresh : ¬ s.hasEvent (voteEvent raw id c p).id = true := by
    rw [Bool.not_eq_true]
    exact hnew
  rw [happly, applyConsensus, if_neg hfresh]
  simp only [bind_eq_ok, guardNone_eq_ok, guardErr_eq_ok, Bool.not_eq_true]
  constructor
  · rintro ⟨-, hlaw, -, hopen, due, hgate, h⟩
    obtain ⟨live, rfl, -⟩ := expiryGate_vote hgate hopen
    exact ⟨hlaw, hopen, live, hgate, h⟩
  · rintro ⟨hlaw, hopen, live, hgate, h⟩
    exact ⟨(), hlaw, (), hopen, .dispatch live, hgate, h⟩

theorem applyToState_echo (hknown : s.hasEvent raw.id = true) :
    applyToState host s (voteEvent raw id c p) = .ok s' ↔
      voteLaw host s raw c p = none ∧ s' = s := by
  have happly : applyToState host s (voteEvent raw id c p) = (do
      guardNone (voteLaw host s raw c p) .chamaRefundOnly raw.id
      applyConsensus host s (voteEvent raw id c p)) := rfl
  have hconsensus : applyConsensus host s (voteEvent raw id c p) = .ok s := if_pos hknown
  rw [happly, hconsensus]
  simp only [bind_eq_ok, guardNone_eq_ok, Except.ok.injEq]
  constructor
  · rintro ⟨-, hlaw, h⟩
    exact ⟨hlaw, h.symm⟩
  · rintro ⟨hlaw, h⟩
    exact ⟨(), hlaw, h.symm⟩

/-! ### Two slots of one vote -/

theorem reduceSlot_eq_ok {t : EscrowState} :
    reduceSlot host s raw cycle d = .ok t ↔ ∃ id, namedTrade raw = some id ∧ isVote d ∧
      applyToState host s (voteEvent raw id cycle (readVote d)) = .ok t := by
  unfold reduceSlot
  simp only [bind_eq_ok, parse_vote_eq_ok]
  constructor
  · rintro ⟨e, ⟨id, hid, hvote, -, rfl⟩, h⟩
    exact ⟨id, hid, hvote, h⟩
  · rintro ⟨id, hid, hvote, h⟩
    refine ⟨_, ⟨id, hid, hvote, ?_, rfl⟩, h⟩
    rintro _ ⟨⟩
    cases hknown : s.hasEvent raw.id with
    | true => exact ((applyToState_echo hknown).mp h).1
    | false => exact ((applyToState_vote hknown).mp h).1

theorem Alike.refl (r : Step EscrowState) : Alike r r := by
  cases r
  · exact trivial
  · exact rfl

variable {r₁ r₂ : Step EscrowState}

theorem Alike.symm (h : Alike r₁ r₂) : Alike r₂ r₁ := by
  cases r₁ <;> cases r₂
  · exact trivial
  · exact h
  · exact h
  · exact Eq.symm h

theorem alike_iff : Alike r₁ r₂ ↔
    ((∃ s, r₁ = .ok s) ↔ ∃ t, r₂ = .ok t) ∧
      ∀ s t, r₁ = .ok s → r₂ = .ok t → withoutEnvelopes s = withoutEnvelopes t := by
  cases r₁ <;> cases r₂ <;> simp [Alike]

theorem compactVote_eq (h : dropsField p = false) :
    compactVote p = recast p none p.fillEvidence := by
  simp only [dropsField, Bool.or_eq_false_iff, Bool.not_eq_false', Option.isSome_eq_false_iff,
    Option.isNone_iff_eq_none] at h
  obtain ⟨hevidence, hpayout⟩ := h
  have hundefined : p.fillEvidence = .undefined := by
    cases hfill : p.fillEvidence <;> simp [hfill, JsValue.isUndefined] at hevidence
    rfl
  simp [compactVote, recast, hpayout, hundefined]

/-- Two votes that differ at most in the share envelope: neither the fill evidence nor the payout
is lost on the way. -/
theorem dropsField_of_bare (h : bareVote p = bareVote (compactVote p)) : dropsField p = false := by
  have hevidence : p.fillEvidence = .undefined := congrArg VotePayload.fillEvidence h
  have hpayout : p.onchainRelease = none := congrArg VotePayload.onchainRelease h
  simp [dropsField, hevidence, hpayout, JsValue.isUndefined]

theorem applyToState_vote_chain {t : EscrowState} (hnew : s.hasEvent raw.id = false)
    (h : applyToState host s (voteEvent raw id c p) = .ok t) :
    t.eventChain = s.eventChain ++ [voteEvent raw id c p] := by
  obtain ⟨-, hopen, live, hgate, hvote⟩ := (applyToState_vote hnew).mp h
  rw [handleVote_eventChain hvote]
  obtain ⟨_, hdue, rfl | hexpires⟩ := expiryGate_vote hgate hopen
  · cases hdue
    rfl
  · cases hdue
    rw [hexpires.eventChain]

theorem accepts_recast {after : EscrowState}
    (cycle : Option ChamaCycleContext) (env : Option VoteShareEnvelope) (evidence : JsValue)
    (hnew : s.hasEvent raw.id = false)
    (hcast : applyToState host s (voteEvent raw id none p) = .ok after)
    (henv : env = none ∨ env = p.shareEnvelope)
    (hlaw : voteLaw host s raw cycle (recast p env evidence) = none) :
    applyToState host s (voteEvent raw id cycle (recast p env evidence)) = .ok { after with
      eventChain := s.eventChain ++ [voteEvent raw id cycle (recast p env evidence)] } := by
  obtain ⟨-, hopen, live, hgate, hvote⟩ := (applyToState_vote hnew).mp hcast
  have hlive : live.eventChain = s.eventChain := by
    obtain ⟨_, hdue, rfl | hexpires⟩ := expiryGate_vote hgate hopen
    · cases hdue
      rfl
    · cases hdue
      exact hexpires.eventChain
  have henvelope : voteEnvelopeError live (recast p env evidence) p.role = none := by
    rcases henv with rfl | rfl
    · rfl
    · exact (handleVote_envelope hvote : voteEnvelopeError live p p.role = none)
  have hafter := handleVote_recast env evidence hvote
    ((voteLaw_live hgate hopen).trans hlaw) henvelope
  rw [hlive] at hafter
  exact (applyToState_vote hnew).mpr ⟨hlaw, hopen, live, hgate, hafter⟩

theorem alike_compact_iff {after : EscrowState}
    (cycle : Option ChamaCycleContext) (hp : readVote (.obj fields) = p)
    (hid : namedTrade raw = some id) (hvote : isVote (.obj fields))
    (hcast : applyToState host s (voteEvent raw id none p) = .ok after) :
    Alike (reduceSlot host s raw cycle (.obj fields))
        (reduceSlot host s raw cycle (compactPayload (.obj fields))) ↔
      dropsField p = false ∨ voteLaw host s raw cycle p ≠ none ∨
        (s.hasEvent raw.id = true ∧ voteLaw host s raw cycle (compactVote p) = none) := by
  have hwhole (t : EscrowState) : reduceSlot host s raw cycle (.obj fields) = .ok t ↔
      applyToState host s (voteEvent raw id cycle p) = .ok t := by
    rw [reduceSlot_eq_ok, hp]
    exact ⟨fun ⟨_, hother, _, h⟩ => Option.some.inj (hother.symm.trans hid) ▸ h,
      fun h => ⟨id, hid, hvote, h⟩⟩
  have hcompact (t : EscrowState) :
      reduceSlot host s raw cycle (compactPayload (.obj fields)) = .ok t ↔
        applyToState host s (voteEvent raw id cycle (compactVote p)) = .ok t := by
    rw [reduceSlot_eq_ok, readVote_compact, hp]
    exact ⟨fun ⟨_, hother, _, h⟩ => Option.some.inj (hother.symm.trans hid) ▸ h,
      fun h => ⟨id, hid, isVote_compact hvote, h⟩⟩
  simp only [alike_iff, hwhole, hcompact]
  -- The law of the vote, then whether the state holds it already.
  by_cases hlaw : voteLaw host s raw cycle p = none
  · cases hknown : s.hasEvent raw.id with
    | true =>
      simp only [applyToState_echo hknown, hlaw, true_and, ne_eq, not_true_eq_false, false_or]
      constructor
      · rintro ⟨hboth, -⟩
        obtain ⟨t, hlaw', -⟩ := hboth.mp ⟨s, rfl⟩
        exact Or.inr hlaw'
      · intro h
        have hlaw' : voteLaw host s raw cycle (compactVote p) = none := by
          rcases h with hkept | hlaw'
          · rw [compactVote_eq hkept]
            exact hlaw
          · exact hlaw'
        exact ⟨⟨fun _ => ⟨s, hlaw', rfl⟩, fun _ => ⟨s, rfl⟩⟩,
          fun _ _ h₁ h₂ => by rw [h₁, h₂.2]⟩
    | false =>
      have hfull := accepts_recast cycle p.shareEnvelope p.fillEvidence hknown hcast (Or.inr rfl)
        hlaw
      change applyToState host s (voteEvent raw id cycle p) = .ok { after with
        eventChain := s.eventChain ++ [voteEvent raw id cycle p] } at hfull
      constructor
      · rintro ⟨hboth, hsame⟩
        obtain ⟨t, ht⟩ := hboth.mp ⟨_, hfull⟩
        have herased := congrArg EscrowState.eventChain (hsame _ t hfull ht)
        simp only [withoutEnvelopes, applyToState_vote_chain hknown ht, List.map_append,
          List.append_cancel_left_eq, List.map_cons, List.map_nil, List.cons.injEq,
          and_true] at herased
        exact Or.inl (dropsField_of_bare
          (EscrowPayload.vote.inj (congrArg ParsedEscrowEvent.payload herased)))
      · rintro (hkept | hrefused | hechoes)
        · rw [compactVote_eq hkept]
          have hbare := accepts_recast cycle none p.fillEvidence hknown hcast (Or.inl rfl) hlaw
          refine ⟨⟨fun _ => ⟨_, hbare⟩, fun _ => ⟨_, hfull⟩⟩, fun t₁ t₂ h₁ h₂ => ?_⟩
          obtain rfl := Except.ok.inj (hfull.symm.trans h₁)
          obtain rfl := Except.ok.inj (hbare.symm.trans h₂)
          simp only [withoutEnvelopes, List.map_append]
          rfl
        · exact absurd hlaw hrefused
        · cases hechoes.1
  · have hrefused (t : EscrowState) (q : VotePayload) (hq : voteLaw host s raw cycle q ≠ none) :
        applyToState host s (voteEvent raw id cycle q) ≠ .ok t := by
      intro h
      cases hknown : s.hasEvent raw.id with
      | true => exact hq ((applyToState_echo hknown).mp h).1
      | false => exact hq ((applyToState_vote hknown).mp h).1
    simp [hlaw, hrefused _ _ hlaw, hrefused _ _ (voteLaw_compact hlaw)]

/-! ### The claim -/

variable {payload : JsValue}

theorem slotPayload_congr {pk other : String}
    (h : isShareFor payload pk = isShareFor payload other) :
    slotPayload payload pk = slotPayload payload other := by
  unfold isShareFor at h
  unfold slotPayload
  dsimp only
  rw [h]

theorem slotPayload_of_share {pk : String} (h : isShareFor payload pk = true) :
    slotPayload payload pk = payload := if_pos h

theorem slotPayload_of_other {pk other : String}
    (h : isShareFor payload pk = true) (hother : isShareFor payload other = false) :
    slotPayload payload other = compactPayload payload := by
  have henvelope : (payload.field "shareEnvelope").truthy = true := by
    unfold isShareFor at h
    cases hfield : payload.field "shareEnvelope" <;>
      simp_all [JsValue.field, JsValue.isText, JsValue.truthy]
  unfold slotPayload
  rw [isShareFor] at hother
  simp only [hother, henvelope, if_true, Bool.false_eq_true, if_false]

theorem encryptVoteToParticipants_slot {slots : List (String × JsValue)}
    (h : encryptVoteToParticipants payload s = .ok slots) {pk : String}
    (hd : (pk, d) ∈ slots) : d = slotPayload payload pk := by
  unfold encryptVoteToParticipants at h
  simp only [bind_eq_ok, under_eq_ok] at h
  obtain ⟨recipients, -, h⟩ := h
  split_ifs at h
  obtain rfl := pure_eq_ok.mp h
  obtain ⟨other, -, hpair⟩ := List.mem_map.mp hd
  cases hpair
  rfl

theorem vote_eq_ok {signer : Signer} {pubkey : String} {outcome : Outcome}
    {onchainRelease : JsValue} {checkedAt now : JsNumber} {cast : CastVote}
    (h : vote host signer s pubkey outcome onchainRelease cycle checkedAt now = .ok cast) :
    ∃ fields id after, cast.payload = .obj fields ∧ isVote (.obj fields) ∧
      namedTrade cast.raw = some id ∧
      applyToState host s (voteEvent cast.raw id none (readVote (.obj fields))) = .ok after ∧
      ∀ pk d, (pk, d) ∈ cast.slots → d = slotPayload cast.payload pk := by
  unfold vote at h
  simp only [bind_eq_ok, under_eq_ok] at h
  obtain ⟨role, -, verdict, -, h⟩ := h
  cases verdict with
  | some reason => cases h
  | none =>
    simp only [bind_eq_ok, under_eq_ok] at h
    obtain ⟨envelope, -, h⟩ := h
    split_ifs at h
    simp only [bind_eq_ok, under_eq_ok, pure_eq_ok] at h
    obtain ⟨slots, hslots, raw, -, parsed, hparsed, after, happly, rfl⟩ := h
    obtain ⟨id, hid, hvote, -, rfl⟩ := parse_vote_eq_ok.mp hparsed
    exact ⟨_, id, after, rfl, hvote, hid, happly,
      fun pk d hmem => encryptVoteToParticipants_slot hslots hmem⟩

/-- Two recipients of a published VOTE reduce their slots alike just when both or neither is the
payee of the carried share, or the payload holds nothing that the compact one drops, or the circle
law of the reader refuses the vote anyway, or the reader holds the event already and its law takes
the vote without its evidence. -/
theorem votes_reduce_alike_iff (host : Host) (signer : Signer) (s : EscrowState)
    (pubkey : String) (outcome : Outcome) (onchainRelease : JsValue)
    (cycle : Option ChamaCycleContext) (checkedAt now : JsNumber) (cast : CastVote)
    (hcast : vote host signer s pubkey outcome onchainRelease cycle checkedAt now = .ok cast)
    (reader : Option ChamaCycleContext) (pk₁ pk₂ : String) (d₁ d₂ : JsValue)
    (h₁ : (pk₁, d₁) ∈ cast.slots) (h₂ : (pk₂, d₂) ∈ cast.slots) :
    Alike (reduceSlot host s cast.raw reader d₁) (reduceSlot host s cast.raw reader d₂) ↔
      isShareFor cast.payload pk₁ = isShareFor cast.payload pk₂ ∨
        dropsField (readVote cast.payload) = false ∨
        voteLaw host s cast.raw reader (readVote cast.payload) ≠ none ∨
        (s.hasEvent cast.raw.id = true ∧
          voteLaw host s cast.raw reader (compactVote (readVote cast.payload)) = none) := by
  obtain ⟨fields, id, after, hpayload, hvote, hid, happly, hslots⟩ := vote_eq_ok hcast
  have hiff := alike_compact_iff reader rfl hid hvote happly
  rw [← hpayload] at hiff
  rw [hslots pk₁ d₁ h₁, hslots pk₂ d₂ h₂]
  by_cases hsame : isShareFor cast.payload pk₁ = isShareFor cast.payload pk₂
  · rw [slotPayload_congr hsame]
    simp only [hsame, true_or, iff_true]
    exact Alike.refl _
  · simp only [hsame, false_or]
    cases hfor : isShareFor cast.payload pk₁ with
    | true =>
      have hother : isShareFor cast.payload pk₂ = false := by simpa [hfor] using Ne.symm hsame
      rw [slotPayload_of_share hfor, slotPayload_of_other hfor hother]
      exact hiff
    | false =>
      have hother : isShareFor cast.payload pk₂ = true := by simpa [hfor] using Ne.symm hsame
      rw [slotPayload_of_share hother, slotPayload_of_other hother hfor]
      exact ⟨fun h => hiff.mp h.symm, fun h => (hiff.mpr h).symm⟩

/-! ### A share released by its arbiter -/

theorem sampleVote_id : hexKey '5' ≠ "" := hexKey_ne '5'

def sampleSigner : Signer where
  nip44Decrypt _ _ := .ok "share"
  nip44Encrypt _ recipient := .ok recipient
  sign vote :=
    if htime : vote.createdAt ≠ .nan then
      .ok { id := hexKey '5', pubkey := hexKey 'f', createdAt := vote.createdAt, tags := vote.tags,
            id_ne := sampleVote_id, createdAt_ne := htime }
    else .error (.other "no time")

/-- The circle as the arbiter resolved it: the second round is filled too. -/
def filledCycle : ChamaCycleContext where
  circles := [sampleRound sampleRoundId 1800007200 2 (some "sm_circle"),
    sampleRound "sm_circle" 1800000000 1 none]
  shares := sampleSeats ++ ['a', 'c', 'd'].map fun member =>
    { sampleSeat member 1800007400 with
      chamaPolicy := some .shareV2
      parent := some sampleRoundId }

def sampleVote (s : EscrowState) : Except VoteFault CastVote :=
  vote circleHost sampleSigner s (hexKey 'f') .release .undefined (some filledCycle) 1800014450
    1800014450

def accepts (s : EscrowState) (cast : CastVote) (slot : String × JsValue) : Bool :=
  (reduceSlot circleHost s cast.raw (some filledCycle) slot.2).isOk

/-- Whether a vote of the arbiter forks its readers: the payee of the share accepts its slot and
the funding member refuses its own. -/
def forks (s : EscrowState) (cast : CastVote) : Bool :=
  (cast.slots.any fun slot => slot.1 = hexKey 'b' && accepts s cast slot)
    && (cast.slots.any fun slot => slot.1 = hexKey 'd' && !accepts s cast slot)

theorem sampleVote_forks :
    ∃ s cast d₁ d₂, Reached circleHost s ∧ sampleVote s = .ok cast ∧
      (hexKey 'b', d₁) ∈ cast.slots ∧ (hexKey 'd', d₂) ∈ cast.slots ∧
      ¬ Alike (reduceSlot circleHost s cast.raw (some filledCycle) d₁)
        (reduceSlot circleHost s cast.raw (some filledCycle) d₂) := by
  have hrun : (liveTrade circleHost shareCreate [shareLock]).any (fun s =>
      (sampleVote s).toOption.any (forks s)) = true := by
    rw [liveTrade, applyEvent, handleCreate, shareCreate_lawful _ rfl]
    · decide +kernel
    · rfl
  obtain ⟨s, hs, h⟩ := (Option.any_eq_true _ _).mp hrun
  obtain ⟨cast, hcast, h⟩ := exists_ok_of_any h
  simp only [forks, Bool.and_eq_true, List.any_eq_true, decide_eq_true_eq, Bool.not_eq_true',
    Prod.exists] at h
  obtain ⟨⟨_, d₁, h₁, rfl, haccepts⟩, _, d₂, h₂, rfl, hrefuses⟩ := h
  refine ⟨s, cast, d₁, d₂, liveTrade_reached circleHost hs, hcast, h₁, h₂, fun halike => ?_⟩
  unfold accepts at haccepts hrefuses
  dsimp only at haccepts hrefuses
  cases hfirst : reduceSlot circleHost s cast.raw (some filledCycle) d₁ with
  | error halt => simp [hfirst, Except.isOk, Except.toBool] at haccepts
  | ok t =>
    obtain ⟨t', hother⟩ := (alike_iff.mp halike).1.mp ⟨t, hfirst⟩
    simp [hother, Except.isOk, Except.toBool] at hrefuses

/-- The arbiter of a circle share releases it at the payday: the collector accepts the vote, and the
member who funded the share refuses it. -/
theorem arbiter_release_forks :
    ∃ s cast d₁ d₂, Reached circleHost s ∧
      vote circleHost sampleSigner s (hexKey 'f') .release .undefined (some filledCycle) 1800014450
        1800014450 = .ok cast ∧
      (hexKey 'b', d₁) ∈ cast.slots ∧ (hexKey 'd', d₂) ∈ cast.slots ∧
      ¬ Alike (reduceSlot circleHost s cast.raw (some filledCycle) d₁)
        (reduceSlot circleHost s cast.raw (some filledCycle) d₂) :=
  sampleVote_forks

/-- That vote drops a field from one of the two slots. -/
theorem votes_reduce_alike_sample :
    ∃ s cast, Reached circleHost s ∧
      vote circleHost sampleSigner s (hexKey 'f') .release .undefined (some filledCycle) 1800014450
        1800014450 = .ok cast ∧
      isShareFor cast.payload (hexKey 'b') ≠ isShareFor cast.payload (hexKey 'd') ∧
      dropsField (readVote cast.payload) = true := by
  obtain ⟨s, cast, d₁, d₂, hs, hcast, h₁, h₂, hforks⟩ := sampleVote_forks
  have hiff := votes_reduce_alike_iff circleHost sampleSigner s (hexKey 'f') .release .undefined
    (some filledCycle) 1800014450 1800014450 cast hcast (some filledCycle) (hexKey 'b') (hexKey 'd')
    d₁ d₂ h₁ h₂
  have hnot := mt hiff.mpr hforks
  simp only [not_or, Bool.not_eq_false] at hnot
  exact ⟨s, cast, hs, hcast, hnot.1, hnot.2.1⟩

end VoteSlots

end ChamaEscrow
