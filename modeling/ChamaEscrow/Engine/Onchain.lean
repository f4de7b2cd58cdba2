import ChamaEscrow.Engine.Arbiters
import ChamaEscrow.Engine.Host

/-!
# The on-chain rail

Funding terms (`onchain-funding-terms.ts`), the choice of the winner's payout transaction
(`onchain-settlement-choice.ts`, `onchain-stalled.ts`) and the proofs a COMPLETE links to
(`onchain-settlement-transport.ts`).
-/

namespace ChamaEscrow

open Js Library

variable (host : Host)

/-! ### Funding terms -/

def disputeCsvBlocks : JsNumber := 144

/-- `onchainFunder`: the principal whose deposit opens the escrow. -/
def onchainFunder (state : EscrowState) : Role := if buyerFunds state then .buyer else .seller

/-- `fundingArbiter`: the seated arbiter, else the one the pool assigns. -/
def fundingArbiter (state : EscrowState) : Except JsError (Option String) :=
  match state.participants.arbiter with
  | some pk => .ok (some pk)
  | none => pickPreferredArbiter state.communityArbiters state.bondedArbiters state.id
      [state.participants.buyer, state.participants.seller]

def termsKey (terms : OnchainFundingTerms) : Role → String
  | .buyer => terms.buyerXonly
  | .seller => terms.sellerXonly
  | .arbiter => terms.arbiterXonly

def principalTermsError (state : EscrowState) (terms : OnchainFundingTerms) (at_ : JsNumber)
    (role : Role) : Option String :=
  let seat :=
    if state.onchainFundingTerms.isSome then truthyKey (state.participants.get role)
    else truthyKey (getEffectiveParticipantAt state role at_)
  if seat.isNone then some s!"Missing {role}"
  else
    match truthyKey (state.escrowKeys.get role) with
    | none => some s!"Unpublished {role} key"
    | some key => if termsKey terms role ≠ key then some s!"Unpublished {role} key" else none

/-- What is wrong with the arbiter's key: one that no JOIN published must come with the arbiter's
own signed bond. -/
def arbiterTermsError (state : EscrowState) (terms : OnchainFundingTerms) (arbiter : String) :
    Except JsError (Option String) :=
  match truthyKey state.escrowKeys.arbiter with
  | some key => .ok (if terms.arbiterXonly ≠ key then some "Unpublished arbiter key" else none)
  | none => do
    let bond ← if terms.arbiterBond.truthy then host.bondAnnouncement terms.arbiterBond
      else pure none
    match bond with
    | none => return some "Unverified arbiter bond key"
    | some bond =>
      if bond.npub ≠ arbiter ∨ some bond.community ≠ state.community
          ∨ bond.network ≠ terms.network ∨ bond.ownerXonly ≠ terms.arbiterXonly
          ∨ "arbiter" ∉ bond.roles then
        return some "Unverified arbiter bond key"
      else
        let rebuilt ← host.bondAddress bond.ownerXonly bond.lockUntil terms.network
        return if rebuilt ≠ bond.address then
          some "Arbiter bond descriptor does not reproduce" else none

/-- `resolveFundingPlan`: the address three distinct published keys give, if they give one. -/
def resolveFundingPlan (terms : OnchainFundingTerms) : Option String :=
  let key (k : String) := toLowerCase (trim k)
  let keys := [key terms.buyerXonly, key terms.sellerXonly, key terms.arbiterXonly]
  if keys.all (isLowerHex 64) && keys.Nodup && terms.refundLockUntil.isInteger
      && 0 < terms.refundLockUntil && terms.refundLockUntil < 500000000 then
    (host.escrowAddress terms).toOption
  else none

/-- The checks of `fundingTermsError` without its `try`. -/
def fundingTermsProblem (state : EscrowState) (terms : OnchainFundingTerms) (at_ : JsNumber) :
    Except JsError (Option String) :=
  if state.escrowMode ≠ .onchain then .ok (some "Not an on-chain trade")
  else if terms.network ≠ state.onchainNetwork then .ok (some "Wrong Bitcoin network")
  else if terms.funder.role ≠ onchainFunder state then .ok (some "Wrong funder")
  else if terms.disputeCsvBlocks ≠ disputeCsvBlocks then .ok (some "Wrong dispute delay")
  else
    match (principalTermsError state terms at_ .buyer).or
        (principalTermsError state terms at_ .seller) with
    | some problem => .ok (some problem)
    | none => do
      match truthyKey (← fundingArbiter state) with
      | none => return some "Missing arbiter"
      | some arbiter =>
        match ← arbiterTermsError host state terms arbiter with
        | some problem => return some problem
        | none => return if resolveFundingPlan host terms = some terms.address then none
            else some "Address does not match published keys and terms"

def fundingTermsError (state : EscrowState) (terms : OnchainFundingTerms) (at_ : JsNumber) :
    Option String :=
  match fundingTermsProblem host state terms at_ with
  | .ok problem => problem
  | .error _ => some "Invalid funding terms"

/-- `BigInt(n)`, defined on integers alone. -/
def bigInt (n : JsNumber) : Except JsError ℤ :=
  match n with
  | .fin q => if q.den = 1 then .ok q.num
      else .error (.rangeError "The number cannot be converted to a BigInt")
  | _ => .error (.rangeError "The number cannot be converted to a BigInt")

/-- The integer a decimal text denotes. -/
def digitsValue (s : String) : ℤ :=
  s.toList.foldl (fun n c => n * 10 + (c.toNat - '0'.toNat : ℕ)) 0

/-- The fields of a LOCK that must be the committed ones, in the order they are compared. -/
def changedTerm (terms committed : OnchainFundingTerms) : Option String :=
  ([(terms.address ≠ committed.address, "LOCK changed address"),
    (terms.buyerXonly ≠ committed.buyerXonly, "LOCK changed buyerXonly"),
    (terms.sellerXonly ≠ committed.sellerXonly, "LOCK changed sellerXonly"),
    (terms.arbiterXonly ≠ committed.arbiterXonly, "LOCK changed arbiterXonly"),
    (terms.funder ≠ committed.funder, "LOCK changed funder"),
    (!terms.refundLockUntil.strictEq committed.refundLockUntil, "LOCK changed refundLockUntil"),
    (!terms.disputeCsvBlocks.strictEq committed.disputeCsvBlocks,
      "LOCK changed disputeCsvBlocks"),
    (terms.network ≠ committed.network, "LOCK changed network")] :
      List (Bool × String)).find? Prod.fst |>.map Prod.snd

/-- `onchainLockError`: the LOCK repeats the committed terms over a sufficient deposit. -/
def onchainLockError (state : EscrowState) (terms : OnchainLockTerms) (at_ : JsNumber) :
    Except JsError (Option String) :=
  match state.onchainFundingTerms with
  | none => .ok (some "Funding terms were not published before LOCK")
  | some committed =>
    match (fundingTermsError host state committed at_).or
        (changedTerm terms.toOnchainFundingTerms committed) with
    | some problem => .ok (some problem)
    | none =>
      if !isDigits terms.amountSats then .ok (some "Insufficient deposit amount")
      else do
        let amount ← bigInt state.amountMsats
        return if digitsValue terms.amountSats * 1000 < amount then
          some "Insufficient deposit amount" else none

/-! ### The winner's choice -/

/-- `settlementWinner`: the payee of the resolution, or of a RELEASE before there is one. -/
def settlementWinner (state : EscrowState) : Option (String × Role) :=
  payoutRecipientFor state (state.resolvedOutcome.getD .release)

/-- Whether the arbiter's signature is required: after a stalled request, or with the arbiter in the
majority. -/
def isArbitrated (state : EscrowState) : Bool :=
  state.settlementStalled.isSome || (state.resolvedMajority.any fun roles => .arbiter ∈ roles)

/-- A proposed payout of the winner. -/
structure SettlementChoice where
  id : String
  destination : JsValue
  locked : Bool
  proposal : SettlementMessage

def hasUnsignedId (id : String) (m : SettlementMessage) : Bool :=
  match host.unsignedId m.payload.psbt with
  | .ok found => found = id
  | .error _ => false

def proposalChoice (state : EscrowState) (terms : OnchainLockTerms) (fallback : String)
    (leaf : SettlementLeaf) (otherRole : Role) (messages : List SettlementMessage)
    (seen : List String) (proposal : SettlementMessage) : Option SettlementChoice :=
  let found : Except JsError (Option SettlementChoice) := do
    let id ← host.unsignedId proposal.payload.psbt
    let destination := proposal.payload.payoutAddress.orFalsy (.str fallback)
    let utxos ← host.inputs proposal.payload.psbt
    if id ∈ seen then return none
    else if state.settlementStalled.any fun st => !destination.strictEq st.destination then
      return none
    else if !(utxos.any fun u => u.txid = terms.fundingTxid ∧ u.index = terms.fundingVout) then
      return none
    else if !host.settlementVerifies proposal.payload.psbt terms.toOnchainFundingTerms
        destination leaf then
      return none
    else
      let group := messages.filter (hasUnsignedId host id)
      return some {
        id
        destination
        locked := group.any fun m =>
          host.hasValidSignature m.payload.psbt terms.toOnchainFundingTerms otherRole leaf
        proposal }
  match found with
  | .ok choice => choice
  | .error _ => none

def chooseProposal (read : List String → SettlementMessage → Option SettlementChoice) :
    List SettlementMessage → (seen : List String) → Option SettlementChoice →
      Option SettlementChoice
  | [], _, latest => latest
  | proposal :: rest, seen, latest =>
    match read seen proposal with
    | none => chooseProposal read rest seen latest
    | some choice =>
      if choice.locked then some choice
      else chooseProposal read rest (choice.id :: seen) (some choice)

/-- `winnerSettlementChoice`: the transaction the winner chose, from the settlement messages in the
order the state holds them. -/
def winnerSettlementChoice (state : EscrowState) : Except JsError (Option SettlementChoice) :=
  match state.lock.onchain, settlementWinner state with
  | some terms, some (winner, winnerRole) => do
    let address ← host.escrowAddress terms.toOnchainFundingTerms
    if address ≠ terms.address then return none
    else
      let leaf := if isArbitrated state then SettlementLeaf.arbiter else .coop
      let otherRole :=
        if isArbitrated state then Role.arbiter
        else if winnerRole = .buyer then .seller else .buyer
      let fallback ← host.taprootAddress (termsKey terms.toOnchainFundingTerms winnerRole)
        terms.network
      let messages := state.settlements.filter fun m => m.payload.leaf = leaf
      let proposals := messages.filter fun m =>
        m.raw.pubkey = winner ∧ m.payload.role = winnerRole
      return chooseProposal (proposalChoice host state terms fallback leaf otherRole messages)
        proposals [] none
  | _, _ => .ok none

/-- `voteSettlement`: the payout that a vote carries, under the vote's own id. -/
def voteSettlement (raw : NostrEvent) (p : VotePayload) : Option SettlementMessage :=
  p.onchainRelease.map fun payload => ⟨raw, payload⟩

/-- `atomicReleaseError`: a principal's on-chain RELEASE carries a payout that matches the winner's
choice. -/
def atomicReleaseError (state : EscrowState) (raw : NostrEvent) (p : VotePayload) :
    Except JsError (Option String) :=
  if state.lock.onchain.isNone ∨ p.outcome ≠ .release ∨ p.role = .arbiter then
    .ok (if p.onchainRelease.isSome then
      some "Payout signature is only valid on a principal on-chain RELEASE." else none)
  else
    match voteSettlement raw p with
    | none => .ok (if state.onchainAtomicRelease = some true then
        some "Choose or sign the payout before confirming." else none)
    | some message =>
      if message.payload.role ≠ p.role ∨ message.payload.leaf ≠ .coop
          ∨ message.payload.final = some true then
        .ok (some "The vote must carry this participant’s cooperative payout.")
      else do
        let choice ← winnerSettlementChoice host
          { state with settlements := state.settlements ++ [message] }
        match settlementWinner state, choice with
        | some (_, winnerRole), some choice =>
          let id ← host.unsignedId message.payload.psbt
          if choice.id ≠ id then
            return some "The payout does not match the winner’s verified choice."
          else if p.role ≠ winnerRole ∧ !choice.locked then
            return some
              "Confirming requires a valid Bitcoin signature from the releasing participant."
          else return none
        | _, _ => return some "The payout does not match the winner’s verified choice."

/-! ### Stalled payouts -/

def stalledPayoutWait : JsNumber := 86400

structure StalledEligibility where
  winner : String
  winnerRole : Role
  choice : SettlementChoice
  ready : Bool

def stalledPayoutEligibility (state : EscrowState) (now : JsNumber) :
    Except JsError (Option StalledEligibility) :=
  match state.resolvedAt, payoutRecipientFor state .release with
  | some resolvedAt, some (winner, winnerRole) =>
    let other := if winnerRole = .buyer then Role.seller else .buyer
    if state.lock.onchain.isNone ∨ state.status ≠ .approved
        ∨ state.resolvedOutcome ≠ some .release ∨ isArbitrated state
        ∨ state.votes.get other ≠ some .release then .ok none
    else do
      match ← winnerSettlementChoice host state with
      | none => return none
      | some choice =>
        if choice.locked then return none
        else
          let ready := resolvedAt + stalledPayoutWait ≤ now
          return some { winner, winnerRole, choice, ready }
  | _, _ => .ok none

/-! ### Settlement proofs -/

structure SettlementProof where
  txid : String
  destination : JsValue
  sats : String

/-- `authorizedDirectPayout`: the destination the winner signed for the same transaction. -/
def authorizedDirectPayout (id : String) (settlements : List SettlementMessage)
    (winnerRole : Role) (winner : String) : Option JsValue :=
  (settlements.find? fun m =>
    m.raw.pubkey = winner && m.payload.role = winnerRole && m.payload.payoutAddress.truthy
      && hasUnsignedId host id m).map fun m => m.payload.payoutAddress

/-- A final settlement on one leaf, from the deposit to the winner.  On the dispute leaf the
signatures of the winner and of the arbiter are checked too. -/
def finalSettlementProof (leaf : SettlementLeaf) (message : SettlementMessage)
    (terms : OnchainLockTerms) (winnerRole : Role) (settlements : List SettlementMessage)
    (winner : String) : Option SettlementProof :=
  if message.payload.final ≠ some true ∨ message.payload.leaf ≠ leaf then none
  else
    let psbt := message.payload.psbt
    let escrow := terms.toOnchainFundingTerms
    let proof : Except JsError (Option SettlementProof) := do
      let address ← host.escrowAddress escrow
      let utxos ← host.inputs psbt
      let id ← host.unsignedId psbt
      let destination ←
        match authorizedDirectPayout host id settlements winnerRole winner with
        | some direct => pure direct
        | none => .str <$> host.taprootAddress (termsKey escrow winnerRole) terms.network
      let disputeSigned := leaf ≠ .arbiter
        || (host.hasValidSignature psbt escrow winnerRole .arbiter
          && host.hasValidSignature psbt escrow .arbiter .arbiter)
      if address ≠ terms.address then return none
      else if !(utxos.any fun u => u.txid = terms.fundingTxid ∧ u.index = terms.fundingVout) then
        return none
      else if !host.settlementVerifies psbt escrow destination leaf then return none
      else if !disputeSigned || !host.finalizes psbt escrow leaf then return none
      else return some { txid := id, destination, sats := ← host.outputSats psbt }
    match proof with
    | .ok found => found
    | .error _ => none

def finalCoopSettlementProof (message : SettlementMessage) (terms : OnchainLockTerms)
    (winnerRole : Role) (settlements : List SettlementMessage) (winner : String) :
    Option SettlementProof :=
  finalSettlementProof host .coop message terms winnerRole settlements winner

def finalArbiterSettlementProof (message : SettlementMessage) (terms : OnchainLockTerms)
    (winnerRole : Role) (settlements : List SettlementMessage) (winner : String) :
    Option SettlementProof :=
  finalSettlementProof host .arbiter message terms winnerRole settlements winner

/-- `finalRefundSettlementProof`: the funder's own signed refund. -/
def finalRefundSettlementProof (message : SettlementMessage) (terms : OnchainFundingTerms) :
    Bool :=
  message.payload.final = some true && message.payload.leaf = .refund
    && message.payload.role = terms.funder.role
    && (match host.escrowAddress terms, host.inputs message.payload.psbt,
          host.taprootAddress (termsKey terms terms.funder.role) terms.network with
      | .ok address, .ok _, .ok destination =>
        address = terms.address
          && host.settlementVerifies message.payload.psbt terms (.str destination) .refund
          && host.hasValidSignature message.payload.psbt terms terms.funder.role .refund
          && host.finalizes message.payload.psbt terms .refund
      | _, _, _ => false)

end ChamaEscrow
