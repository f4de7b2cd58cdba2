import ChamaEscrow.Engine.Circles
import ChamaEscrow.Engine.Onchain
import ChamaEscrow.Engine.Seats
import Mathlib.Data.List.Lex

/-!
# Custody

The two handlers that commit custody (`state-machine.ts`): LOCK, which funds a trade and freezes its
seats, and LOCK_STEP, by which a funder releases the two shares a LOCK held back.

A LOCK passes a series of gates, each a definition of its own in the order the handler runs them;
`lockedState` is the state it leaves.
-/

namespace ChamaEscrow

open Js Library

variable (host : Host)

/-! ### Helpers -/

def shareIndexForRole : Role → JsNumber
  | .buyer => 0
  | .seller => 1
  | .arbiter => 2

/-- `menuSelectorRoleFor`: who orders from the menu. -/
def menuSelectorRoleFor (category : String) : Role :=
  if category = "lending" then .seller else .buyer

/-- The role that funds a trade; anyone may fund one of another category. -/
def expectedLocker (state : EscrowState) : Option Role :=
  if buyerFunds state then some .buyer
  else if state.category = "lending" ∨ state.category = "p2p-trade"
      ∨ state.category = "bill-pay" then some .seller
  else none

def shortKey (key : String) : String := String.ofList (key.toList.take 8)

/-- `if (problem) return err(...)` for a check that names its code too. -/
def guardProblem (problem : Option (ErrorCode × String)) (eventId : String) : Step Unit :=
  match problem with
  | some (code, message) => .error (.reject ⟨code, message, eventId⟩)
  | none => .ok ()

@[simp]
theorem guardProblem_eq_ok {problem : Option (ErrorCode × String)} {eventId : String} {u : Unit} :
    guardProblem problem eventId = .ok u ↔ problem = none := by
  rcases problem with _ | ⟨code, message⟩ <;> simp [guardProblem]

/-! ### Gates of a LOCK -/

/-- The money-path rules: a committed pool, and a time close to the signed one. -/
def lockHardeningGate (state : EscrowState) (event : ParsedEscrowEvent) (p : LockPayload) :
    Step Unit :=
  if usesMoneyPathHardening state.createdAt then do
    let empty ← js state.communityArbiters.lengthIsZero
    guardErr empty .arbiterPoolEmpty "Cannot lock without a committed arbiter pool" event.id
    guardErr (!p.lockedAt.isSafeInteger
        ∨ lockTimestampSkewSeconds < (p.lockedAt - event.timestamp).abs) .lockTimestampSkew
      "LOCK lockedAt must be within five minutes of its signed event timestamp" event.id
  else .ok ()

def lockIsOutsideRound (state : EscrowState) (at_ : JsNumber) : Except JsError Bool :=
  if at_ < state.createdAt then .ok true
  else
    match state.chamaCircle with
    | some circle => .ok (circle.fillDeadlineSec ≤ at_)
    | none => .error (.typeError
        "Cannot read properties of undefined (reading 'fillDeadlineSec')")

def shareRecipients (entries : List JsValue) (index : ℕ) : Option JsValue :=
  match entries.filter fun share =>
      (share.getOptional "shareIndex").strictEq (.num (.ofInt index)) with
  | [share] => some (share.getOptional "encryptedFor")
  | _ => none

/-- Whether a ciphertext record addresses exactly these holders. -/
def routesTo (recipients : JsValue) (holders : List (Option String)) : Bool :=
  recipients.truthy && recipients.ownKeys.length = holders.length
    && holders.all fun pk => (recipients.member (pk.getD "null")).text?.any fun s => s ≠ ""

/-- The custody rules of a circle share: on time, with the committed seats, and each of the three
ciphertexts for its committed holders. -/
def chamaLockGate (state : EscrowState) (event : ParsedEscrowEvent) (p : LockPayload) :
    Step Unit :=
  if state.chamaPolicy.isSome then do
    let late ← js (lockIsOutsideRound state event.timestamp)
    guardErr (late ∨ !p.lockedAt.strictEq event.timestamp
        ∨ some p.buyerPubkey ≠ state.participants.buyer
        ∨ some p.arbiterPubkey ≠ state.participants.arbiter ∨ p.arbiterPoolShare ≠ some true
        ∨ !p.arbiterFeeMsats.strictEq 0 ∨ !p.sellerReceivesMsats.strictEq state.amountMsats)
      .invalidChamaLock "Share LOCK must be on time with committed seats and pool healing" event.id
    match p.shares with
    | .arr entries => do
      guardErr (!p.sharePolicy.isText "holder-only-v1" ∨ !p.notesHash.truthy
          ∨ entries.length ≠ 3) .invalidChamaLock
        "Shares require holder-only encrypted custody" event.id
      let order ← js (arbiterPriorityOrder state)
      let holders := [[state.participants.buyer], [state.participants.seller], order.map some]
      guardErr (!(holders.zipIdx.all fun (holders, index) =>
          (shareRecipients entries index).any fun recipients => routesTo recipients holders))
        .invalidChamaLock "Share ciphertext must route only to its committed holders" event.id
    | _ => .error (.reject ⟨.invalidChamaLock, "Shares require holder-only encrypted custody",
        event.id⟩)
  else .ok ()

def lockerGate (state : EscrowState) (event : ParsedEscrowEvent) (p : LockPayload) : Step Role :=
  let held :=
    if state.onchainFundingTerms.isSome ∧ p.onchain.isSome then getRole state event.pubkey
    else getActiveRole state event.pubkey event.timestamp
  match held with
  | none => .error (.reject ⟨.notParticipant, "Locker is not a participant", event.id⟩)
  | some lockerRole => do
    guardNone (((expectedLocker state).filter fun expected => lockerRole ≠ expected).map
        fun expected =>
          s!"In {state.category}, only the {expected} can lock the escrow")
      .wrongLocker event.id
    return lockerRole

/-- The occupant a LOCK has to name: raw under funding terms, else within the grace of the hold. -/
def joinedAtLock (state : EscrowState) (event : ParsedEscrowEvent) (role : Role) :
    Option String :=
  if state.onchainFundingTerms.isSome then truthyKey (state.participants.get role)
  else getEffectiveParticipantAt state role event.timestamp joinHoldLockGraceSeconds

/-- The buyer and the arbiter that a LOCK names: those who joined, from the pool, and three keys in
all. -/
def lockSeatsGate (state : EscrowState) (event : ParsedEscrowEvent) (p : LockPayload) :
    Step Unit := do
  guardErr (p.buyerPubkey = "") .missingBuyerPubkey
    "LOCK payload must carry buyerPubkey (the npub whose payment triggered the lock)" event.id
  guardErr (p.arbiterPubkey = "") .missingArbiterPubkey
    "LOCK payload must carry arbiterPubkey (chosen from the communityArbiters pool)" event.id
  guardNone (((joinedAtLock state event .buyer).filter fun pk => pk ≠ p.buyerPubkey).map
      fun joined =>
        s!"LOCK buyerPubkey {shortKey p.buyerPubkey}… disagrees with prior JOIN {shortKey joined}…")
    .buyerPubkeyMismatch event.id
  guardNone (((joinedAtLock state event .arbiter).filter fun pk => pk ≠ p.arbiterPubkey).map
      fun joined =>
        s!"LOCK arbiterPubkey {shortKey p.arbiterPubkey}… disagrees with prior JOIN {shortKey joined}…")
    .arbiterPubkeyMismatch event.id
  guardErr (!(← js (poolAdmits state.communityArbiters p.arbiterPubkey))) .arbiterNotInPool
    "LOCK arbiterPubkey is not in this trade's communityArbiters pool" event.id
  let sellerPk := truthyKey state.participants.seller
  guardErr (sellerPk = some p.buyerPubkey ∨ sellerPk = some p.arbiterPubkey
      ∨ p.buyerPubkey = p.arbiterPubkey) .duplicateParticipant
    "LOCK assigns the same pubkey to multiple roles" event.id

/-- `shares && shares.length > 0`. -/
def carriesShares (shares : JsValue) : Except JsError Bool :=
  if shares.truthy then shares.hasLength else .ok false

/-- The custody a LOCK commits: on-chain terms and no shares, or exactly three shares. -/
def lockRailGate (state : EscrowState) (event : ParsedEscrowEvent) (p : LockPayload) :
    Step Unit :=
  match p.onchain with
  | some terms => do
    guardNone (← js (onchainLockError host state terms event.timestamp)) .invalidOnchainLock
      event.id
    guardErr (some p.buyerPubkey ≠ state.participants.buyer
        ∨ some p.arbiterPubkey ≠ state.participants.arbiter) .invalidOnchainLock
      "LOCK changed frozen participants" event.id
    guardErr (← js (carriesShares p.shares)) .invalidShares
      "An on-chain LOCK must not carry SSS shares — there are no notes to split" event.id
  | none => guardErr (!(p.shares.truthy
        && (p.shares.getOptional "length").strictEq (.num 3))) .invalidShares
      "LOCK must include exactly 3 SSS shares" event.id

/-- What is wrong with one entry of a LOCK that withholds shares.  The funder's own share is
encrypted to the funder, another one carries its commitment alone. -/
def withheldEntryError (locker : String) (ownIndex : JsNumber) (share : JsValue) :
    Except JsError (Option String) := do
  let index ← share.get "shareIndex"
  let recipients := ((← share.get "encryptedFor").orElse (.obj [])).ownKeys
  let commitment ← share.get "commitment"
  if index.strictEq (.num ownIndex) then
    return if recipients ≠ [locker] ∨ !commitment.isUndefined then
      some "A withheld-shares LOCK carries only the funder's own share, encrypted to the funder"
      else none
  else
    return if recipients ≠ [] ∨ commitment.text?.isNone then
      some "A withheld share carries only its commitment"
      else none

def withheldCommitments (event : ParsedEscrowEvent) (ownIndex : JsNumber) :
    List JsValue → OrderedMap String String → Step (OrderedMap String String)
  | [], commitments => .ok commitments
  | share :: rest, commitments => do
    guardNone (← js (withheldEntryError event.pubkey ownIndex share)) .invalidShares event.id
    let index ← js (share.get "shareIndex")
    if index.strictEq (.num ownIndex) then withheldCommitments event ownIndex rest commitments
    else do
      let key ← js index.print
      let commitment ← js (share.get "commitment")
      withheldCommitments event ownIndex rest
        (commitments.set key (commitment.text?.getD ""))

/-- The shares a LOCK holds back, if it does: under the dated rules, on ecash, by a principal. -/
def withheldGate (state : EscrowState) (event : ParsedEscrowEvent) (p : LockPayload)
    (lockerRole : Role) : Step (Option Withheld) :=
  if p.withheldShares ≠ some true then .ok none
  else do
    guardErr (!usesWithheldShares state.createdAt ∨ p.onchain.isSome ∨ state.chamaPolicy.isSome
        ∨ !p.sharePolicy.isText "holder-only-v1" ∨ !lockerRole.isPrincipal) .invalidShares
      "Withheld shares are only valid on an ecash trade created under the refused-lock rules"
      event.id
    let entries ← js p.shares.spread
    let lockerShareIndex := shareIndexForRole lockerRole
    let commitments ← withheldCommitments event lockerShareIndex entries .empty
    -- Three entries hold three indices at most, so these are all of them.
    guardErr (!([0, 1, 2] : List JsNumber).all fun index =>
        entries.any fun share => (share.getOptional "shareIndex").strictEq (.num index))
      .invalidShares "LOCK shares must be indices 0, 1 and 2" event.id
    return some { lockerPubkey := event.pubkey, lockerShareIndex, commitments }

/-! ### The order of a menu listing -/

def isAmountBracket (item : MenuItem) : Bool :=
  item.kind = some .exchangeBracket || item.minAmountMsats.isSome || item.maxAmountMsats.isSome

def bracketError (item : MenuItem) (selected : SelectedMenuItem) :
    Option (ErrorCode × String) :=
  if !selected.quantity.strictEq 1 then
    some (.menuItemMismatch, "LOCK selected bracket items must use quantity 1")
  else if selected.amountMsats < item.minAmountMsats.getD item.amountMsats
      ∨ item.maxAmountMsats.getD item.amountMsats < selected.amountMsats then
    some (.menuItemMismatch, "LOCK selected bracket amount must be within the listing min/max")
  else if selected.kind.isSome ∧ selected.kind ≠ item.kind then
    some (.menuItemMismatch, "LOCK selectedItems must snapshot the listing menu item kind")
  else if selected.fiatCurrency.isSome ∧ selected.fiatCurrency ≠ item.fiatCurrency then
    some (.menuItemMismatch, "LOCK selectedItems must keep the listing fiat currency")
  else none

/-- What is wrong with one selected item; `seen` are the items already selected. -/
def selectedItemError (items : List MenuItem) (seen : List String)
    (selected : SelectedMenuItem) : Option (ErrorCode × String) :=
  match items.reverse.find? fun item => item.id = selected.itemId with
  | none => some (.unknownMenuItem,
      s!"LOCK selected menu item {selected.itemId} is not on this listing")
  | some item =>
    if selected.itemId ∈ seen then
      some (.duplicateMenuItem, "LOCK selectedItems must merge quantities per item")
    else if item.label ≠ selected.label then
      some (.menuItemMismatch, "LOCK selectedItems must snapshot the listing menu item label")
    else if !selected.quantity.isInteger ∨ selected.quantity < 1 then
      some (.quantityInvalid,
        s!"LOCK quantity for {item.label} must be a whole number of at least 1")
    else
      match item.maxQuantity.filter fun cap => cap < selected.quantity with
      | some cap => some (.quantityExceeded,
          s!"LOCK quantity {selected.quantity} exceeds the {cap}-unit limit on {item.label}")
      | none =>
        if isAmountBracket item then bracketError item selected
        else if !item.amountMsats.strictEq selected.amountMsats then
          some (.menuItemMismatch,
            "LOCK selectedItems must snapshot the listing menu item amount")
        else none

/-- The first problem of an order. -/
def selectedItemsError (items : List MenuItem) :
    List SelectedMenuItem → (seen : List String) → Option (ErrorCode × String)
  | [], _ => none
  | selected :: rest, seen =>
    (selectedItemError items seen selected).or
      (selectedItemsError items rest (selected.itemId :: seen))

/-- Whether one text sorts before another, by UTF-16 code units. -/
def textLe (s t : String) : Bool :=
  s.toList.flatMap charCodes ≤ t.toList.flatMap charCodes

/-- `selectedItemsKey`: an order as one text, whatever the order of its items. -/
def selectedItemsKey (items : List SelectedMenuItem) : String :=
  let texts := items.map fun item => ":".intercalate [item.itemId, item.label,
    toString item.amountMsats, toString item.quantity, (item.kind.map toString).getD "",
    item.fiatCurrency.getD ""]
  "|".intercalate (texts.insertionSort fun s t => textLe s t = true)

def holdsFinalOrder (hold : JoinHold) (at_ : JsNumber) : Bool :=
  !(hold.expiresAt + joinHoldLockGraceSeconds ≤ at_) && isSet hold.orderFinalizedAt
    && !(at_ < hold.joinedAt) && !(hold.orderFinalizedAt.any fun t => at_ < t)

def finalizedOrderGate (state : EscrowState) (event : ParsedEscrowEvent)
    (selected : List SelectedMenuItem) : Step Unit :=
  let selector := menuSelectorRoleFor state.category
  if (expectedLocker state).any fun expected => expected ≠ selector then
    match (state.joinHolds.get selector).filter fun hold =>
        holdsFinalOrder hold event.timestamp with
    | none => .error (.reject ⟨.orderNotFinalized,
        s!"LOCK must wait for the {selector} to finalize the order", event.id⟩)
    | some hold =>
      guardErr (selectedItemsKey (hold.selectedItems.getD []) ≠ selectedItemsKey selected)
        .orderMismatch "LOCK selectedItems must match the finalized order" event.id
  else .ok ()

/-- The order of a LOCK and the amount it has to fund: the order's total on a menu listing, the
trade's amount on any other. -/
def lockOrderGate (state : EscrowState) (event : ParsedEscrowEvent) (p : LockPayload) :
    Step JsNumber :=
  let selected := ((p.selectedItems.getD []).map cloneSelectedMenuItem)
  match state.items with
  | none | some [] => do
    guardErr (selected ≠ []) .unexpectedSelectedItems
      "LOCK selectedItems can only be used on menu listings" event.id
    return state.amountMsats
  | some items => do
    guardErr (selected = []) .missingSelectedItems
      "LOCK on a menu listing must include selectedItems" event.id
    guardProblem (selectedItemsError items selected []) event.id
    finalizedOrderGate state event selected
    let total := selectedItemsTotalMsats selected
    guardErr (total ≤ 0) .invalidMenuTotal "LOCK selectedItems must total a positive amount"
      event.id
    return total

/-- The amounts of a LOCK: the deposit covers the expected amount, and the fee split adds up to it,
with or without the platform fee of an old LOCK. -/
def lockAmountGate (event : ParsedEscrowEvent) (p : LockPayload) (expected : JsNumber) :
    Step Unit := do
  let short ← js (match p.onchain with
    | none => .ok false
    | some terms => do return digitsValue terms.amountSats * 1000 < (← bigInt expected))
  guardErr short .invalidOnchainLock "Deposit is below the selected order amount" event.id
  let newSum := p.sellerReceivesMsats + p.arbiterFeeMsats
  let legacySum := newSum + p.platformFeeMsats.number?.getD 0
  guardErr (!newSum.strictEq expected ∧ !legacySum.strictEq expected) .amountMismatch
    s!"Fee split ({newSum}) doesn't match escrow amount ({expected})" event.id

/-! ### LOCK -/

def collectShares : List JsValue → OrderedMap String JsValue →
    Except JsError (OrderedMap String JsValue)
  | [], shares => .ok shares
  | share :: rest, shares => do
    let key ← (← share.get "shareIndex").print
    collectShares rest (shares.set key share)

def lockDeadline (state : EscrowState) (p : LockPayload) : JsNumber :=
  if state.chamaPolicy.isSome then state.expiresAt else p.lockedAt + tradeTimeoutSecondsFor state

/-- What a LOCK writes into `lock`. -/
def lockDetails (lock : LockDetails) (p : LockPayload) (shares : OrderedMap String JsValue)
    (withheld : Option Withheld) : LockDetails :=
  { lock with
    notesHash := p.notesHash
    onchain := p.onchain.or lock.onchain
    lockedAt := some p.lockedAt
    selectedItems := p.selectedItems.map fun items => items.map cloneSelectedMenuItem
    sharePolicy := p.sharePolicy
    arbiterPoolShare := p.arbiterPoolShare
    substitutionGraceSeconds :=
      match p.substitutionGraceSeconds with
      | some v => if v.isFinite then some (clampSubstitutionGraceSeconds v)
          else lock.substitutionGraceSeconds
      | none => lock.substitutionGraceSeconds
    shares
    withheld := withheld.or lock.withheld }

/-- The state a LOCK leaves; `next` is the copy of `state` it is written into. -/
def lockedState (state next : EscrowState) (event : ParsedEscrowEvent) (p : LockPayload)
    (amount : JsNumber) (shares : OrderedMap String JsValue) (withheld : Option Withheld) :
    EscrowState :=
  { next with
    status := .locked
    amountMsats := amount
    lock := lockDetails next.lock p shares withheld
    listingExpiresAt := some (state.listingExpiresAt.getD state.expiresAt)
    tradeTimeoutSeconds := some (tradeTimeoutSecondsFor state)
    expiresAt := lockDeadline state p
    participants :=
      { next.participants with buyer := some p.buyerPubkey, arbiter := some p.arbiterPubkey }
    fees := { next.fees with
      platformMsats := p.platformFeeMsats.orElse (.num 0)
      arbiterMsats := sanitizeArbiterFeeMsats (.num p.arbiterFeeMsats) amount }
    eventChain := next.push event }

def handleLock (state : EscrowState) (event : ParsedEscrowEvent) (p : LockPayload) :
    Step EscrowState := do
  lockHardeningGate state event p
  guardErr (state.category = "chama") .chamaManifest "Circle parents cannot hold funds" event.id
  chamaLockGate state event p
  guardErr (state.status ≠ .created) .invalidState s!"Cannot LOCK in state {state.status}" event.id
  let lockerRole ← lockerGate state event p
  lockSeatsGate state event p
  lockRailGate host state event p
  let withheld ← withheldGate state event p lockerRole
  let amount ← lockOrderGate state event p
  lockAmountGate event p amount
  let lockMode := if p.onchain.isSome then EscrowMode.onchain else .ecash
  guardErr (state.escrowMode ≠ lockMode) .escrowModeMismatch
    s!"This trade was created as {state.escrowMode} escrow but the LOCK is {lockMode}" event.id
  let next ← js (cloneState state)
  let entries ← js ((p.shares.orElse (.arr [])).spread)
  let shares ← js (collectShares entries next.lock.shares)
  return lockedState state next event p amount shares withheld

/-! ### LOCK_STEP -/

def EscrowState.acceptedLock? (s : EscrowState) : Option (ParsedEscrowEvent × LockPayload) :=
  s.eventChain.findSome? fun e =>
    match e.payload with
    | .lock p => some (e, p)
    | _ => none

/-- The principal who did not fund. -/
def lockCounterparty (state : EscrowState) (locker : String) : Option String :=
  if some locker = state.participants.buyer then state.participants.seller
  else if some locker = state.participants.seller then state.participants.buyer
  else none

/-- Who may receive the arbiter's share: the seated arbiter, and the backups that a pooled LOCK
admits. -/
def arbiterShareHolders (state : EscrowState) (arbiter : String) :
    Except JsError (List String) :=
  if state.lock.arbiterPoolShare = some true then
    arbiterShareRecipientsFor state.id (state.communityArbiters.orElse (.arr []))
      state.participants.buyer state.participants.seller (some arbiter)
  else .ok [arbiter]

def releasedShareError (state : EscrowState) (share : LockShareEntry) :
    Except JsError (Option String) := do
  let recipients := share.encryptedFor.map Prod.fst
  if share.shareIndex.strictEq 2 then
    let problem := some "The arbiter share must go to the seated arbiter and pool backups only"
    match truthyKey state.participants.arbiter with
    | none => return problem
    | some arbiter =>
      let allowed ← arbiterShareHolders state arbiter
      return if recipients.length ≠ allowed.length ∨ !(allowed.all fun pk => pk ∈ recipients)
          ∨ recipients.any (fun pk => some pk = state.participants.buyer
            || some pk = state.participants.seller) then problem else none
  else
    let holder :=
      if share.shareIndex.strictEq 0 then state.participants.buyer
      else state.participants.seller
    return match truthyKey holder with
      | some holder => if recipients = [holder] then none
          else some "A principal's share must go to that principal alone"
      | none => some "A principal's share must go to that principal alone"

def releasedSharesError (state : EscrowState) :
    List LockShareEntry → Except JsError (Option String)
  | [] => .ok none
  | share :: rest => do
    match ← releasedShareError state share with
    | some problem => return some problem
    | none => releasedSharesError state rest

def releasedShare (share : LockShareEntry) : JsValue :=
  .obj [("shareIndex", .num share.shareIndex),
    ("encryptedFor", .obj (share.encryptedFor.map fun (pk, text) => (pk, .str text)))]

def storeReleased (shares : OrderedMap String JsValue) (released : List LockShareEntry) :
    OrderedMap String JsValue :=
  released.foldl (fun shares share => shares.set (toString share.shareIndex) (releasedShare share))
    shares

def releasesWithheld (withheld : Withheld) (released : List LockShareEntry) : Bool :=
  let expected := ([0, 1, 2] : List JsNumber).filter fun index =>
    !index.strictEq withheld.lockerShareIndex
  let indices := (released.map LockShareEntry.shareIndex).map toString
  ",".intercalate (indices.insertionSort fun s t => textLe s t = true)
    = ",".intercalate (expected.map toString)

/-- The `accept` step: the principal who did not fund replies to the LOCK.  It never enters the
chain, whose tip later events reply to. -/
def acceptLock (state : EscrowState) (event lock : ParsedEscrowEvent) : Step EscrowState := do
  guardErr (truthyKey (lockCounterparty state lock.pubkey) ≠ some event.pubkey) .notParticipant
    "Only the principal who did not fund can accept this LOCK" event.id
  guardErr (event.prevEventId ≠ some lock.id) .lockStepOrder
    "An accept replies to the LOCK it accepts" event.id
  guardErr (truthyKey state.lock.acceptEventId).isSome .alreadyAccepted
    "This LOCK is already accepted" event.id
  let next ← js (cloneState state)
  return { next with lock := { next.lock with
    acceptedBy := some event.pubkey
    acceptEventId := some event.id } }

/-- The `release` step: the funder sends the shares it held back, in reply to the accept. -/
def releaseShares (state : EscrowState) (event : ParsedEscrowEvent)
    (released : List LockShareEntry) : Step EscrowState :=
  match state.lock.withheld with
  | none => .error (.reject ⟨.lockStepNoLock, "This LOCK withheld no shares", event.id⟩)
  | some withheld => do
    guardErr (event.pubkey ≠ withheld.lockerPubkey) .notParticipant
      "Only the funder can release the withheld shares" event.id
    guardErr (truthyKey withheld.releaseEventId).isSome .alreadyReleased
      "These shares are already released" event.id
    guardErr ((truthyKey state.lock.acceptEventId).isNone
        ∨ event.prevEventId ≠ state.lock.acceptEventId) .lockStepOrder
      "A release replies to the accept of its LOCK" event.id
    guardErr (!releasesWithheld withheld released) .invalidShares
      "A release carries exactly the two withheld shares" event.id
    guardNone (← js (releasedSharesError state released)) .invalidShares event.id
    let next ← js (cloneState state)
    return { next with lock := { next.lock with
      shares := storeReleased next.lock.shares released
      withheld := some { withheld with releaseEventId := some event.id } } }

def handleLockStep (state : EscrowState) (event : ParsedEscrowEvent) (p : LockStepPayload) :
    Step EscrowState := do
  guardErr (!usesWithheldShares state.createdAt ∨ state.chamaPolicy.isSome) .lockStepNotInForce
    "The refused-lock rules do not apply to this trade" event.id
  match (state.lockEvent?).filter fun lock =>
      lock.id = p.lockEventId && state.lock.onchain.isNone
        && (state.status = .locked || state.status = .expired) with
  | none => .error (.reject ⟨.lockStepNoLock, "This step names a LOCK the trade does not hold",
      event.id⟩)
  | some lock =>
    match p.step with
    | .withdraw => .error (.reject ⟨.lockWithdrawn,
        "The funder withdrew this LOCK; reload the trade", event.id⟩)
    | .accept => acceptLock state event lock
    | .release => releaseShares state event p.shares

end ChamaEscrow
