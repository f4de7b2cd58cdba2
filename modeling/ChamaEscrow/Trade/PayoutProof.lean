import ChamaEscrow.Bond.SettlementBuild
import ChamaEscrow.Trade.FundingTerms

/-!
# Where a settlement proof pays

A COMPLETE of an on-chain trade links to a final settlement, and `finalCoopSettlementProof` or
`finalArbiterSettlementProof` (`onchain-settlement-transport.ts`) reads off it what was paid.  The
host is made of the settlement checklist here, over a Bitcoin library (`settlementHost`).

`settlement_proof_pays`: a proof is of a transaction from the deposit to one destination, which a
settlement of the winner names or, where none does, is the winner's own key.
-/

namespace ChamaEscrow

open Js Library BondMultisig

/-! ### The checklist as a host -/

def BitcoinNetwork.btc : BitcoinNetwork → BtcNetwork
  | .mainnet => .mainnet
  | .signet => .signet

def Funder.party : Funder → BondMultisig.Funder
  | .buyer => .buyer
  | .seller => .seller

def SettlementLeaf.expected : SettlementLeaf → Option BondMultisig.SettlementLeaf
  | .coop => none
  | .arbiter => some .dispute
  | .refund => some .refund

def blockCount (name : String) : JsNumber → Except JsError ℕ
  | .fin q => if q.den = 1 ∧ 0 ≤ q.num then .ok q.num.toNat
      else .error (.error s!"{name} must be a positive integer")
  | _ => .error (.error s!"{name} must be a positive integer")

variable (base : Host) (btc : BtcBuilder)

/-- `buildOnchainEscrow`, on the terms of a trade. -/
def termsEscrow (terms : OnchainFundingTerms) : Except JsError OnchainEscrow := do
  let buyerXonly ← under .error (btc.hexToBytes terms.buyerXonly)
  let sellerXonly ← under .error (btc.hexToBytes terms.sellerXonly)
  let arbiterXonly ← under .error (btc.hexToBytes terms.arbiterXonly)
  let refundLockUntil ← blockCount "lockUntil" terms.refundLockUntil
  let disputeCsvBlocks ← blockCount "disputeCsvBlocks" terms.disputeCsvBlocks
  under .error (buildOnchainEscrow btc {
    buyerXonly, sellerXonly, arbiterXonly, refundLockUntil, disputeCsvBlocks
    funder := terms.funder.party
    network := terms.network.btc })

def settlementOf (psbt : String) : Except JsError SettlementTx :=
  under .error (decodedSettlement btc.toBtcReader psbt)

def spentUtxo (input : SettlementInput) : Except JsError BondUtxo :=
  match input.txid, input.index, input.witnessUtxo with
  | some txid, some index, some prev => .ok ⟨bytesToHex txid, index, prev.amount⟩
  | _, _, _ => .error (.error "incomplete input")

def ownExpectation (terms : OnchainFundingTerms) (escrow : OnchainEscrow) (utxos : List BondUtxo)
    (destination : String) (leaf : SettlementLeaf) : SettlementExpectation where
  escrow := escrow
  utxos := utxos
  destination := destination
  maxFeeSats := totalSats utxos
  network := some terms.network.btc
  leaf := leaf.expected
  tipHeight := if leaf = .refund then some terms.refundLockUntil else none

def checksOut (psbt : String) (terms : OnchainFundingTerms) (destination : JsValue)
    (leaf : SettlementLeaf) : Except JsError Bool := do
  let escrow ← termsEscrow btc terms
  let tx ← settlementOf btc psbt
  let utxos ← tx.inputs.mapM spentUtxo
  match destination with
  | .str destination =>
    let check ← under .error (verifySettlementPsbt
      (ownExpectation terms escrow utxos destination leaf) btc.toBtcReader psbt)
    return check.ok
  -- the text of an address is no value of another type
  | _ => return false

def settlementHost : Host :=
  { base with
    escrowAddress := fun terms => OnchainEscrow.address <$> termsEscrow btc terms
    inputs := fun psbt => do
      let tx ← settlementOf btc psbt
      let utxos ← tx.inputs.mapM spentUtxo
      return utxos.map fun u => ⟨u.txid, .ofInt u.index, u.amountSats.toNat⟩
    outputSats := fun psbt => do
      let tx ← settlementOf btc psbt
      match tx.outputs with
      | { amount := some amount, .. } :: _ => return toString amount
      | _ => .error (.typeError "Cannot read properties of undefined (reading 'toString')")
    settlementVerifies := fun psbt terms destination leaf =>
      (checksOut btc psbt terms destination leaf).toOption = some true }

/-! ### What a proof says -/

/-- What a final settlement of a trade proves, on either leaf. -/
def settlementProof (host : Host) (state : EscrowState) (message : SettlementMessage) :
    Option SettlementProof :=
  match state.lock.onchain, getWinner state with
  | some terms, some (winner, winnerRole) =>
    (finalArbiterSettlementProof host message terms winnerRole state.settlements winner).or
      (finalCoopSettlementProof host message terms winnerRole state.settlements winner)
  | _, _ => none

def PaysAddress (network : BtcNetwork) (address : String) (out : SettlementOutput) : Prop :=
  ∃ script, out.script = some script ∧ btc.scriptAddress network script = .ok address

def NamedBy (winner : String) (winnerRole : Role) (settlements : List SettlementMessage)
    (txid : String) (destination : JsValue) : Prop :=
  ∃ m ∈ settlements, m.raw.pubkey = winner ∧ m.payload.role = winnerRole ∧
    hasUnsignedId base txid m = true ∧ m.payload.payoutAddress.truthy = true ∧
    m.payload.payoutAddress = destination

variable {base btc} {terms : OnchainLockTerms} {winner : String} {winnerRole : Role}
  {settlements : List SettlementMessage} {message : SettlementMessage} {proof : SettlementProof}
  {psbt txid : String} {leaf : SettlementLeaf}

theorem outpoint_of_spentUtxo {input : SettlementInput} {u : BondUtxo}
    (h : spentUtxo input = .ok u) : input.outpoint = u.outpoint := by
  unfold spentUtxo at h
  split at h
  · rename_i htxid hindex _
    obtain rfl := Except.ok.inj h
    unfold SettlementInput.outpoint SettlementInput.txidText BondUtxo.outpoint
    rw [htxid, hindex]
    rfl
  · cases h

theorem exists_input_of_inputs {utxos : List Utxo} {u : Utxo}
    (h : (settlementHost base btc).inputs psbt = .ok utxos) (hu : u ∈ utxos) :
    ∃ tx, decodedSettlement btc.toBtcReader psbt = .ok tx ∧
      ∃ input ∈ tx.inputs, ∃ vout : ℕ,
        input.outpoint = (u.txid, some vout) ∧ .ofInt vout = u.index := by
  obtain ⟨tx, htx, h⟩ := bind_eq_ok.mp h
  obtain ⟨spent, hspent, h⟩ := bind_eq_ok.mp h
  obtain rfl := pure_eq_ok.mp h
  obtain ⟨v, hv, rfl⟩ := List.mem_map.mp hu
  obtain ⟨input, hinput, hv⟩ := exists_of_mapM_eq_ok hspent v hv
  exact ⟨tx, under_eq_ok.mp htx, input, hinput, v.index, outpoint_of_spentUtxo hv, rfl⟩

theorem pays_of_settlementVerifies {terms : OnchainFundingTerms} {destination : JsValue}
    (h : (settlementHost base btc).settlementVerifies psbt terms destination leaf = true) :
    ∃ tx text out, decodedSettlement btc.toBtcReader psbt = .ok tx ∧ destination = .str text ∧
      tx.outputs = [out] ∧
      (text ≠ "(undecodable)" → PaysAddress btc terms.network.btc text out) := by
  have hchecks : checksOut btc psbt terms destination leaf = .ok true :=
    toOption_eq_some.mp (of_decide_eq_true h)
  obtain ⟨escrow, -, hchecks⟩ := bind_eq_ok.mp hchecks
  obtain ⟨tx, htx, hchecks⟩ := bind_eq_ok.mp hchecks
  obtain ⟨utxos, -, hchecks⟩ := bind_eq_ok.mp hchecks
  have htx := under_eq_ok.mp htx
  cases destination with
  | str text =>
    obtain ⟨check, hcheck, hok⟩ := bind_eq_ok.mp hchecks
    have hpasses : Passes (ownExpectation terms escrow utxos text leaf) btc.toBtcReader psbt :=
      ⟨check, under_eq_ok.mp hcheck, pure_eq_ok.mp hok⟩
    obtain ⟨out, hout, haddress, -⟩ := safe_of_clean ((passes_iff htx).mp hpasses)
    refine ⟨tx, text, out, htx, rfl, hout, fun hne => ?_⟩
    rcases @paysTo_or_undecodable _ btc.toBtcReader out with hpays | ⟨htext, -⟩
    · rwa [haddress] at hpays
    · exact absurd (haddress.symm.trans htext) hne
  | _ => cases pure_eq_ok.mp hchecks

variable {host : Host}

theorem namedBy_of_authorizedDirectPayout {direct : JsValue}
    (h : authorizedDirectPayout host txid settlements winnerRole winner = some direct) :
    NamedBy host winner winnerRole settlements txid direct := by
  unfold authorizedDirectPayout at h
  obtain ⟨m, hm, rfl⟩ := Option.map_eq_some_iff.mp h
  have htest := List.find?_some hm
  simp only [Bool.and_eq_true, decide_eq_true_eq] at htest
  obtain ⟨⟨⟨hauthor, hrole⟩, htruthy⟩, hid⟩ := htest
  exact ⟨m, List.mem_of_find?_eq_some hm, hauthor, hrole, hid, htruthy, rfl⟩

theorem not_namedBy_of_none
    (h : authorizedDirectPayout host txid settlements winnerRole winner = none)
    (destination : JsValue) : ¬ NamedBy host winner winnerRole settlements txid destination := by
  rintro ⟨m, hm, hauthor, hrole, hid, htruthy, -⟩
  unfold authorizedDirectPayout at h
  rw [Option.map_eq_none_iff] at h
  exact List.find?_eq_none.mp h m hm (by simp [hauthor, hrole, htruthy, hid])

def SpendsDeposit (terms : OnchainLockTerms) (tx : SettlementTx) : Prop :=
  ∃ input ∈ tx.inputs, ∃ vout : ℕ,
    input.outpoint = (terms.fundingTxid, some vout) ∧ .ofInt vout = terms.fundingVout

/-- The destination that a trade's winner has: named by a settlement of the winner, or, where none
names one, the address of the winner's own key. -/
def IsWinners (base : Host) (terms : OnchainLockTerms) (winner : String) (winnerRole : Role)
    (settlements : List SettlementMessage) (txid : String) (destination : JsValue) : Prop :=
  NamedBy base winner winnerRole settlements txid destination ∨
    (∀ other, ¬ NamedBy base winner winnerRole settlements txid other) ∧
      ∃ address, base.taprootAddress (termsKey terms.toOnchainFundingTerms winnerRole)
        terms.network = .ok address ∧ destination = .str address

/-- What a proof that may throw has found. -/
def foundProof (found : Except JsError (Option SettlementProof)) : Option SettlementProof :=
  match found with
  | .ok proof => proof
  | .error _ => none

theorem foundProof_eq_some {found : Except JsError (Option SettlementProof)} :
    foundProof found = some proof ↔ found = .ok (some proof) := by
  cases found <;> simp [foundProof]

theorem pays_of_finalSettlementProof
    (h : finalSettlementProof (settlementHost base btc) leaf message terms winnerRole settlements
      winner = some proof) :
    ∃ tx text out, decodedSettlement btc.toBtcReader message.payload.psbt = .ok tx ∧
      SpendsDeposit terms tx ∧ proof.destination = .str text ∧ tx.outputs = [out] ∧
      (text ≠ "(undecodable)" → PaysAddress btc terms.network.btc text out) ∧
      base.unsignedId message.payload.psbt = .ok proof.txid ∧
      IsWinners base terms winner winnerRole settlements proof.txid proof.destination := by
  unfold finalSettlementProof at h
  split_ifs at h
  have h := foundProof_eq_some.mp h
  obtain ⟨address, -, h⟩ := bind_eq_ok.mp h
  obtain ⟨utxos, hutxos, h⟩ := bind_eq_ok.mp h
  obtain ⟨id, hid, h⟩ := bind_eq_ok.mp h
  extract_lets disputeSigned goOn at h

  have hfound : ∃ destination,
      IsWinners base terms winner winnerRole settlements id destination ∧
        goOn destination = .ok (some proof) := by
    cases hdirect : authorizedDirectPayout (settlementHost base btc) id settlements winnerRole
        winner with
    | some direct =>
      rw [hdirect] at h
      obtain ⟨destination, hdestination, h⟩ := bind_eq_ok.mp h
      obtain rfl := pure_eq_ok.mp hdestination
      exact ⟨direct, Or.inl (namedBy_of_authorizedDirectPayout hdirect), h⟩
    | none =>
      rw [hdirect] at h
      obtain ⟨destination, hdestination, h⟩ := bind_eq_ok.mp h
      obtain ⟨own, hown, rfl⟩ := map_eq_ok.mp hdestination
      exact ⟨_, Or.inr ⟨not_namedBy_of_none hdirect, own, hown, rfl⟩, h⟩
  obtain ⟨destination, hdestination, h⟩ := hfound
  dsimp only [goOn] at h
  split_ifs at h with haddress hspends hverifies hsigned
  · cases pure_eq_ok.mp h
  · cases pure_eq_ok.mp h
  · cases pure_eq_ok.mp h
  · cases pure_eq_ok.mp h
  obtain ⟨sats, -, h⟩ := bind_eq_ok.mp h
  obtain rfl := Option.some.inj (pure_eq_ok.mp h)
  obtain ⟨tx, text, out, htx, hstr, hout, hpays⟩ :=
    pays_of_settlementVerifies (by simpa using hverifies)
  have hspends : (utxos.any fun u => u.txid = terms.fundingTxid ∧ u.index = terms.fundingVout) =
      true := by simpa using hspends
  obtain ⟨u, hu, hdeposit⟩ := List.any_eq_true.mp hspends
  obtain ⟨htxid, hvout⟩ := of_decide_eq_true hdeposit
  obtain ⟨tx', htx', input, hinput, vout, houtpoint, hindex⟩ := exists_input_of_inputs hutxos hu
  obtain rfl := Except.ok.inj (htx.symm.trans htx')
  refine ⟨tx, text, out, htx, ⟨input, hinput, vout, ?_, ?_⟩, hstr, hout, hpays, hid, hdestination⟩
  · rw [houtpoint, htxid]
  · rw [hindex, hvout]

theorem parties_of_settlementProof {state : EscrowState}
    (h : settlementProof host state message = some proof) : ∃ terms winner winnerRole,
      state.lock.onchain = some terms ∧ getWinner state = some (winner, winnerRole) := by
  unfold settlementProof at h
  cases hterms : state.lock.onchain with
  | none =>
    rw [hterms] at h
    cases h
  | some terms =>
    cases hwinner : getWinner state with
    | none =>
      rw [hterms, hwinner] at h
      cases h
    | some w => exact ⟨terms, w.1, w.2, rfl, rfl⟩

/-- A proof of a trade's final settlement is of a transaction that spends the deposit and has one
output, to a destination that a settlement of the payee names for it; or, where none names one, to
the payee's own key among the terms. -/
theorem settlement_proof_pays {state : EscrowState} (hterms : state.lock.onchain = some terms)
    (hwinner : getWinner state = some (winner, winnerRole))
    (h : settlementProof (settlementHost base btc) state message = some proof) :
    ∃ tx text out, decodedSettlement btc.toBtcReader message.payload.psbt = .ok tx ∧
      SpendsDeposit terms tx ∧ proof.destination = .str text ∧ tx.outputs = [out] ∧
      (text ≠ "(undecodable)" → PaysAddress btc terms.network.btc text out) ∧
      base.unsignedId message.payload.psbt = .ok proof.txid ∧
      IsWinners base terms winner winnerRole state.settlements proof.txid proof.destination := by
  unfold settlementProof at h
  rw [hterms, hwinner] at h
  rcases Option.or_eq_some_iff.mp h with harbiter | ⟨-, hcoop⟩
  · exact pays_of_finalSettlementProof harbiter
  · exact pays_of_finalSettlementProof hcoop

/-! ### A sample payout -/

def hexPairs : List Char → List UInt8
  | high :: low :: rest => (hexDigit high * 16 + hexDigit low).toUInt8 :: hexPairs rest
  | _ => []
where
  /-- The value of a digit in lower case. -/
  hexDigit (c : Char) : ℕ := if c.isDigit then c.toNat - 48 else c.toNat - 87

def sampleSweep (script : UInt8) : SettlementTx where
  inputs := [{
    txid := some (List.replicate 32 0x55)
    index := some 0
    witnessUtxo := some ⟨[7], 1000⟩
    sequence := some sequenceFinalMinusOne }]
  outputs := [⟨some [script], some 900⟩]
  lockTime := 0

/-- A Bitcoin library for the sample trade: a PSBT is the byte of the script it pays, and the parties
whose signatures it has. -/
def payoutBuilder : BtcBuilder where
  base64Decode text := .ok (ofLatin1 text)
  fromPsbt psbt :=
    match psbt with
    | script :: _ => .ok (sampleSweep script)
    | [] => .error "PSBT: empty"
  scriptAddress _ script :=
    if script = [107] then .ok "bc1pkey"
    else if script = [111] then .ok "bc1pold"
    else if script = [110] then .ok "bc1pnew"
    else .error "Unknown script"
  hexToBytes text := .ok (hexPairs text.toList)
  base64Encode := latin1
  p2trMs m _ := [m.toUInt8]
  scriptNum n := [n.toUInt8]
  scriptEncode items := [items.length.toUInt8]
  scriptDecode _ := .ok []
  p2tr _ _ := (sampleTerms.address, [7])
  addressScript _ _ := .error "Invalid address"
  toPsbt _ := .error "unknown"

def sampleSigned (psbt : String) : Role → Bool
  | .buyer => 'b' ∈ psbt.toList
  | .seller => 's' ∈ psbt.toList
  | .arbiter => 'a' ∈ psbt.toList

def payoutHost : Host :=
  settlementHost
    { silentHost with
      taprootAddress := fun _ _ => .ok "bc1pkey"
      unsignedId := fun psbt => .ok (String.ofList (psbt.toList.take 1))
      hasValidSignature := fun psbt _ role _ => sampleSigned psbt role
      finalizes := fun psbt _ _ => sampleSigned psbt .buyer && sampleSigned psbt .seller }
    payoutBuilder

def sampleSettle (id author : Char) (role : Role) (psbt : String) (payoutAddress : JsValue)
    (final : Option Bool) : ParsedEscrowEvent :=
  sampleEvent id author 1800000050 (.settlement { psbt, leaf := .coop, role, payoutAddress, final })

/-- The sample trade, released by both principals, and the seller's final settlement. -/
def payoutEvents : List ParsedEscrowEvent :=
  onchainEvents ++ [sampleVote '5' 'b' 1800000030 .buyer .release,
    sampleVote '6' 'a' 1800000031 .seller .release, sampleResolve 1800000040 .release,
    sampleSettle '7' 'a' .seller "kbs" .undefined (some true)]

/-- Two payouts that the buyer proposes, and a final settlement with both signatures under the newer
one. -/
def chosenEvents : List ParsedEscrowEvent :=
  [sampleSettle 'a' 'b' .buyer "ob" (.str "bc1pold") none,
    sampleSettle 'b' 'b' .buyer "nb" (.str "bc1pnew") none,
    sampleSettle 'c' 'a' .seller "nbs" .undefined (some true)]

def olderSigned : ParsedEscrowEvent := sampleSettle 'd' 'a' .seller "obs" .undefined none

def newerProposed : ParsedEscrowEvent := sampleSettle 'd' 'b' .buyer "kb" .undefined none

def settled (s : EscrowState) (es : List ParsedEscrowEvent) : EscrowState :=
  liveFold (applyToState payoutHost) s es

def provesPayout (s : EscrowState) : Bool :=
  s.settlements.any fun m => (settlementProof payoutHost s m).isSome

def winnerSilent (s : EscrowState) : Bool :=
  s.settlements.all fun m => (getWinner s).all fun w => m.raw.pubkey ≠ w.1

def choosesLocked (id destination : String) (s : EscrowState) : Bool :=
  match winnerSettlementChoice payoutHost s with
  | .ok (some c) => c.id = id && (c.destination.isText destination && c.locked)
  | _ => false

theorem sample_payouts : ∃ s, Reached payoutHost s ∧ s.status = .approved ∧
    provesPayout s = true ∧ winnerSilent s = true ∧
    choosesLocked "n" "bc1pnew" (settled s chosenEvents) = true ∧
    choosesLocked "o" "bc1pold" (settled (settled s chosenEvents) [olderSigned]) = true ∧
    choosesLocked "n" "bc1pnew" (settled (settled s chosenEvents) [newerProposed]) = true ∧
    provesPayout (settled s chosenEvents) = true := by
  have hrun : (liveTrade payoutHost sampleOnchainCreate payoutEvents).any (fun s =>
      decide (s.status = .approved) && (provesPayout s && (winnerSilent s &&
        (choosesLocked "n" "bc1pnew" (settled s chosenEvents) &&
          (choosesLocked "o" "bc1pold" (settled (settled s chosenEvents) [olderSigned]) &&
            (choosesLocked "n" "bc1pnew" (settled (settled s chosenEvents) [newerProposed]) &&
              provesPayout (settled s chosenEvents))))))) = true := by
    decide +kernel
  obtain ⟨s, hs, htest⟩ := (Option.any_eq_true _ _).mp hrun
  simp only [Bool.and_eq_true, decide_eq_true_eq] at htest
  exact ⟨s, liveTrade_reached payoutHost hs, htest⟩

/-- In the sample trade a final settlement pays the winner's key, though the winner has proposed no
payout at all. -/
theorem payout_without_proposal : ∃ state message proof terms winner winnerRole,
    Reached payoutHost state ∧ state.status = .approved ∧ state.lock.onchain = some terms ∧
    getWinner state = some (winner, winnerRole) ∧
    settlementProof payoutHost state message = some proof ∧
    ∀ m ∈ state.settlements, m.raw.pubkey ≠ winner := by
  obtain ⟨s, hs, happroved, hproves, hsilent, -⟩ := sample_payouts
  obtain ⟨message, -, hproof⟩ := List.any_eq_true.mp hproves
  obtain ⟨proof, hproof⟩ := Option.isSome_iff_exists.mp hproof
  obtain ⟨terms, winner, winnerRole, hterms, hwinner⟩ := parties_of_settlementProof hproof
  refine ⟨s, message, proof, terms, winner, winnerRole, hs, happroved, hterms, hwinner, hproof, ?_⟩
  intro m hm
  have hother := List.all_eq_true.mp hsilent m hm
  rw [hwinner] at hother
  exact of_decide_eq_true hother

/-- The final settlement under the winner's newer proposal spends the deposit. -/
theorem final_settlement_spends_deposit : ∃ (state : EscrowState) (message : SettlementMessage)
    (terms : OnchainLockTerms) (tx : SettlementTx),
    Reached payoutHost state ∧ state.lock.onchain = some terms ∧
    decodedSettlement payoutBuilder.toBtcReader message.payload.psbt = .ok tx ∧
    SpendsDeposit terms tx := by
  obtain ⟨s, hs, -, -, -, -, -, -, hproves⟩ := sample_payouts
  obtain ⟨message, -, hproof⟩ := List.any_eq_true.mp hproves
  obtain ⟨proof, hproof⟩ := Option.isSome_iff_exists.mp hproof
  obtain ⟨terms, winner, winnerRole, hterms, hwinner⟩ := parties_of_settlementProof hproof
  obtain ⟨tx, -, -, htx, hspends, -⟩ := settlement_proof_pays hterms hwinner hproof
  exact ⟨settled s chosenEvents, message, terms, tx, Run.fold hs fun _ _ _ => trivial, hterms, htx,
    hspends⟩

end ChamaEscrow
