import ChamaEscrow.Bond.SettlementCheck
import Mathlib.Tactic.Simps.Basic

/-!
# Building a settlement

`buildOnchainEscrow` (`onchain-escrow.ts`) and `buildSettlementPsbt` (`onchain-escrow-settle.ts`):
the escrow's address over its three leaves, and the transaction that sweeps it to the winner.  What
the Bitcoin library answers is a parameter again (`BtcBuilder`), with what the builder relies on as
laws (`BtcLaws`).

`built_settlement_passes_iff`: the checklist passes what the builder builds, unless the dispute
leaf has no window, the destination is not spelled as the library spells it, or a transaction id is
not in lower case.
-/

namespace ChamaEscrow.BondMultisig

open Js Library

/-! ### The escrow -/

inductive ScriptItem
  | op (name : String)
  | data (bytes : Bytes)

/-- What the escrow and the settlement use of the Bitcoin library: `p2tr` answers with the address
and the output script of a Taproot tree over the NUMS key, `addressScript` is
`btc.OutScript.encode(btc.Address(network).decode(text))`. -/
structure BtcBuilder extends BtcReader where
  hexToBytes : String → Except String Bytes
  base64Encode : Bytes → String
  p2trMs : ℕ → List Bytes → Bytes
  scriptNum : ℕ → Bytes
  scriptEncode : List ScriptItem → Bytes
  scriptDecode : Bytes → Except String (List ScriptItem)
  p2tr : BtcNetwork → List Bytes → String × Bytes
  addressScript : BtcNetwork → String → Except String Bytes
  toPsbt : SettlementTx → Except String Bytes

/-- What the builder relies on: hexadecimal text is read in either case, PSBTs and base64 are read
as they were written, and what an address denotes has an address. -/
structure BtcLaws (btc : BtcBuilder) : Prop where
  hex : ∀ text bytes, btc.hexToBytes text = .ok bytes → bytesToHex bytes = toLowerCase text
  base64 : ∀ bytes, btc.base64Decode (btc.base64Encode bytes) = .ok bytes
  psbt : ∀ tx bytes, btc.toPsbt tx = .ok bytes → btc.fromPsbt bytes = .ok tx
  address : ∀ network text script, btc.addressScript network text = .ok script →
    ∃ address, btc.scriptAddress network script = .ok address

variable (btc : BtcBuilder)

def assertXonly (key : Bytes) (name : String) : Except String Unit :=
  if key.length ≠ 32 then .error s!"{name} must be a 32-byte x-only pubkey" else .ok ()

def buildCoopLeaf (buyerXonly sellerXonly : Bytes) : Except String Bytes := do
  assertXonly buyerXonly "buyerXonly"
  assertXonly sellerXonly "sellerXonly"
  return btc.p2trMs 2 [buyerXonly, sellerXonly]

def buildDisputeLeaf (buyerXonly sellerXonly arbiterXonly : Bytes) (csvBlocks : ℕ) :
    Except String Bytes := do
  assertXonly buyerXonly "buyerXonly"
  assertXonly sellerXonly "sellerXonly"
  assertXonly arbiterXonly "arbiterXonly"
  let keys := [buyerXonly, sellerXonly, arbiterXonly]
  rejectIf ((keys.map bytesToHex).dedup.length ≠ 3)
    "buyer, seller and arbiter must be three distinct keys"
  let ms := btc.p2trMs 2 keys
  if csvBlocks = 0 then pure ms
  else do
    rejectIf (65535 < csvBlocks) "disputeCsvBlocks must be a positive integer under 65536"
    let decoded ← btc.scriptDecode ms
    return btc.scriptEncode
      ([.data (btc.scriptNum csvBlocks), .op "CHECKSEQUENCEVERIFY", .op "DROP"] ++ decoded)

def buildRefundLeaf (funderXonly : Bytes) (lockUntil : ℕ) : Except String Bytes := do
  assertXonly funderXonly "funderXonly"
  rejectIf (lockUntil = 0 ∨ 500000000 ≤ lockUntil)
    "lockUntil must be a positive block height below 500000000"
  return btc.scriptEncode [.data (btc.scriptNum lockUntil), .op "CHECKLOCKTIMEVERIFY", .op "DROP",
    .data funderXonly, .op "CHECKSIG"]

def buildOnchainEscrow (params : OnchainEscrowParams) : Except String OnchainEscrow := do
  let coop ← buildCoopLeaf btc params.buyerXonly params.sellerXonly
  let dispute ← buildDisputeLeaf btc params.buyerXonly params.sellerXonly params.arbiterXonly
    params.disputeCsvBlocks
  let refund ← buildRefundLeaf btc
    (if params.funder = .buyer then params.buyerXonly else params.sellerXonly)
    params.refundLockUntil
  let (address, script) := btc.p2tr params.network [coop, dispute, refund]
  return { address, script, leaves := ⟨coop, dispute, refund⟩, params }

/-- `taprootFor(escrow).script`. -/
def taprootScript (escrow : OnchainEscrow) : Bytes :=
  (btc.p2tr escrow.params.network
    [escrow.leaves.coop, escrow.leaves.dispute, escrow.leaves.refund]).2

/-! ### The dispute window -/

inductive DisputeWindow
  | opened
  | closed (blocksRemaining opensAtHeight : JsNumber)

def disputeWindow (fundingHeight tipHeight : Option JsNumber) (csvBlocks : ℕ) : DisputeWindow :=
  if csvBlocks = 0 then .opened
  else
    match fundingHeight, tipHeight with
    | some fundingHeight, some tipHeight =>
      let opensAtHeight := fundingHeight + .ofInt csvBlocks
      let confirmations := tipHeight - fundingHeight + 1
      if .ofInt csvBlocks ≤ confirmations then .opened
      else .closed (opensAtHeight - tipHeight) opensAtHeight
    | _, _ => .closed (.ofInt csvBlocks) 0

/-! ### The settlement -/

def p2trDustSats : ℤ := 330

/-- The parameters of `buildSettlementPsbt`. -/
structure SettlementParams where
  escrow : OnchainEscrow
  utxos : List BondUtxo
  destination : String
  feeSats : ℤ
  leaf : Option SettlementLeaf := none
  lockTime : Option ℕ := none
  fundingHeight : Option JsNumber := none
  tipHeight : Option JsNumber := none

def SettlementParams.spendLeaf (params : SettlementParams) : SettlementLeaf :=
  params.leaf.getD .coop

def totalSats (utxos : List BondUtxo) : ℤ := (utxos.map BondUtxo.amountSats).sum

/-- Why a dispute settlement cannot be built yet. -/
def windowError (params : SettlementParams) : Option String :=
  if params.spendLeaf = .dispute then
    match disputeWindow params.fundingHeight params.tipHeight
        params.escrow.params.disputeCsvBlocks with
    | .opened => none
    | .closed blocksRemaining _ => some s!"The appeal window is still open — this escrow cannot be settled by arbitration for another {blocksRemaining} block(s)."
  else none

def refundError (params : SettlementParams) : Option String :=
  if params.leaf = some .refund ∧ (params.lockTime ≠ some params.escrow.params.refundLockUntil ∨
      params.tipHeight.all fun tip =>
        !tip.isInteger || tip < .ofInt params.escrow.params.refundLockUntil) then
    some "Refund requires the committed CLTV height and a mature chain tip"
  else none

def orThrow : Option String → Except String Unit
  | some message => .error message
  | none => .ok ()

def settlementInput (params : SettlementParams) (u : BondUtxo) :
    Except String SettlementInput := do
  let txid ← btc.hexToBytes u.txid
  let sequence ← sequenceForLeaf params.spendLeaf params.escrow.params.disputeCsvBlocks
  return {
    txid := some txid
    index := some u.index
    witnessUtxo := some ⟨taprootScript btc params.escrow, u.amountSats⟩
    sequence := some sequence }

/-- The loop over the outputs. -/
def settlementInputs (params : SettlementParams) :
    List BondUtxo → Except String (List SettlementInput)
  | [] => .ok []
  | u :: rest => do
    let input ← settlementInput btc params u
    return input :: (← settlementInputs params rest)

/-- The transaction that `buildSettlementPsbt` builds. -/
def settlementTx (params : SettlementParams) : Except String SettlementTx := do
  rejectIf params.utxos.isEmpty "No escrow UTXOs to settle"
  let total := totalSats params.utxos
  rejectIf (params.feeSats < 0 ∨ total ≤ params.feeSats) "Bad fee"
  let payout := total - params.feeSats
  rejectIf (payout < p2trDustSats)
    s!"Settlement output would be dust ({payout} sats < {p2trDustSats}) — unrelayable"
  orThrow (windowError params)
  orThrow (refundError params)
  let inputs ← settlementInputs btc params params.utxos
  let script ← btc.addressScript params.escrow.params.network params.destination
  return { inputs, outputs := [⟨some script, some payout⟩], lockTime := params.lockTime.getD 0 }

def buildSettlementPsbt (params : SettlementParams) : Except String String := do
  let tx ← settlementTx btc params
  let psbt ← btc.toPsbt tx
  return btc.base64Encode psbt

/-! ### What the builder builds -/

variable {btc} {params : SettlementParams} {maxFeeSats : ℤ}

@[simps]
def SettlementParams.expectation (params : SettlementParams) (maxFeeSats : ℤ) :
    SettlementExpectation where
  escrow := params.escrow
  utxos := params.utxos
  destination := params.destination
  maxFeeSats := maxFeeSats
  leaf := params.leaf
  tipHeight := params.tipHeight

def Passes (expect : SettlementExpectation) (reader : BtcReader) (psbtB64 : String) : Prop :=
  ∃ check, verifySettlementPsbt expect reader psbtB64 = .ok check ∧ check.ok = true

theorem orThrow_eq_ok {problem : Option String} {u : Unit} :
    orThrow problem = .ok u ↔ problem = none := by
  cases problem <;> simp [orThrow]

variable {tx : SettlementTx}

variable {expect : SettlementExpectation}

theorem passes_iff {reader : BtcReader} {psbtB64 : String}
    (htx : decodedSettlement reader psbtB64 = .ok tx) :
    Passes expect reader psbtB64 ↔ settlementFailures expect reader tx = .ok [] := by
  unfold Passes verifySettlementPsbt
  rw [htx]
  dsimp only
  constructor
  · rintro ⟨check, hcheck, hok⟩
    obtain ⟨failures, hfailures, hrest⟩ := bind_eq_ok.mp hcheck
    obtain rfl := pure_eq_ok.mp hrest
    rw [hfailures, List.isEmpty_iff.mp hok]
  · intro h
    exact ⟨⟨true, []⟩, by rw [h]; rfl, rfl⟩

/-- An input that the builder adds for an output. -/
structure Spends (params : SettlementParams) (script : Bytes) (u : BondUtxo)
    (input : SettlementInput) : Prop where
  txid : ∃ bytes, input.txid = some bytes ∧ bytesToHex bytes = toLowerCase u.txid
  index : input.index = some u.index
  witnessUtxo : input.witnessUtxo = some ⟨script, u.amountSats⟩
  sighashType : input.sighashType = none
  sequence : ∃ sequence, input.sequence = some sequence ∧
    sequenceForLeaf params.spendLeaf params.escrow.params.disputeCsvBlocks = .ok sequence

variable {input : SettlementInput} {u : BondUtxo}

theorem spends_of_settlementInput (laws : BtcLaws btc)
    (h : settlementInput btc params u = .ok input) :
    Spends params (taprootScript btc params.escrow) u input := by
  obtain ⟨txid, htxid, hrest⟩ := bind_eq_ok.mp h
  obtain ⟨sequence, hsequence, hinput⟩ := bind_eq_ok.mp hrest
  obtain rfl := pure_eq_ok.mp hinput
  exact ⟨⟨txid, rfl, laws.hex _ _ htxid⟩, rfl, rfl, rfl, sequence, rfl, hsequence⟩

variable {inputs : List SettlementInput} {utxos : List BondUtxo}

theorem spends_of_settlementInputs (laws : BtcLaws btc)
    (h : settlementInputs btc params utxos = .ok inputs) :
    List.Forall₂ (Spends params (taprootScript btc params.escrow)) utxos inputs := by
  induction utxos generalizing inputs with
  | nil =>
    obtain rfl := Except.ok.inj h
    exact .nil
  | cons u rest ih =>
    obtain ⟨input, hinput, hrest⟩ := bind_eq_ok.mp h
    obtain ⟨inputs', hinputs, hcons⟩ := bind_eq_ok.mp hrest
    obtain rfl := pure_eq_ok.mp hcons
    exact .cons (spends_of_settlementInput laws hinput) (ih hinputs)

theorem script_of_buildOnchainEscrow {terms : OnchainEscrowParams} {escrow : OnchainEscrow}
    (h : buildOnchainEscrow btc terms = .ok escrow) : escrow.script = taprootScript btc escrow := by
  obtain ⟨coop, -, hrest⟩ := bind_eq_ok.mp h
  obtain ⟨dispute, -, hrest⟩ := bind_eq_ok.mp hrest
  obtain ⟨refund, -, hrest⟩ := bind_eq_ok.mp hrest
  obtain rfl := pure_eq_ok.mp hrest
  rfl

structure Built (btc : BtcBuilder) (params : SettlementParams) (tx : SettlementTx) : Prop where
  nonempty : params.utxos ≠ []
  fee_nonneg : 0 ≤ params.feeSats
  refund : refundError params = none
  inputs : List.Forall₂ (Spends params (taprootScript btc params.escrow)) params.utxos tx.inputs
  outputs : ∃ script,
    btc.addressScript params.escrow.params.network params.destination = .ok script ∧
      tx.outputs = [⟨some script, some (totalSats params.utxos - params.feeSats)⟩]
  lockTime : tx.lockTime = params.lockTime.getD 0

theorem built_of_settlementTx (laws : BtcLaws btc)
    (h : settlementTx btc params = .ok tx) : Built btc params tx := by
  unfold settlementTx at h
  simp only [bind_eq_ok, rejectIf_eq_ok, orThrow_eq_ok, pure_eq_ok] at h
  obtain ⟨-, hempty, -, hfee, -, -, -, -, -, hrefund, inputs, hinputs, script, hscript, rfl⟩ := h
  push Not at hfee
  refine ⟨fun hnil => hempty (by rw [hnil]; rfl), hfee.1, hrefund,
    spends_of_settlementInputs laws hinputs, ⟨script, hscript, rfl⟩, rfl⟩

theorem decoded_of_buildSettlementPsbt (laws : BtcLaws btc) {psbtB64 : String}
    (h : buildSettlementPsbt btc params = .ok psbtB64) :
    ∃ tx, decodedSettlement btc.toBtcReader psbtB64 = .ok tx ∧ Built btc params tx := by
  obtain ⟨tx, htx, hrest⟩ := bind_eq_ok.mp h
  obtain ⟨psbt, hpsbt, hencode⟩ := bind_eq_ok.mp hrest
  obtain rfl := pure_eq_ok.mp hencode
  refine ⟨tx, ?_, built_of_settlementTx laws htx⟩
  unfold decodedSettlement
  rw [laws.base64]
  exact laws.psbt tx psbt hpsbt

/-! ### Builder and checklist -/

def SpelledByLibrary (btc : BtcBuilder) (network : BtcNetwork) (destination : String) : Prop :=
  ∀ script, btc.addressScript network destination = .ok script →
    btc.scriptAddress network script = .ok destination

theorem toLower_digitChar : ∀ i < 16, (Nat.digitChar i).toLower = Nat.digitChar i := by decide

theorem toLowerCase_bytesToHex (bytes : Bytes) :
    toLowerCase (bytesToHex bytes) = bytesToHex bytes := by
  unfold toLowerCase bytesToHex
  rw [String.toList_ofList, List.map_flatMap]
  congr 2
  funext b
  have hb := b.toNat_lt
  rw [List.map_cons, List.map_cons, List.map_nil, toLower_digitChar _ (by omega),
    toLower_digitChar _ (by omega)]

variable {script : Bytes}

theorem txidText_of_spends (h : Spends params script u input) :
    input.txidText = toLowerCase u.txid ∧ toLowerCase input.txidText = input.txidText := by
  obtain ⟨bytes, hbytes, hhex⟩ := h.txid
  have htext : input.txidText = bytesToHex bytes := by
    unfold SettlementInput.txidText
    rw [hbytes]
    rfl
  exact ⟨htext.trans hhex, by rw [htext, toLowerCase_bytesToHex]⟩

theorem exists_spends (h : List.Forall₂ (Spends params script) utxos inputs) :
    (∀ u ∈ utxos, ∃ input ∈ inputs, Spends params script u input) ∧
      ∀ input ∈ inputs, ∃ u ∈ utxos, Spends params script u input := by
  induction h with
  | nil => simp
  | @cons u input utxos inputs hspend _ ih =>
    constructor
    · intro u' hu'
      rcases List.mem_cons.mp hu' with rfl | hmem
      · exact ⟨input, List.mem_cons_self, hspend⟩
      · obtain ⟨input', hinput', hspend'⟩ := ih.1 u' hmem
        exact ⟨input', List.mem_cons_of_mem _ hinput', hspend'⟩
    · intro input' hinput'
      rcases List.mem_cons.mp hinput' with rfl | hmem
      · exact ⟨u, List.mem_cons_self, hspend⟩
      · obtain ⟨u', hu', hspend'⟩ := ih.2 input' hmem
        exact ⟨u', List.mem_cons_of_mem _ hu', hspend'⟩

theorem key_of_spends (h : Spends params script u input) (hlower : toLowerCase u.txid = u.txid) :
    input.key = u.key := by
  show outpointKey input.txidText input.index = outpointKey u.txid (some u.index)
  rw [(txidText_of_spends h).1, h.index, hlower]

theorem knownUtxo_of_mem (hdistinct : (expect.utxos.map BondUtxo.outpoint).Nodup)
    (hu : u ∈ expect.utxos) : knownUtxo expect u.key = some u := by
  cases hfound : knownUtxo expect u.key with
  | none => exact absurd (decide_eq_true rfl) (List.find?_eq_none.mp hfound u (by simpa using hu))
  | some u' =>
    obtain ⟨hmem, hkey⟩ := mem_of_knownUtxo hfound
    obtain ⟨htxid, hindex⟩ := outpointKey_injective hkey
    rw [List.inj_on_of_nodup_map hdistinct hmem hu (Prod.ext htxid hindex)]

theorem sequenceFailures_of_spends (h : Spends params script u input)
    (hwindow : params.spendLeaf = .dispute → 0 < params.escrow.params.disputeCsvBlocks) (i : ℕ) :
    sequenceFailures (params.expectation maxFeeSats) i input = .ok [] := by
  obtain ⟨sequence, hinput, hsequence⟩ := h.sequence
  unfold sequenceFailures
  rw [show (params.expectation maxFeeSats).leaf = params.leaf from rfl]
  cases hleaf : params.leaf with
  | none => rfl
  | some leaf =>
    have hspend : params.spendLeaf = leaf := by
      unfold SettlementParams.spendLeaf
      rw [hleaf]
      rfl
    rw [hspend] at hsequence hwindow
    cases leaf with
    | coop => rfl
    | refund =>
      obtain rfl := Except.ok.inj hsequence
      dsimp only
      rw [hinput, if_neg (by simp)]
    | dispute =>
      have hcsv := hwindow rfl
      dsimp only
      rw [show (params.expectation maxFeeSats).escrow = params.escrow from rfl, hsequence, hinput]
      have hvalue : sequence = params.escrow.params.disputeCsvBlocks ∧ sequence ≤ 0xffff := by
        unfold sequenceForLeaf at hsequence
        split_ifs at hsequence with hzero hlarge
        · rcases hzero with hother | hzero
          · exact absurd rfl hother
          · omega
        · have hle : params.escrow.params.disputeCsvBlocks ≤ 0xffff := by omega
          rw [blocks_masked hle] at hsequence
          obtain rfl := Except.ok.inj hsequence
          exact ⟨rfl, hle⟩
      have hbit (k : ℕ) (hk : 16 ≤ k) : sequence.testBit k = false := by
        refine Nat.testBit_lt_two_pow (lt_of_lt_of_le (b := 2 ^ 16) (by omega) ?_)
        exact Nat.pow_le_pow_right (by omega) hk
      show (pure (if _ then _ else _) : Except String (List String)) = _
      rw [if_neg]
      · rfl
      · simp [assertsRelativeBlockAge, hbit]

theorem scanInputs_built (hscript : script = params.escrow.script)
    (hdistinct : (params.utxos.map BondUtxo.outpoint).Nodup)
    (hlower : ∀ u ∈ params.utxos, toLowerCase u.txid = u.txid)
    (hwindow : params.spendLeaf = .dispute → 0 < params.escrow.params.disputeCsvBlocks)
    (hsub : utxos ⊆ params.utxos)
    (hspends : List.Forall₂ (Spends params script) utxos inputs) {scan : InputScan}
    (hkeys : ((utxos.map BondUtxo.key).reverse ++ scan.seen).Nodup) (i : ℕ) :
    scanInputs (params.expectation maxFeeSats) i inputs scan = .ok {
      seen := (utxos.map BondUtxo.key).reverse ++ scan.seen
      inSum := scan.inSum + totalSats utxos
      failures := scan.failures } := by
  induction hspends generalizing scan i with
  | nil => simp [scanInputs, totalSats]
  | @cons u input utxos inputs hspend _ ih =>
    have hu := hsub List.mem_cons_self
    have hkey := key_of_spends hspend (hlower u hu)
    have hknown : knownUtxo (params.expectation maxFeeSats) input.key = some u := by
      rw [hkey]
      exact knownUtxo_of_mem hdistinct hu
    rw [List.map_cons, List.reverse_cons, List.append_assoc, List.singleton_append] at hkeys
    have hnew : input.key ∉ scan.seen := by
      rw [hkey]
      exact (List.nodup_cons.mp (List.nodup_append.mp hkeys).2.1).1
    have hspendable : spendFailures (params.expectation maxFeeSats) i input u = [] := by
      unfold spendFailures
      rw [hspend.witnessUtxo, hspend.sighashType, hscript]
      simp
    have hstep : scanInput (params.expectation maxFeeSats) i input scan = .ok {
        seen := u.key :: scan.seen
        inSum := scan.inSum + u.amountSats
        failures := scan.failures } := by
      unfold scanInput
      rw [hknown]
      dsimp only
      rw [if_neg hnew, sequenceFailures_of_spends hspend hwindow, hspendable, hkey]
      simp [bind, Except.bind, pure, Except.pure]
    unfold scanInputs
    rw [hstep]
    show scanInputs (params.expectation maxFeeSats) (i + 1) inputs _ = _
    rw [ih (fun u' hu' => hsub (List.mem_cons_of_mem u hu')) hkeys]
    simp [totalSats, add_assoc]

theorem refundFailures_of_built (hb : Built btc params tx) :
    refundFailures (params.expectation maxFeeSats) tx = [] := by
  unfold refundFailures
  by_cases hleaf : params.leaf = some .refund
  · have hmature := hb.refund
    unfold refundError at hmature
    split_ifs at hmature with herror
    push Not at herror
    obtain ⟨hlock, htip⟩ := herror hleaf
    simp only [SettlementParams.expectation_leaf, SettlementParams.expectation_escrow,
      SettlementParams.expectation_tipHeight]
    rw [if_pos hleaf, if_neg htip, if_neg (by rw [hb.lockTime, hlock]; simp), List.append_nil]
  · exact if_neg hleaf

theorem outputAddress_of_ok {reader : BtcReader} {sats : Option ℤ} {address : String}
    (h : reader.scriptAddress (expect.network.getD expect.escrow.params.network) script =
      .ok address) : outputAddress expect reader ⟨some script, sats⟩ = address := by
  unfold outputAddress
  dsimp only
  rw [h]

theorem outputFailures_of_built (hb : Built btc params tx)
    (hspelled : SpelledByLibrary btc params.escrow.params.network params.destination) :
    outputFailures (params.expectation maxFeeSats) btc.toBtcReader tx = [] := by
  obtain ⟨script, hscript, houtputs⟩ := hb.outputs
  have haddress : outputAddress (params.expectation maxFeeSats) btc.toBtcReader
      ⟨some script, some (totalSats params.utxos - params.feeSats)⟩ = params.destination :=
    outputAddress_of_ok (hspelled script hscript)
  unfold outputFailures
  rw [houtputs]
  simp [haddress]

theorem feeFailures_of_built (hb : Built btc params tx) (hfee : params.feeSats ≤ maxFeeSats) :
    feeFailures (params.expectation maxFeeSats) (totalSats params.utxos - outSum tx) = [] := by
  obtain ⟨script, -, houtputs⟩ := hb.outputs
  have hout : totalSats params.utxos - outSum tx = params.feeSats := by
    unfold outSum
    rw [houtputs]
    simp
  have hnonneg := hb.fee_nonneg
  unfold feeFailures
  show (if _ then _ else if maxFeeSats < _ then _ else _) = _
  rw [hout, if_neg (by omega), if_neg (by omega)]

theorem clean_of_built (hb : Built btc params tx)
    (hscript : params.escrow.script = taprootScript btc params.escrow)
    (hdistinct : (params.utxos.map BondUtxo.outpoint).Nodup) (hfee : params.feeSats ≤ maxFeeSats)
    (hwindow : params.spendLeaf = .dispute → 0 < params.escrow.params.disputeCsvBlocks)
    (hspelled : SpelledByLibrary btc params.escrow.params.network params.destination)
    (hlower : ∀ u ∈ params.utxos, toLowerCase u.txid = u.txid) :
    settlementFailures (params.expectation maxFeeSats) btc.toBtcReader tx = .ok [] := by
  have hkeys : (params.utxos.map BondUtxo.key).Nodup := by
    refine List.Nodup.map_on (fun u hu u' hu' hkey => ?_) hdistinct.of_map
    obtain ⟨htxid, hindex⟩ := outpointKey_injective hkey
    exact List.inj_on_of_nodup_map hdistinct hu hu' (Prod.ext htxid hindex)
  have hstart : (startScan tx).failures = [] := by
    obtain ⟨u, hu⟩ := List.exists_mem_of_ne_nil _ hb.nonempty
    obtain ⟨input, hinput, -⟩ := (exists_spends hb.inputs).1 u hu
    exact if_neg fun hempty => List.ne_nil_of_mem hinput (List.isEmpty_iff.mp hempty)
  have hscan := @scanInputs_built params maxFeeSats _ _ _ hscript.symm hdistinct hlower hwindow
    (List.Subset.refl _) hb.inputs (startScan tx) (by simpa [startScan] using hkeys) 0
  have hcover : coverFailures (params.expectation maxFeeSats) {
      seen := (params.utxos.map BondUtxo.key).reverse ++ (startScan tx).seen
      inSum := (startScan tx).inSum + totalSats params.utxos
      failures := (startScan tx).failures } = [] := by
    show (if _ ≠ (params.utxos.map BondUtxo.key).dedup.length then _ else _) = _
    rw [hkeys.dedup, if_neg (by simp [startScan])]
  have hsum : (startScan tx).inSum + totalSats params.utxos = totalSats params.utxos :=
    zero_add _
  unfold settlementFailures
  rw [hscan]
  show Except.ok _ = _
  rw [refundFailures_of_built hb, hcover, outputFailures_of_built hb hspelled, hsum,
    feeFailures_of_built hb hfee, hstart]
  rfl

theorem spelled_of_clean (laws : BtcLaws btc) (hb : Built btc params tx)
    (h : settlementFailures (params.expectation maxFeeSats) btc.toBtcReader tx = .ok []) :
    SpelledByLibrary btc params.escrow.params.network params.destination ∧
      IsSafe (params.expectation maxFeeSats) btc.toBtcReader tx := by
  obtain ⟨script, hscript, houtputs⟩ := hb.outputs
  obtain ⟨out, hout, htext, hsafe⟩ := safe_of_clean h
  obtain rfl : _ = out := List.singleton_inj.mp (houtputs.symm.trans hout)
  -- the script of an address has an address, so the text that is compared is that address
  obtain ⟨address, haddress⟩ := laws.address _ _ _ hscript
  have hsame : address = params.destination := by
    exact (outputAddress_of_ok haddress).symm.trans htext
  subst hsame
  refine ⟨fun script' hscript' => ?_, hsafe ⟨script, rfl, haddress⟩⟩
  obtain rfl := Except.ok.inj (hscript.symm.trans hscript')
  exact haddress

theorem window_of_safe (hb : Built btc params tx)
    (hsafe : IsSafe (params.expectation maxFeeSats) btc.toBtcReader tx)
    (hleaf : params.spendLeaf = .dispute) : 0 < params.escrow.params.disputeCsvBlocks := by
  have hdispute : params.leaf = some .dispute := by
    unfold SettlementParams.spendLeaf at hleaf
    cases hnone : params.leaf with
    | none =>
      rw [hnone] at hleaf
      cases hleaf
    | some leaf =>
      rw [hnone] at hleaf
      exact congrArg some hleaf
  by_contra hzero
  obtain ⟨u, hu⟩ := List.exists_mem_of_ne_nil _ hb.nonempty
  obtain ⟨input, hinput, hspend⟩ := (exists_spends hb.inputs).1 u hu
  obtain ⟨sequence, hsequence, hcsv⟩ := hsafe.dispute hdispute input hinput
  obtain ⟨sequence', hsequence', hbuilt⟩ := hspend.sequence
  obtain rfl := Option.some.inj (hsequence.symm.trans hsequence')
  unfold sequenceForLeaf at hbuilt
  rw [if_pos (Or.inr (Nat.eq_zero_of_not_pos hzero))] at hbuilt
  obtain rfl := Except.ok.inj hbuilt
  exact absurd hcsv.1 (by decide)

/-- The checklist passes what the builder builds for the same escrow, outputs, destination and leaf,
with a fee up to the ceiling, just when a dispute leaf has a window, the destination is spelled as
the library spells it, and the transaction ids are in lower case. -/
theorem built_settlement_passes_iff (laws : BtcLaws btc) {terms : OnchainEscrowParams}
    (hescrow : buildOnchainEscrow btc terms = .ok params.escrow)
    (hdistinct : (params.utxos.map BondUtxo.outpoint).Nodup) (hfee : params.feeSats ≤ maxFeeSats)
    {psbtB64 : String} (hbuilt : buildSettlementPsbt btc params = .ok psbtB64) :
    Passes (params.expectation maxFeeSats) btc.toBtcReader psbtB64 ↔
      (params.spendLeaf = .dispute → 0 < params.escrow.params.disputeCsvBlocks) ∧
      SpelledByLibrary btc params.escrow.params.network params.destination ∧
      ∀ u ∈ params.utxos, toLowerCase u.txid = u.txid := by
  obtain ⟨tx, htx, hb⟩ := decoded_of_buildSettlementPsbt laws hbuilt
  rw [passes_iff htx]
  constructor
  · intro h
    obtain ⟨hspelled, hsafe⟩ := spelled_of_clean laws hb h
    refine ⟨window_of_safe hb hsafe, hspelled, fun u hu => ?_⟩
    -- every known output is spent by an input, whose id is in lower case
    obtain ⟨input, hinput, houtpoint⟩ := hsafe.covers u hu
    obtain ⟨u', -, hspend⟩ := (exists_spends hb.inputs).2 input hinput
    have htxid : input.txidText = u.txid := congrArg Prod.fst houtpoint
    rw [← htxid, (txidText_of_spends hspend).2]
  · rintro ⟨hwindow, hspelled, hlower⟩
    exact clean_of_built hb (script_of_buildOnchainEscrow hescrow) hdistinct hfee hwindow hspelled
      hlower

/-! ### Sample settlements -/

deriving instance DecidableEq for WitnessUtxo, SettlementInput, SettlementOutput, SettlementTx

deriving instance DecidableEq for OnchainEscrowParams, EscrowLeaves, OnchainEscrow

/-- The terms of an escrow of three keys, with a dispute window of `csvBlocks`. -/
def sampleEscrowTerms (csvBlocks : ℕ) : OnchainEscrowParams where
  buyerXonly := List.replicate 32 1
  sellerXonly := List.replicate 32 2
  arbiterXonly := List.replicate 32 3
  funder := .buyer
  refundLockUntil := 900000
  disputeCsvBlocks := csvBlocks
  network := .mainnet

def sampleSettlement (sequence : ℕ) : SettlementTx where
  inputs := [{
    txid := some [171]
    index := some 0
    witnessUtxo := some ⟨[7], 1000⟩
    sequence := some sequence }]
  outputs := [⟨some [119], some 900⟩]
  lockTime := 0

def sampleBuilder : BtcBuilder where
  base64Decode text := .ok (ofLatin1 text)
  fromPsbt _ := .ok (sampleSettlement sequenceFinalMinusOne)
  scriptAddress _ script := if script = [119] then .ok "bc1pwinner" else .error "Unknown script"
  hexToBytes text := if text = "ab" then .ok [171] else .error "invalid hex"
  base64Encode := latin1
  p2trMs m _ := [m.toUInt8]
  scriptNum n := [n.toUInt8]
  scriptEncode items := [items.length.toUInt8]
  scriptDecode _ := .ok []
  p2tr _ _ := ("bc1pescrow", [7])
  addressScript _ text := if text = "bc1pwinner" then .ok [119] else .error "Invalid address"
  toPsbt tx := if tx = sampleSettlement sequenceFinalMinusOne then .ok [1] else .error "unknown"

theorem sampleLaws : BtcLaws sampleBuilder where
  hex := by
    intro text bytes h
    simp only [sampleBuilder] at h
    split_ifs at h with htext
    obtain rfl := Except.ok.inj h
    rw [htext]
    decide
  base64 bytes := congrArg Except.ok (ofLatin1_latin1 bytes)
  psbt := by
    intro tx bytes h
    simp only [sampleBuilder] at h
    split_ifs at h with htx
    rw [htx]
    rfl
  address := by
    intro network text script h
    simp only [sampleBuilder] at h
    split_ifs at h
    obtain rfl := Except.ok.inj h
    exact ⟨"bc1pwinner", rfl⟩

def sampleEscrow (csvBlocks : ℕ) : OnchainEscrow where
  address := "bc1pescrow"
  script := [7]
  leaves := ⟨[2], if csvBlocks = 0 then [2] else [3], [5]⟩
  params := sampleEscrowTerms csvBlocks

def sampleSettlementParams (csvBlocks : ℕ) (leaf : SettlementLeaf) : SettlementParams where
  escrow := sampleEscrow csvBlocks
  utxos := [⟨"ab", 0, 1000⟩]
  destination := "bc1pwinner"
  feeSats := 100
  leaf := some leaf

/-- A cooperative settlement passes. -/
theorem built_coop_passes : ∃ psbtB64,
    buildSettlementPsbt sampleBuilder (sampleSettlementParams 144 .coop) = .ok psbtB64 ∧
      Passes ((sampleSettlementParams 144 .coop).expectation 500) sampleBuilder.toBtcReader
        psbtB64 := by
  have hescrow : buildOnchainEscrow sampleBuilder (sampleEscrowTerms 144) =
      .ok (sampleSettlementParams 144 .coop).escrow := by
    decide +kernel
  have hbuilt : (buildSettlementPsbt sampleBuilder
      (sampleSettlementParams 144 .coop)).toOption.any (fun _ => true) = true := by
    decide +kernel
  obtain ⟨psbtB64, hpsbt, -⟩ := exists_ok_of_any hbuilt
  refine ⟨psbtB64, hpsbt, (built_settlement_passes_iff sampleLaws hescrow (List.nodup_singleton _)
    (by decide) hpsbt).mpr ⟨fun h => (by cases h), ?_, ?_⟩⟩
  · intro script hscript
    obtain rfl := Except.ok.inj hscript
    rfl
  · intro u hu
    obtain rfl := List.mem_singleton.mp hu
    decide

/-- Without a dispute window the checklist refuses the dispute settlement that was built. -/
theorem built_dispute_refused : ∃ psbtB64,
    buildOnchainEscrow sampleBuilder (sampleEscrowTerms 0) =
      .ok (sampleSettlementParams 0 .dispute).escrow ∧
    buildSettlementPsbt sampleBuilder (sampleSettlementParams 0 .dispute) = .ok psbtB64 ∧
    ¬ Passes ((sampleSettlementParams 0 .dispute).expectation 500) sampleBuilder.toBtcReader
      psbtB64 := by
  have hescrow : buildOnchainEscrow sampleBuilder (sampleEscrowTerms 0) =
      .ok (sampleSettlementParams 0 .dispute).escrow := by
    decide +kernel
  have hbuilt : (buildSettlementPsbt sampleBuilder
      (sampleSettlementParams 0 .dispute)).toOption.any (fun psbtB64 =>
        (verifySettlementPsbt ((sampleSettlementParams 0 .dispute).expectation 500)
          sampleBuilder.toBtcReader psbtB64).toOption.all fun check => !check.ok) = true := by
    decide +kernel
  obtain ⟨psbtB64, hpsbt, hrefused⟩ := exists_ok_of_any hbuilt
  refine ⟨psbtB64, hescrow, hpsbt, ?_⟩
  rintro ⟨check, hcheck, hok⟩
  rw [hcheck] at hrefused
  simp [Except.toOption, hok] at hrefused

end ChamaEscrow.BondMultisig
