import ChamaEscrow.Bond.OnchainSettle
import ChamaEscrow.Js.Text
import ChamaEscrow.Library.Delimited
import ChamaEscrow.Library.Sorted
import Mathlib.Data.List.Dedup

/-!
# The settlement checklist

`verifySettlementPsbt` (`onchain-escrow-settle.ts`): what a party checks before it signs a
settlement.  The decoded transaction and the addresses of its outputs come from the Bitcoin library,
a parameter (`BtcReader`).

`IsSafe` says what the checklist is for.  `settlement_check_safe_iff`: a settlement that passes is
safe, unless the destination is the text that stands for an output without an address.
-/

namespace ChamaEscrow.BondMultisig

open Js Library

/-! ### Transactions -/

/-- The output that an input spends, as the PSBT has it. -/
structure WitnessUtxo where
  script : Bytes
  amount : ℤ

structure SettlementInput where
  txid : Option Bytes
  index : Option ℕ
  witnessUtxo : Option WitnessUtxo
  sighashType : Option ℕ := none
  sequence : Option ℕ := none

structure SettlementOutput where
  script : Option Bytes
  amount : Option ℤ

structure SettlementTx where
  inputs : List SettlementInput
  outputs : List SettlementOutput
  lockTime : ℕ

/-- What the checklist uses of the Bitcoin library.  `scriptAddress` is
`btc.Address(network).encode(btc.OutScript.decode(script))`. -/
structure BtcReader where
  base64Decode : String → Except String Bytes
  fromPsbt : Bytes → Except String SettlementTx
  scriptAddress : BtcNetwork → Bytes → Except String String

/-- An unspent output known to the verifier. -/
structure BondUtxo where
  txid : String
  index : ℕ
  amountSats : ℤ

structure SettlementExpectation where
  escrow : OnchainEscrow
  utxos : List BondUtxo
  destination : String
  maxFeeSats : ℤ
  network : Option BtcNetwork := none
  leaf : Option SettlementLeaf := none
  tipHeight : Option JsNumber := none
  committedOutpoint : Option (String × ℕ) := none
  minInputSats : Option ℤ := none

structure SettlementCheck where
  ok : Bool
  failures : List String

/-! ### Sequences -/

def sequenceFinalMinusOne : ℕ := 0xfffffffe

def sequenceForLeaf (leaf : SettlementLeaf) (csvBlocks : ℕ) : Except String ℕ :=
  if leaf ≠ .dispute ∨ csvBlocks = 0 then .ok sequenceFinalMinusOne
  else if 0xffff < csvBlocks then
    .error "csvBlocks must be a positive integer ≤ 65535 (BIP68 block domain)"
  else .ok (csvBlocks &&& 0xffff)

/-- `assertsRelativeBlockAge`: neither the disable flag nor the seconds flag is set. -/
def assertsRelativeBlockAge (sequence : ℕ) : Bool := !sequence.testBit 31 && !sequence.testBit 22

/-! ### Inputs -/

/-- A value in a failure's text. -/
def shown {α : Type} [ToString α] : Option α → String
  | none => "undefined"
  | some a => toString a

def outpointKey (txid : String) (index : Option ℕ) : String := txid ++ ":" ++ shown index

def SettlementInput.txidText (input : SettlementInput) : String :=
  (input.txid.map bytesToHex).getD ""

def SettlementInput.key (input : SettlementInput) : String :=
  outpointKey input.txidText input.index

def BondUtxo.key (u : BondUtxo) : String := outpointKey u.txid (some u.index)

variable (expect : SettlementExpectation)

/-- `known.get(key)`: of two known outputs with one key the later counts. -/
def knownUtxo (key : String) : Option BondUtxo := expect.utxos.reverse.find? fun u => u.key = key

def knownSize : ℕ := (expect.utxos.map BondUtxo.key).dedup.length

structure InputScan where
  seen : List String
  inSum : ℤ
  failures : List String

/-- What is wrong with the amount, the script and the signature type of an input that spends a known
output. -/
def spendFailures (i : ℕ) (input : SettlementInput) (u : BondUtxo) : List String :=
  (if input.witnessUtxo.map WitnessUtxo.amount ≠ some u.amountSats then
    [s!"input {i} amount {shown (input.witnessUtxo.map WitnessUtxo.amount)} != known {u.amountSats}"]
    else []) ++
  (if input.witnessUtxo.all fun prev =>
      bytesToHex prev.script ≠ bytesToHex expect.escrow.script then
    [s!"input {i} is not the escrow output script"] else []) ++
  (if input.sighashType.any fun sighashType => sighashType ≠ 0 then
    [s!"input {i} sighashType {shown input.sighashType} — only SIGHASH_DEFAULT (0) is allowed"]
    else [])

def sequenceFailures (i : ℕ) (input : SettlementInput) : Except String (List String) :=
  match expect.leaf with
  | some .refund => .ok (if input.sequence ≠ some sequenceFinalMinusOne then
      [s!"input {i} has wrong refund sequence"] else [])
  | some .dispute => do
    let required ← sequenceForLeaf .dispute expect.escrow.params.disputeCsvBlocks
    let sequence := input.sequence.getD 0xffffffff
    return if !assertsRelativeBlockAge sequence ∨ sequence ≠ required then
      [s!"input {i} sequence {shown input.sequence} does not assert the required dispute CSV {required}"]
      else []
  | _ => .ok []

def scanInput (i : ℕ) (input : SettlementInput) (scan : InputScan) : Except String InputScan :=
  match knownUtxo expect input.key with
  | none => .ok { scan with failures :=
      scan.failures ++ [s!"input {i} ({input.key}) is not one of this escrow's UTXOs"] }
  | some u =>
    if input.key ∈ scan.seen then
      .ok { scan with failures := scan.failures ++ [s!"input {i} duplicates {input.key}"] }
    else do
      let sequence ← sequenceFailures expect i input
      return {
        seen := input.key :: scan.seen
        inSum := scan.inSum + u.amountSats
        failures := scan.failures ++ spendFailures expect i input u ++ sequence }

def scanInputs : ℕ → List SettlementInput → InputScan → Except String InputScan
  | _, [], scan => .ok scan
  | i, input :: rest, scan => do
    let next ← scanInput expect i input scan
    scanInputs (i + 1) rest next

/-! ### The checklist -/

def refundFailures (tx : SettlementTx) : List String :=
  if expect.leaf = some .refund then
    (if tx.lockTime ≠ expect.escrow.params.refundLockUntil then ["Wrong refund locktime"] else []) ++
    (if expect.tipHeight.all fun tip =>
        !tip.isInteger || tip < .ofInt expect.escrow.params.refundLockUntil then
      ["Refund is not mature"] else [])
  else []

/-- What is wrong with the set of outputs that are spent. -/
def coverFailures (scan : InputScan) : List String :=
  match expect.committedOutpoint with
  | some (txid, index) =>
    (if outpointKey txid (some index) ∉ scan.seen then
      ["Settlement must spend the committed funding output"] else []) ++
    (match expect.minInputSats with
      | none => ["Settlement expectation is missing the committed amount"]
      | some minInputSats => if scan.inSum < minInputSats then
          [s!"Settlement spends {scan.inSum} sats, less than the committed {minInputSats}"] else [])
  | none => if scan.seen.length ≠ knownSize expect then
      ["Settlement must spend every known escrow output"] else []

/-- The address of an output, `"(undecodable)"` where there is none. -/
def outputAddress (reader : BtcReader) (out : SettlementOutput) : String :=
  match out.script with
  | none => "(undecodable)"
  | some script =>
    match reader.scriptAddress (expect.network.getD expect.escrow.params.network) script with
    | .ok address => address
    | .error _ => "(undecodable)"

def outputFailures (reader : BtcReader) (tx : SettlementTx) : List String :=
  (if tx.outputs.length ≠ 1 then
    [s!"expected exactly 1 output (the winner), got {tx.outputs.length}"] else []) ++
  (tx.outputs.zipIdx.flatMap fun (out, i) =>
    if outputAddress expect reader out ≠ expect.destination then
      [s!"output {i} pays {outputAddress expect reader out}, not the winner ({expect.destination})"]
    else [])

/-- The sats that a transaction pays. -/
def outSum (tx : SettlementTx) : ℤ := (tx.outputs.map fun out => out.amount.getD 0).sum

def feeFailures (fee : ℤ) : List String :=
  if fee < 0 then ["outputs exceed inputs (negative fee)"]
  else if expect.maxFeeSats < fee then [s!"fee {fee} exceeds max {expect.maxFeeSats}"]
  else []

def startScan (tx : SettlementTx) : InputScan where
  seen := []
  inSum := 0
  failures := if tx.inputs.isEmpty then ["no inputs"] else []

def settlementFailures (reader : BtcReader) (tx : SettlementTx) : Except String (List String) := do
  let scan ← scanInputs expect 0 tx.inputs (startScan tx)
  return scan.failures ++ refundFailures expect tx ++ coverFailures expect scan ++
    outputFailures expect reader tx ++ feeFailures expect (scan.inSum - outSum tx)

def decodedSettlement (reader : BtcReader) (psbtB64 : String) : Except String SettlementTx := do
  reader.fromPsbt (← reader.base64Decode psbtB64)

def verifySettlementPsbt (reader : BtcReader) (psbtB64 : String) :
    Except String SettlementCheck :=
  match decodedSettlement reader psbtB64 with
  | .error message => .ok ⟨false, [s!"unparseable PSBT: {message}"]⟩
  | .ok tx => do
    let failures ← settlementFailures expect reader tx
    return ⟨failures.isEmpty, failures⟩

/-! ### What the checklist is for -/

def SettlementInput.outpoint (input : SettlementInput) : String × Option ℕ :=
  (input.txidText, input.index)

def BondUtxo.outpoint (u : BondUtxo) : String × Option ℕ := (u.txid, some u.index)

def spentSats (tx : SettlementTx) : ℤ :=
  (tx.inputs.map fun input => (input.witnessUtxo.map WitnessUtxo.amount).getD 0).sum

/-- An input spends a known output of the escrow, with its amount and script, under the default
signature type. -/
def SpendsKnown (input : SettlementInput) : Prop :=
  ∃ u ∈ expect.utxos, input.outpoint = u.outpoint ∧
    input.witnessUtxo = some ⟨expect.escrow.script, u.amountSats⟩ ∧
    (input.sighashType = none ∨ input.sighashType = some 0)

/-- The inputs include the committed outpoint and the committed amount, or, where none is committed,
all the known outputs. -/
def Covers (tx : SettlementTx) : Prop :=
  match expect.committedOutpoint with
  | some (txid, index) =>
    (∃ input ∈ tx.inputs, input.outpoint = (txid, some index)) ∧
      ∃ minInputSats, expect.minInputSats = some minInputSats ∧ minInputSats ≤ spentSats tx
  | none => ∀ u ∈ expect.utxos, ∃ input ∈ tx.inputs, input.outpoint = u.outpoint

/-- A relative lock of `csvBlocks` blocks is satisfied: the sequence counts blocks, at least so
many. -/
def SatisfiesCsv (csvBlocks sequence : ℕ) : Prop :=
  sequence.testBit 31 = false ∧ sequence.testBit 22 = false ∧ csvBlocks ≤ sequence % 2 ^ 16

def PaysTo (reader : BtcReader) (address : String) (out : SettlementOutput) : Prop :=
  ∃ script, out.script = some script ∧
    reader.scriptAddress (expect.network.getD expect.escrow.params.network) script = .ok address

structure IsSafe (reader : BtcReader) (tx : SettlementTx) : Prop where
  distinct : (tx.inputs.map SettlementInput.outpoint).Nodup
  known : ∀ input ∈ tx.inputs, SpendsKnown expect input
  covers : Covers expect tx
  pays : ∃ out, tx.outputs = [out] ∧ PaysTo expect reader expect.destination out
  fee_nonneg : outSum tx ≤ spentSats tx
  fee_le : spentSats tx - outSum tx ≤ expect.maxFeeSats
  dispute : expect.leaf = some .dispute → ∀ input ∈ tx.inputs, ∃ sequence,
    input.sequence = some sequence ∧ SatisfiesCsv expect.escrow.params.disputeCsvBlocks sequence
  refund : expect.leaf = some .refund → tx.lockTime = expect.escrow.params.refundLockUntil ∧
    ∀ input ∈ tx.inputs, ∃ sequence, input.sequence = some sequence ∧ sequence < 0xffffffff

variable {expect}

/-! ### Keys of outpoints -/

theorem digitChar_inj : ∀ i < 16, ∀ j < 16, Nat.digitChar i = Nat.digitChar j → i = j := by
  decide

theorem bytesToHex_injective {bytes bytes' : Bytes} (h : bytesToHex bytes = bytesToHex bytes') :
    bytes = bytes' := by
  have hlists := String.ofList_inj.mp h
  clear h
  induction bytes generalizing bytes' with
  | nil =>
    cases bytes' with
    | nil => rfl
    | cons b' rest' => cases hlists
  | cons b rest ih =>
    cases bytes' with
    | nil => cases hlists
    | cons b' rest' =>
      simp only [List.flatMap_cons, List.cons_append, List.nil_append, List.cons.injEq] at hlists
      obtain ⟨hhigh, hlow, hrest⟩ := hlists
      have hb := b.toNat_lt
      have hb' := b'.toNat_lt
      have hdiv := digitChar_inj _ (by omega) _ (by omega) hhigh
      have hmod := digitChar_inj _ (by omega) _ (by omega) hlow
      have hsame : b.toNat = b'.toNat := by omega
      rw [UInt8.toNat_inj.mp hsame, ih hrest]

theorem colon_notMem_shown (index : Option ℕ) : ':' ∉ (shown index).toList := by
  cases index with
  | none => decide
  | some n =>
    have hcolon : JsNumber.IsSeparator ':' := by decide
    simpa [shown, Nat.toString_eq_repr] using hcolon.notMem_toDigits n

variable {index index' : Option ℕ}

theorem shown_injective (h : shown index = shown index') : index = index' := by
  have hundefined (n : ℕ) : shown (some n) ≠ "undefined" := by
    intro heq
    have hmem : 'u' ∈ Nat.toDigits 10 n := by
      have hlist := congrArg String.toList heq
      rw [show (shown (some n)).toList = Nat.toDigits 10 n by simp [shown, Nat.toString_eq_repr]]
        at hlist
      rw [hlist]
      decide
    exact absurd (Nat.isDigit_of_mem_toDigits (by omega) (by omega) hmem) (by decide)
  cases index with
  | none =>
    cases index' with
    | none => rfl
    | some n => exact absurd h.symm (hundefined n)
  | some n =>
    cases index' with
    | none => exact absurd h (hundefined n)
    | some m =>
      have hnumber := congrArg (fun t => Nat.ofDigitChars 10 t.toList 0) h
      simp only [shown, Nat.toString_eq_repr, Nat.toList_repr, Nat.ofDigitChars_ten_toDigits]
        at hnumber
      rw [hnumber]

theorem outpointKey_injective {txid txid' : String}
    (h : outpointKey txid index = outpointKey txid' index') : txid = txid' ∧ index = index' := by
  have hlists := congrArg String.toList h
  simp only [outpointKey, String.toList_append] at hlists
  have hcolon : (":" : String).toList = [':'] := rfl
  rw [hcolon, List.append_assoc, List.append_assoc] at hlists
  obtain ⟨htxid, hindex⟩ := append_cons_inj_of_notMem_right (colon_notMem_shown index)
    (colon_notMem_shown index') hlists
  exact ⟨String.toList_inj.mp htxid, shown_injective (String.toList_inj.mp hindex)⟩

variable {input : SettlementInput}

theorem outpoint_eq_of_key {txid : String} {index : Option ℕ}
    (h : input.key = outpointKey txid index) : input.outpoint = (txid, index) := by
  obtain ⟨htxid, hindex⟩ := outpointKey_injective h
  exact Prod.ext htxid hindex

/-! ### One input -/

def SequenceMeets (expect : SettlementExpectation) (input : SettlementInput) : Prop :=
  (expect.leaf = some .dispute → ∃ sequence, input.sequence = some sequence ∧
    SatisfiesCsv expect.escrow.params.disputeCsvBlocks sequence) ∧
  (expect.leaf = some .refund → input.sequence = some sequenceFinalMinusOne)

theorem blocks_masked {csv : ℕ} (h : csv ≤ 0xffff) : csv &&& 0xffff = csv := by
  rw [show (0xffff : ℕ) = 2 ^ 16 - 1 from rfl, Nat.and_two_pow_sub_one_eq_mod]
  exact Nat.mod_eq_of_lt (by omega)

variable {i : ℕ}

theorem sequenceMeets_of_ok
    (h : sequenceFailures expect i input = .ok []) : SequenceMeets expect input := by
  constructor
  · intro hleaf
    unfold sequenceFailures at h
    rw [hleaf] at h
    obtain ⟨required, hrequired, hchecked⟩ := bind_eq_ok.mp h
    dsimp only at hchecked
    have hmeets := pure_eq_ok.mp hchecked
    split_ifs at hmeets with hfault
    push Not at hfault
    obtain ⟨hasserts, hsame⟩ := hfault
    have hblocks : assertsRelativeBlockAge (input.sequence.getD 0xffffffff) = true := by
      simpa using hasserts
    unfold assertsRelativeBlockAge at hblocks
    rw [Bool.and_eq_true, Bool.not_eq_true', Bool.not_eq_true'] at hblocks
    obtain ⟨hdisable, hseconds⟩ := hblocks
    -- the value for a leaf without a window has the disable flag, and so has an absent sequence
    have hcsv : sequenceForLeaf .dispute expect.escrow.params.disputeCsvBlocks =
        .ok (expect.escrow.params.disputeCsvBlocks &&& 0xffff) ∧
          expect.escrow.params.disputeCsvBlocks ≤ 0xffff := by
      unfold sequenceForLeaf at hrequired ⊢
      split_ifs at hrequired ⊢ with hzero hlarge
      · obtain rfl := Except.ok.inj hrequired
        rw [hsame] at hdisable
        exact absurd hdisable (by decide)
      · exact ⟨rfl, by omega⟩
    obtain ⟨hvalue, hle⟩ := hcsv
    obtain rfl := Except.ok.inj (hrequired.symm.trans hvalue)
    rw [blocks_masked hle] at hsame
    cases hsequence : input.sequence with
    | none =>
      rw [hsequence] at hdisable
      exact absurd hdisable (by decide)
    | some sequence =>
      rw [hsequence] at hsame hdisable hseconds
      obtain rfl : sequence = _ := hsame
      refine ⟨_, rfl, hdisable, hseconds, ?_⟩
      rw [Nat.mod_eq_of_lt (by omega)]
  · intro hleaf
    unfold sequenceFailures at h
    rw [hleaf] at h
    have hmeets := Except.ok.inj h
    split_ifs at hmeets with hfault
    exact not_not.mp hfault

theorem mem_of_knownUtxo {key : String} {u : BondUtxo} (h : knownUtxo expect key = some u) :
    u ∈ expect.utxos ∧ u.key = key :=
  ⟨List.mem_reverse.mp (List.mem_of_find?_eq_some h), of_decide_eq_true (List.find?_some h :)⟩

theorem spendsKnown_of_nil {u : BondUtxo}
    (hu : knownUtxo expect input.key = some u) (h : spendFailures expect i input u = []) :
    SpendsKnown expect input ∧
      (input.witnessUtxo.map WitnessUtxo.amount).getD 0 = u.amountSats := by
  obtain ⟨hmem, hkey⟩ := mem_of_knownUtxo hu
  unfold spendFailures at h
  obtain ⟨hfirst, hsighash⟩ := List.append_eq_nil_iff.mp h
  obtain ⟨hamount, hscript⟩ := List.append_eq_nil_iff.mp hfirst
  split_ifs at hamount with hamount'
  split_ifs at hscript with hscript'
  split_ifs at hsighash with hsighash'
  have hamount := not_not.mp hamount'
  refine ⟨⟨u, hmem, outpoint_eq_of_key hkey.symm, ?_, ?_⟩, by rw [hamount]; rfl⟩
  · cases hprev : input.witnessUtxo with
    | none =>
      rw [hprev] at hamount
      cases hamount
    | some prev =>
      rw [hprev] at hamount hscript'
      have hsame : bytesToHex prev.script = bytesToHex expect.escrow.script := by
        simpa using hscript'
      rw [← bytesToHex_injective hsame, ← Option.some.inj hamount]
  · cases hsig : input.sighashType with
    | none => exact Or.inl rfl
    | some sighashType =>
      rw [hsig] at hsighash'
      have hzero : sighashType = 0 := by simpa using hsighash'
      exact Or.inr (congrArg some hzero)

theorem scanInput_clean {scan next : InputScan}
    (h : scanInput expect i input scan = .ok next) (hclean : next.failures = []) :
    scan.failures = [] ∧ input.key ∉ scan.seen ∧ next.seen = input.key :: scan.seen ∧
      next.inSum = scan.inSum + (input.witnessUtxo.map WitnessUtxo.amount).getD 0 ∧
      SpendsKnown expect input ∧ SequenceMeets expect input := by
  unfold scanInput at h
  cases hu : knownUtxo expect input.key with
  | none =>
    rw [hu] at h
    obtain rfl := Except.ok.inj h
    exact absurd hclean (by simp)
  | some u =>
    rw [hu] at h
    dsimp only at h
    split_ifs at h with hseen
    · obtain rfl := Except.ok.inj h
      exact absurd hclean (by simp)
    · obtain ⟨sequence, hsequence, hnext⟩ := bind_eq_ok.mp h
      obtain rfl := pure_eq_ok.mp hnext
      obtain ⟨hbefore, hnil⟩ := List.append_eq_nil_iff.mp hclean
      obtain ⟨hscan, hspend⟩ := List.append_eq_nil_iff.mp hbefore
      obtain ⟨hknown, hamount⟩ := spendsKnown_of_nil hu hspend
      subst hnil
      exact ⟨hscan, hseen, rfl, by rw [hamount], hknown, sequenceMeets_of_ok hsequence⟩

/-! ### All inputs -/

variable {inputs : List SettlementInput}

theorem scanInputs_clean {scan final : InputScan}
    (h : scanInputs expect i inputs scan = .ok final) (hclean : final.failures = []) :
    scan.failures = [] ∧ (∀ input ∈ inputs, SpendsKnown expect input ∧ SequenceMeets expect input) ∧
      final.seen = (inputs.map SettlementInput.key).reverse ++ scan.seen ∧
      (scan.seen.Nodup → final.seen.Nodup) ∧
      final.inSum = scan.inSum +
        (inputs.map fun input => (input.witnessUtxo.map WitnessUtxo.amount).getD 0).sum := by
  induction inputs generalizing i scan with
  | nil =>
    obtain rfl := Except.ok.inj h
    exact ⟨hclean, by simp, rfl, id, by simp⟩
  | cons input rest ih =>
    obtain ⟨next, hnext, hrest⟩ := bind_eq_ok.mp h
    obtain ⟨hfailures, hall, hseen, hnodup, hsum⟩ := ih hrest
    obtain ⟨hscan, hnew, hseen', hsum', hknown, hmeets⟩ := scanInput_clean hnext hfailures
    refine ⟨hscan, ?_, ?_, ?_, ?_⟩
    · intro input' hmem
      rcases List.mem_cons.mp hmem with rfl | hmem
      · exact ⟨hknown, hmeets⟩
      · exact hall input' hmem
    · rw [hseen, hseen', List.map_cons, List.reverse_cons, List.append_assoc]
      rfl
    · intro hbefore
      refine hnodup ?_
      rw [hseen']
      exact List.nodup_cons.mpr ⟨hnew, hbefore⟩
    · rw [hsum, hsum', List.map_cons, List.sum_cons, add_assoc]

/-! ### The whole checklist -/

variable {reader : BtcReader} {tx : SettlementTx}

theorem map_key (inputs : List SettlementInput) :
    inputs.map SettlementInput.key =
      (inputs.map SettlementInput.outpoint).map fun p => outpointKey p.1 p.2 := by
  rw [List.map_map]
  rfl

theorem mem_key_iff {txid : String} {index : Option ℕ} :
    outpointKey txid index ∈ inputs.map SettlementInput.key ↔
      ∃ input ∈ inputs, input.outpoint = (txid, index) := by
  constructor
  · intro hmem
    obtain ⟨input, hinput, hkey⟩ := List.mem_map.mp hmem
    exact ⟨input, hinput, outpoint_eq_of_key hkey⟩
  · rintro ⟨input, hinput, houtpoint⟩
    refine List.mem_map.mpr ⟨input, hinput, ?_⟩
    show outpointKey input.outpoint.1 input.outpoint.2 = outpointKey txid index
    rw [houtpoint]

theorem covers_of_nil {scan : InputScan}
    (hseen : scan.seen = (tx.inputs.map SettlementInput.key).reverse) (hnodup : scan.seen.Nodup)
    (hknown : ∀ input ∈ tx.inputs, SpendsKnown expect input)
    (hsum : scan.inSum = spentSats tx) (h : coverFailures expect scan = []) :
    Covers expect tx := by
  have hmem (key : String) : key ∈ scan.seen ↔ key ∈ tx.inputs.map SettlementInput.key := by
    rw [hseen, List.mem_reverse]
  unfold coverFailures at h
  unfold Covers
  cases hcommitted : expect.committedOutpoint with
  | some committed =>
    rw [hcommitted] at h
    obtain ⟨hspent, hamount⟩ := List.append_eq_nil_iff.mp h
    split_ifs at hspent with hspent'
    refine ⟨mem_key_iff.mp ((hmem _).mp hspent'), ?_⟩
    cases hmin : expect.minInputSats with
    | none =>
      rw [hmin] at hamount
      cases hamount
    | some minInputSats =>
      rw [hmin] at hamount
      dsimp only at hamount
      split_ifs at hamount with hless
      exact ⟨minInputSats, rfl, hsum ▸ not_lt.mp hless⟩
  | none =>
    rw [hcommitted] at h
    dsimp only at h
    split_ifs at h with hsize
    intro u hu
    -- as many keys are seen as there are known ones, so every known one is seen
    have hsub : scan.seen ⊆ (expect.utxos.map BondUtxo.key).dedup := by
      intro key hkey
      obtain ⟨input, hinput, rfl⟩ := List.mem_map.mp ((hmem key).mp hkey)
      obtain ⟨u', hu', houtpoint, -⟩ := hknown input hinput
      refine List.mem_dedup.mpr (List.mem_map.mpr ⟨u', hu', ?_⟩)
      show outpointKey u'.outpoint.1 u'.outpoint.2 =
        outpointKey input.outpoint.1 input.outpoint.2
      rw [houtpoint]
    have hall := subset_of_nodup_of_length hnodup hsub (le_of_eq (not_not.mp hsize).symm)
    have hkey := hall (List.mem_dedup.mpr (List.mem_map_of_mem hu))
    exact mem_key_iff.mp ((hmem _).mp hkey)

theorem output_of_nil (h : outputFailures expect reader tx = []) :
    ∃ out, tx.outputs = [out] ∧ outputAddress expect reader out = expect.destination := by
  obtain ⟨hcount, haddresses⟩ := List.append_eq_nil_iff.mp h
  split_ifs at hcount with hcount'
  obtain ⟨out, hout⟩ := List.length_eq_one_iff.mp (not_not.mp hcount')
  refine ⟨out, hout, ?_⟩
  rw [hout] at haddresses
  by_contra hother
  simp [hother] at haddresses

theorem fee_of_nil {fee : ℤ} (h : feeFailures expect fee = []) :
    0 ≤ fee ∧ fee ≤ expect.maxFeeSats := by
  unfold feeFailures at h
  split_ifs at h with hnegative hlarge
  exact ⟨not_lt.mp hnegative, not_lt.mp hlarge⟩

theorem paysTo_or_undecodable (out : SettlementOutput) :
    PaysTo expect reader (outputAddress expect reader out) out ∨
      (outputAddress expect reader out = "(undecodable)" ∧
        ∀ address, ¬ PaysTo expect reader address out) := by
  unfold outputAddress PaysTo
  cases hscript : out.script with
  | none => exact Or.inr ⟨rfl, by simp⟩
  | some script =>
    dsimp only
    cases haddress : reader.scriptAddress
        (expect.network.getD expect.escrow.params.network) script with
    | ok address => exact Or.inl ⟨script, rfl, haddress⟩
    | error message =>
      refine Or.inr ⟨rfl, ?_⟩
      rintro address ⟨script', hsame, hok⟩
      obtain rfl := Option.some.inj hsame
      rw [haddress] at hok
      cases hok

theorem safe_of_clean (h : settlementFailures expect reader tx = .ok []) :
    ∃ out, tx.outputs = [out] ∧ outputAddress expect reader out = expect.destination ∧
      (PaysTo expect reader expect.destination out → IsSafe expect reader tx) := by
  obtain ⟨scan, hscan, hrest⟩ := bind_eq_ok.mp h
  have hnil := pure_eq_ok.mp hrest
  obtain ⟨hnil, hfee⟩ := List.append_eq_nil_iff.mp hnil
  obtain ⟨hnil, houtput⟩ := List.append_eq_nil_iff.mp hnil
  obtain ⟨hnil, hcover⟩ := List.append_eq_nil_iff.mp hnil
  obtain ⟨hclean, hrefund⟩ := List.append_eq_nil_iff.mp hnil
  obtain ⟨-, hall, hseen, hnodup, hsum⟩ := scanInputs_clean hscan hclean
  rw [show (startScan tx).seen = [] from rfl, List.append_nil] at hseen
  have hnodup := hnodup List.nodup_nil
  have hsum : scan.inSum = spentSats tx := by
    rw [hsum, show (startScan tx).inSum = 0 from rfl, zero_add]
    rfl
  obtain ⟨out, hout, haddress⟩ := output_of_nil houtput
  obtain ⟨hnonneg, hle⟩ := fee_of_nil hfee
  rw [hsum] at hnonneg hle
  have hknown : ∀ input ∈ tx.inputs, SpendsKnown expect input := fun input hinput =>
    (hall input hinput).1
  refine ⟨out, hout, haddress, fun hpays => ?_⟩
  constructor
  · have hkeys : (tx.inputs.map SettlementInput.key).Nodup := by
      rw [hseen] at hnodup
      exact List.nodup_reverse.mp hnodup
    rw [map_key] at hkeys
    exact List.Nodup.of_map _ hkeys
  · exact hknown
  · exact covers_of_nil hseen hnodup hknown hsum hcover
  · exact ⟨out, hout, hpays⟩
  · omega
  · exact hle
  · exact fun hleaf input hinput => (hall input hinput).2.1 hleaf
  · intro hleaf
    refine ⟨?_, fun input hinput => ?_⟩
    · unfold refundFailures at hrefund
      rw [if_pos hleaf] at hrefund
      obtain ⟨hlock, -⟩ := List.append_eq_nil_iff.mp hrefund
      split_ifs at hlock with hlock'
      exact not_not.mp hlock'
    · exact ⟨sequenceFinalMinusOne, (hall input hinput).2.2 hleaf, by decide⟩

/-- A PSBT that the checklist passes is a safe settlement, unless the destination it was given is
`"(undecodable)"`, the text that stands for an output without an address, and the PSBT has such an
output. -/
theorem settlement_check_safe_iff {psbtB64 : String} {check : SettlementCheck}
    (htx : decodedSettlement reader psbtB64 = .ok tx)
    (hcheck : verifySettlementPsbt expect reader psbtB64 = .ok check) (hok : check.ok = true) :
    IsSafe expect reader tx ↔ expect.destination ≠ "(undecodable)" ∨
      ∀ out ∈ tx.outputs, ∃ address, PaysTo expect reader address out := by
  unfold verifySettlementPsbt at hcheck
  rw [htx] at hcheck
  obtain ⟨failures, hfailures, hrest⟩ := bind_eq_ok.mp hcheck
  obtain rfl := pure_eq_ok.mp hrest
  obtain rfl := List.isEmpty_iff.mp hok
  obtain ⟨out, hout, haddress, hsafe⟩ := safe_of_clean hfailures
  constructor
  · intro h
    obtain ⟨out', hout', hpays⟩ := h.pays
    right
    intro out'' hmem
    rw [hout', List.mem_singleton] at hmem
    exact ⟨expect.destination, hmem ▸ hpays⟩
  · intro h
    refine hsafe ?_
    rcases @paysTo_or_undecodable expect reader out with
      hpays | ⟨htext, hnone⟩
    · rwa [haddress] at hpays
    · rcases h with hdestination | haddresses
      · exact absurd (haddress.symm.trans htext) hdestination
      · obtain ⟨address, hpays⟩ := haddresses out (hout ▸ List.mem_singleton_self out)
        exact absurd hpays (hnone address)

/-! ### Sample settlements -/

/-- A Bitcoin library for samples: the text of a PSBT is the script that a transaction over one
output of 1000 sats pays, and the script `w` has an address. -/
def sampleReader : BtcReader where
  base64Decode text := .ok (ofLatin1 text)
  fromPsbt psbt := .ok {
    inputs := [{
      txid := some [171]
      index := some 0
      witnessUtxo := some ⟨sampleOnchainEscrow.script, 1000⟩
      sequence := some sequenceFinalMinusOne }]
    outputs := [⟨some psbt, some 900⟩]
    lockTime := 0 }
  scriptAddress _ script := if script = [119] then .ok "bc1pwinner" else .error "Unknown script"

def sampleExpectation (destination : String) : SettlementExpectation where
  escrow := sampleOnchainEscrow
  utxos := [⟨"ab", 0, 1000⟩]
  destination := destination
  maxFeeSats := 500
  leaf := some .coop

/-- A settlement that pays the destination it was expected to pay is safe. -/
theorem winner_settlement_safe : ∃ tx, decodedSettlement sampleReader "w" = .ok tx ∧
    IsSafe (sampleExpectation "bc1pwinner") sampleReader tx := by
  have hverify : (verifySettlementPsbt (sampleExpectation "bc1pwinner") sampleReader
      "w").toOption.any (fun check => check.ok) = true := by
    decide +kernel
  obtain ⟨check, hcheck, hok⟩ := exists_ok_of_any hverify
  exact ⟨_, rfl, (settlement_check_safe_iff rfl hcheck hok).mpr (Or.inl (by decide))⟩

/-- With `"(undecodable)"` for the destination the checklist passes a settlement that pays a script
without an address. -/
theorem undecodable_settlement_passes : ∃ tx check,
    decodedSettlement sampleReader "x" = .ok tx ∧
    verifySettlementPsbt (sampleExpectation "(undecodable)") sampleReader "x" = .ok check ∧
    check.ok = true ∧ ¬ IsSafe (sampleExpectation "(undecodable)") sampleReader tx := by
  have hverify : (verifySettlementPsbt (sampleExpectation "(undecodable)") sampleReader
      "x").toOption.any (fun check => check.ok) = true := by
    decide +kernel
  obtain ⟨check, hcheck, hok⟩ := exists_ok_of_any hverify
  refine ⟨_, check, rfl, hcheck, hok, fun hsafe => ?_⟩
  obtain ⟨out, hout, script, hscript, haddress⟩ := hsafe.pays
  obtain rfl := List.singleton_inj.mp hout
  obtain rfl := Option.some.inj hscript
  cases haddress

end ChamaEscrow.BondMultisig
