import ChamaEscrow.Library.CheckSigAdd
import ChamaEscrow.Library.Guarded

/-!
# Finalizing an on-chain settlement

The witness that `leafWitnessFor` assembles by hand for each leaf of the escrow's Taproot tree
(`onchain-escrow.ts`), and `finalizeSettlement`, which combines the parties' PSBTs and gives every
input such a witness (`onchain-escrow-settle.ts`).  The Bitcoin library is a parameter, `BtcSigner`.

* `leaf_accepts_iff`: with valid signatures, a threshold leaf accepts the assembled slots just when
  two of its keys have signed.
* `settlesProperly_iff`: a settlement that is finalized has the witnesses its leaf
  requires just when the leaf is the refund leaf or each input has the signatures of two keys.
-/

namespace ChamaEscrow.BondMultisig

open Library

abbrev Bytes := List UInt8

def bytesToHex (bytes : Bytes) : String :=
  String.ofList (bytes.flatMap fun b =>
    [Nat.digitChar (b.toNat / 16), Nat.digitChar (b.toNat % 16)])

inductive SettlementLeaf
  | coop
  | dispute
  | refund
  deriving DecidableEq

def SettlementLeaf.text : SettlementLeaf → String
  | .coop => "coop"
  | .dispute => "dispute"
  | .refund => "refund"

inductive BtcNetwork
  | signet
  | mainnet
  deriving DecidableEq

inductive Funder
  | buyer
  | seller
  deriving DecidableEq

structure OnchainEscrowParams where
  buyerXonly : Bytes
  sellerXonly : Bytes
  arbiterXonly : Bytes
  funder : Funder
  refundLockUntil : ℕ
  disputeCsvBlocks : ℕ
  network : BtcNetwork

structure EscrowLeaves where
  coop : Bytes
  dispute : Bytes
  refund : Bytes

def EscrowLeaves.get (leaves : EscrowLeaves) : SettlementLeaf → Bytes
  | .coop => leaves.coop
  | .dispute => leaves.dispute
  | .refund => leaves.refund

structure OnchainEscrow where
  address : String
  script : Bytes
  leaves : EscrowLeaves
  params : OnchainEscrowParams

def SchnorrSignature := { bytes : Bytes // bytes.length = 64 ∨ bytes.length = 65 }

structure TapScriptSig where
  pubKey : Bytes
  leafHash : Bytes
  signature : SchnorrSignature

structure PsbtInput where
  tapScriptSig : Option (List TapScriptSig)
  finalScriptWitness : Option (List Bytes)

/-- A transaction: its inputs, and what the settlement does not touch. -/
structure Transaction where
  inputs : List PsbtInput
  unsigned : Bytes

/-- A leaf of a Taproot tree with its control block. -/
structure TapLeaf where
  script : Bytes
  controlBlock : Bytes
  deriving DecidableEq

/-- What the settlement uses of the Bitcoin library. -/
structure BtcSigner where
  base64Decode : String → Except String Bytes
  psbtCombine : List Bytes → Except String Bytes
  fromPsbt : Bytes → Except String Transaction
  p2trLeaves : BtcNetwork → List Bytes → List TapLeaf
  tapLeafHash : Bytes → Bytes
  finalize : Transaction → Except String Transaction
  extract : Transaction → Except String Bytes

variable (btc : BtcSigner) (escrow : OnchainEscrow) (leaf : SettlementLeaf)

/-! ### The witness of a leaf -/

def escrowTree : List TapLeaf :=
  btc.p2trLeaves escrow.params.network
    [escrow.leaves.coop, escrow.leaves.dispute, escrow.leaves.refund]

def leafSigs (input : PsbtInput) : List TapScriptSig :=
  (input.tapScriptSig.getD []).filter fun sig =>
    sig.leafHash = btc.tapLeafHash (escrow.leaves.get leaf)

def funderKey : Bytes :=
  if escrow.params.funder = .buyer then escrow.params.buyerXonly else escrow.params.sellerXonly

def leafKeys : List Bytes :=
  if leaf = .coop then [escrow.params.buyerXonly, escrow.params.sellerXonly]
  else [escrow.params.buyerXonly, escrow.params.sellerXonly, escrow.params.arbiterXonly]

/-- `new Map(sigs).get(key)`: of two signatures by one key the later counts. -/
def signatureOf (sigs : List TapScriptSig) (key : Bytes) : Option SchnorrSignature :=
  (sigs.reverse.find? fun sig => sig.pubKey = key).map TapScriptSig.signature

def leafSlots (input : PsbtInput) : List (Option SchnorrSignature) :=
  (leafKeys escrow leaf).map (signatureOf (leafSigs btc escrow leaf input))

def slotBytes (slot : Option SchnorrSignature) : Bytes := (slot.map Subtype.val).getD []

/-- The stack that `leafWitnessFor` returns for an input, `found` being the leaf in the tree. -/
def stackFor (found : TapLeaf) (input : PsbtInput) : Except String (List Bytes) :=
  let script := escrow.leaves.get leaf
  let sigs := leafSigs btc escrow leaf input
  if sigs.isEmpty then .error (leaf.text ++ " input is not signed yet")
  else if leaf = .refund then
    match sigs.find? fun sig => sig.pubKey = funderKey escrow with
    | none => .error "Missing funder refund signature"
    | some sig => .ok [sig.signature.val, script, found.controlBlock]
  else
    .ok (((leafSlots btc escrow leaf input).map slotBytes).reverse ++ [script, found.controlBlock])

def leafWitnessFor (tx : Transaction) (index : ℕ) : Except String (List Bytes) :=
  match (escrowTree btc escrow).find? fun l => l.script = escrow.leaves.get leaf with
  | none => .error (leaf.text ++ " leaf missing from the recomputed tree")
  | some found =>
    match tx.inputs[index]? with
    | none => .error ("Wrong input index=" ++ toString index)
    | some input => stackFor btc escrow leaf found input

/-! ### Finalizing -/

def Transaction.updateInput (tx : Transaction) (i : ℕ) (witness : List Bytes) : Transaction :=
  { tx with
    inputs := tx.inputs.modify i fun input => { input with finalScriptWitness := some witness } }

def finalizeInput (tx : Transaction) (i : ℕ) : Except String Transaction := do
  let witness ← leafWitnessFor btc escrow leaf tx i
  pure (tx.updateInput i witness)

def combinedSettlement (psbtsB64 : List String) : Except String Transaction := do
  if psbtsB64.isEmpty then throw "No PSBTs to combine"
  let decoded ← psbtsB64.mapM btc.base64Decode
  let combined ← btc.psbtCombine decoded
  btc.fromPsbt combined

/-- The transaction that `finalizeSettlement` extracts. -/
def finalizedSettlement (psbtsB64 : List String) (opts : Option (OnchainEscrow × SettlementLeaf)) :
    Except String Transaction := do
  let tx ← combinedSettlement btc psbtsB64
  match opts with
  | some (escrow, leaf) =>
    (List.range tx.inputs.length).foldlM (finalizeInput btc escrow leaf) tx
  | none => btc.finalize tx

def finalizeSettlement (psbtsB64 : List String) (opts : Option (OnchainEscrow × SettlementLeaf)) :
    Except String String := do
  let tx ← finalizedSettlement btc psbtsB64 opts
  let raw ← btc.extract tx
  pure (bytesToHex raw)

/-! ### What a leaf requires -/

/-- The witness that a leaf requires of an input: for the refund leaf the funder's signature, for
the others the slots of the leaf's keys in reverse, two of them filled; then the leaf's script and
control block. -/
def RequiredWitness (input : PsbtInput) (witness : List Bytes) : Prop :=
  ∃ found ∈ escrowTree btc escrow, found.script = escrow.leaves.get leaf ∧
    if leaf = .refund then
      ∃ sig ∈ leafSigs btc escrow leaf input, sig.pubKey = funderKey escrow ∧
        witness = [sig.signature.val, escrow.leaves.get leaf, found.controlBlock]
    else
      witness = ((leafSlots btc escrow leaf input).map slotBytes).reverse ++
        [escrow.leaves.get leaf, found.controlBlock] ∧
      ((leafSlots btc escrow leaf input).filter Option.isSome).length = 2

variable {btc escrow leaf}

theorem leaf_accepts_iff {verify : Bytes → SchnorrSignature → Bool} {input : PsbtInput}
    (hvalid : ∀ sig ∈ leafSigs btc escrow leaf input, verify sig.pubKey sig.signature = true) :
    acceptsSigs verify 2 (leafKeys escrow leaf) (leafSlots btc escrow leaf input).reverse ↔
      ((leafSlots btc escrow leaf input).filter Option.isSome).length = 2 := by
  have hlength : (leafSlots btc escrow leaf input).length = (leafKeys escrow leaf).length :=
    List.length_map _
  rw [acceptsSigs_reverse_iff hlength, and_iff_right]
  intro key signature hmem
  unfold leafSlots at hmem
  rw [← List.map_prod_left_eq_zip, List.mem_map] at hmem
  obtain ⟨key', -, heq⟩ := hmem
  obtain ⟨rfl, hslot⟩ := Prod.mk.inj heq
  obtain ⟨sig, hfound, rfl⟩ := Option.map_eq_some_iff.mp hslot
  have hkey : sig.pubKey = key' := by simpa using List.find?_some hfound
  rw [← hkey]
  exact hvalid sig (List.mem_reverse.mp (List.mem_of_find?_eq_some hfound))

/-! ### The loop over the inputs -/

variable {tx final : Transaction} {input : PsbtInput} {witness : List Bytes} {i : ℕ}

theorem leafWitnessFor_eq_ok (h : leafWitnessFor btc escrow leaf tx i = .ok witness) :
    ∃ found ∈ escrowTree btc escrow, found.script = escrow.leaves.get leaf ∧
      ∃ input, tx.inputs[i]? = some input ∧ stackFor btc escrow leaf found input = .ok witness := by
  unfold leafWitnessFor at h
  split at h
  · cases h
  · rename_i found hfound
    split at h
    · cases h
    · exact ⟨found, List.mem_of_find?_eq_some hfound, by simpa using List.find?_some hfound, _,
        by assumption, h⟩

theorem leafWitnessFor_congr {tx' : Transaction} (h : tx'.inputs[i]? = tx.inputs[i]?) :
    leafWitnessFor btc escrow leaf tx' i = leafWitnessFor btc escrow leaf tx i := by
  unfold leafWitnessFor
  rw [h]

theorem finalizeInput_eq_ok (h : finalizeInput btc escrow leaf tx i = .ok final) :
    ∃ witness, leafWitnessFor btc escrow leaf tx i = .ok witness ∧
      final = tx.updateInput i witness := by
  unfold finalizeInput at h
  cases hwitness : leafWitnessFor btc escrow leaf tx i with
  | error message =>
    rw [hwitness] at h
    cases h
  | ok witness =>
    rw [hwitness] at h
    exact ⟨witness, rfl, (Except.ok.inj h).symm⟩

theorem updateInput_inputs (k : ℕ) :
    (tx.updateInput i witness).inputs[k]? =
      if k = i then tx.inputs[k]?.map fun input => { input with finalScriptWitness := some witness }
      else tx.inputs[k]? := by
  unfold Transaction.updateInput
  rw [List.getElem?_modify]
  split_ifs with h₁ h₂ h₃
  · rfl
  · exact absurd h₁.symm h₂
  · exact absurd h₃.symm h₁
  · exact congrFun Option.map_id _

/-- What the first `n` passes of the loop leave: each of the first `n` inputs has the witness that
is assembled for it, the others are as they were. -/
theorem finalizeInputs_spec {n : ℕ} (hn : n ≤ tx.inputs.length)
    (h : (List.range n).foldlM (finalizeInput btc escrow leaf) tx = .ok final) :
    (∀ i, n ≤ i → final.inputs[i]? = tx.inputs[i]?) ∧
      ∀ i < n, ∀ input, tx.inputs[i]? = some input → ∃ witness,
        leafWitnessFor btc escrow leaf tx i = .ok witness ∧
          final.inputs[i]? = some { input with finalScriptWitness := some witness } := by
  induction n generalizing final with
  | zero =>
    obtain rfl := Except.ok.inj h
    exact ⟨fun _ _ => rfl, fun i hi => absurd hi (Nat.not_lt_zero i)⟩
  | succ n ih =>
    rw [List.range_succ, List.foldlM_append] at h
    cases hmid : (List.range n).foldlM (finalizeInput btc escrow leaf) tx with
    | error message =>
      rw [hmid] at h
      cases h
    | ok mid =>
      rw [hmid] at h
      obtain ⟨hrest, hdone⟩ := ih (by omega) hmid
      obtain ⟨last, hlast, hfinal⟩ : ∃ last, finalizeInput btc escrow leaf mid n = .ok last ∧
          last = final := by
        simp only [List.foldlM_cons, List.foldlM_nil, bind_pure] at h
        exact ⟨final, h, rfl⟩
      subst hfinal
      obtain ⟨witness, hwitness, rfl⟩ := finalizeInput_eq_ok hlast
      rw [leafWitnessFor_congr (hrest n (Nat.le_refl n))] at hwitness
      refine ⟨fun i hi => ?_, fun i hi input hinput => ?_⟩
      · rw [updateInput_inputs, if_neg (by omega)]
        exact hrest i (by omega)
      · rw [updateInput_inputs]
        split_ifs with heq
        · subst heq
          refine ⟨witness, hwitness, ?_⟩
          rw [hrest i (Nat.le_refl i), hinput]
          rfl
        · exact hdone i (by omega) input hinput

/-! ### The witnesses of a finalized settlement -/

theorem required_iff_of_stackFor {found : TapLeaf} (hfound : found ∈ escrowTree btc escrow)
    (hscript : found.script = escrow.leaves.get leaf)
    (h : stackFor btc escrow leaf found input = .ok witness) :
    RequiredWitness btc escrow leaf input witness ↔
      leaf = .refund ∨ ((leafSlots btc escrow leaf input).filter Option.isSome).length = 2 := by
  unfold stackFor at h
  dsimp only at h
  split_ifs at h with hsigned hrefund
  · refine ⟨fun _ => Or.inl hrefund, fun _ => ⟨found, hfound, hscript, ?_⟩⟩
    rw [if_pos hrefund]
    split at h
    · cases h
    · rename_i sig hsig
      exact ⟨sig, List.mem_of_find?_eq_some hsig, by simpa using List.find?_some hsig,
        (Except.ok.inj h).symm⟩
  · constructor
    · rintro ⟨_, -, -, hshape⟩
      rw [if_neg hrefund] at hshape
      exact Or.inr hshape.2
    · intro hcount
      refine ⟨found, hfound, hscript, ?_⟩
      rw [if_neg hrefund]
      exact ⟨(Except.ok.inj h).symm, hcount.resolve_left hrefund⟩

variable (btc escrow leaf) in
/-- Finalizing gives every input of the combined transaction the witness that the leaf requires,
unless it throws. -/
def SettlesProperly (psbtsB64 : List String) : Prop :=
  ∀ tx final bytes, combinedSettlement btc psbtsB64 = .ok tx →
    finalizedSettlement btc psbtsB64 (some (escrow, leaf)) = .ok final →
    btc.extract final = .ok bytes →
    ∀ (i : ℕ) (input : PsbtInput), tx.inputs[i]? = some input → ∃ witness,
      final.inputs[i]? = some { input with finalScriptWitness := some witness } ∧
        RequiredWitness btc escrow leaf input witness

theorem finalized_witness {psbtsB64 : List String}
    (htx : combinedSettlement btc psbtsB64 = .ok tx)
    (hfinal : finalizedSettlement btc psbtsB64 (some (escrow, leaf)) = .ok final)
    (hinput : tx.inputs[i]? = some input) : ∃ witness,
      final.inputs[i]? = some { input with finalScriptWitness := some witness } ∧
        (RequiredWitness btc escrow leaf input witness ↔ leaf = .refund ∨
          ((leafSlots btc escrow leaf input).filter Option.isSome).length = 2) := by
  unfold finalizedSettlement at hfinal
  obtain ⟨tx', htx', hloop⟩ := bind_eq_ok.mp hfinal
  obtain rfl := Except.ok.inj (htx.symm.trans htx')
  obtain ⟨-, hdone⟩ := finalizeInputs_spec (Nat.le_refl _) hloop
  have hlt := (List.getElem?_eq_some_iff.mp hinput).1
  obtain ⟨witness, hok, hput⟩ := hdone i hlt input hinput
  obtain ⟨found, hfound, hscript, input', hinput', hstack⟩ := leafWitnessFor_eq_ok hok
  obtain rfl := Option.some.inj (hinput.symm.trans hinput')
  exact ⟨witness, hput, required_iff_of_stackFor hfound hscript hstack⟩

/-- A settlement that is finalized without a throw has the witnesses its leaf requires just when the
leaf is the refund leaf or every input of the combined transaction is signed by two of the leaf's
keys. -/
theorem settlesProperly_iff {psbtsB64 : List String} {raw : String}
    (h : finalizeSettlement btc psbtsB64 (some (escrow, leaf)) = .ok raw) :
    SettlesProperly btc escrow leaf psbtsB64 ↔
      ∀ tx, combinedSettlement btc psbtsB64 = .ok tx → leaf = .refund ∨ ∀ input ∈ tx.inputs,
        ((leafSlots btc escrow leaf input).filter Option.isSome).length = 2 := by
  unfold finalizeSettlement at h
  obtain ⟨final, hfinal, hextract⟩ := bind_eq_ok.mp h
  obtain ⟨bytes, hbytes, -⟩ := bind_eq_ok.mp hextract
  constructor
  · intro hproper tx htx
    by_cases hrefund : leaf = .refund
    · exact Or.inl hrefund
    · refine Or.inr fun input hmem => ?_
      obtain ⟨i, hinput⟩ := List.mem_iff_getElem?.mp hmem
      obtain ⟨witness, hput, hrequired⟩ := hproper tx final bytes htx hfinal hbytes i input hinput
      obtain ⟨witness', hput', hiff⟩ := finalized_witness htx hfinal hinput
      have hsame := Option.some.inj (hput.symm.trans hput')
      obtain rfl := Option.some.inj (congrArg PsbtInput.finalScriptWitness hsame)
      exact (hiff.mp hrequired).resolve_left hrefund
  · intro hsigned tx final bytes htx hfinal _ i input hinput
    obtain ⟨witness, hput, hiff⟩ := finalized_witness htx hfinal hinput
    have hcond := (hsigned tx htx).imp_right fun hall => hall input (List.mem_of_getElem? hinput)
    exact ⟨witness, hput, hiff.mpr hcond⟩

/-! ### A sample settlement -/

def sampleSignature (k : UInt8) : SchnorrSignature :=
  ⟨List.replicate 64 k, Or.inl List.length_replicate⟩

/-- A Bitcoin library for samples: a PSBT of a settlement with one input is the list of the keys
that have signed the cooperative leaf, and combining joins the lists. -/
def sampleBtc : BtcSigner where
  base64Decode text := .ok (text.toList.map fun c => c.toNat.toUInt8)
  psbtCombine psbts := .ok psbts.flatten
  fromPsbt psbt :=
    .ok { inputs := [⟨some (psbt.map fun k => ⟨[k], [0], sampleSignature k⟩), none⟩]
          unsigned := [] }
  p2trLeaves _ scripts := scripts.map fun script => ⟨script, 192 :: script⟩
  tapLeafHash script := script.take 1
  finalize _ := .error "Unknown tapLeafScript"
  extract tx :=
    if tx.inputs.all fun input => input.finalScriptWitness.isSome then
      .ok (tx.inputs.flatMap fun input => (input.finalScriptWitness.getD []).flatten)
    else .error "Transaction has unfinalized inputs"

/-- The escrow of the keys `b`, `s` and `a`. -/
def sampleOnchainEscrow : OnchainEscrow where
  address := "bc1p"
  script := []
  leaves := ⟨[0, 98, 115], [1, 98, 115, 97], [2, 98]⟩
  params := ⟨[98], [115], [97], .buyer, 900000, 144, .mainnet⟩

/-- Two signatures on the cooperative leaf, each valid for the key that it repeats. -/
theorem leaf_accepts_sample :
    acceptsSigs (fun key signature => signature.val.take 1 = key) 2
      (leafKeys sampleOnchainEscrow .coop)
      (leafSlots sampleBtc sampleOnchainEscrow .coop
        ⟨some ([98, 115].map fun k => ⟨[k], [0], sampleSignature k⟩), none⟩).reverse := by
  refine (leaf_accepts_iff ?_).mpr (by decide +kernel)
  decide +kernel

/-- A cooperative settlement that both principals have signed. -/
theorem settlesProperly_sample :
    SettlesProperly sampleBtc sampleOnchainEscrow .coop ["b", "s"] := by
  have hfinalized : (finalizeSettlement sampleBtc ["b", "s"]
      (some (sampleOnchainEscrow, .coop))).toOption.any (fun _ => true) = true := by
    decide +kernel
  have hsigned : (combinedSettlement sampleBtc ["b", "s"]).toOption.any (fun tx =>
      tx.inputs.all fun input =>
        ((leafSlots sampleBtc sampleOnchainEscrow .coop input).filter Option.isSome).length = 2) =
      true := by
    decide +kernel
  obtain ⟨raw, hraw, -⟩ := exists_ok_of_any hfinalized
  obtain ⟨tx, htx, hall⟩ := exists_ok_of_any hsigned
  refine (settlesProperly_iff hraw).mpr fun tx' htx' => Or.inr fun input hinput => ?_
  obtain rfl := Except.ok.inj (htx.symm.trans htx')
  exact of_decide_eq_true (List.all_eq_true.mp hall input hinput)

/-- One signature is enough to finalize a cooperative settlement, with a witness that the leaf does
not accept. -/
theorem one_signature_finalizes :
    ¬ SettlesProperly sampleBtc sampleOnchainEscrow .coop ["b"] := by
  have hfinalized : (finalizedSettlement sampleBtc ["b"]
      (some (sampleOnchainEscrow, .coop))).toOption.any (fun final =>
        (sampleBtc.extract final).toOption.any fun _ => true) = true := by
    decide +kernel
  have hsigned : (combinedSettlement sampleBtc ["b"]).toOption.any (fun tx =>
      tx.inputs[0]?.any fun input =>
        ((leafSlots sampleBtc sampleOnchainEscrow .coop input).filter Option.isSome).length ≠ 2) =
      true := by
    decide +kernel
  obtain ⟨final, hfinal, hextract⟩ := exists_ok_of_any hfinalized
  obtain ⟨bytes, hbytes, -⟩ := exists_ok_of_any hextract
  obtain ⟨tx, htx, hone⟩ := exists_ok_of_any hsigned
  obtain ⟨input, hinput, hcount⟩ := (Option.any_eq_true _ _).mp hone
  intro hproper
  obtain ⟨witness, hput, hrequired⟩ := hproper tx final bytes htx hfinal hbytes 0 input hinput
  obtain ⟨witness', hput', hiff⟩ := finalized_witness htx hfinal hinput
  have hsame := Option.some.inj (hput.symm.trans hput')
  obtain rfl := Option.some.inj (congrArg PsbtInput.finalScriptWitness hsame)
  rcases hiff.mp hrequired with hrefund | htwo
  · cases hrefund
  · exact absurd htwo (of_decide_eq_true hcount)

end ChamaEscrow.BondMultisig
