import ChamaEscrow.Bond.Announcement
import ChamaEscrow.Js.Whole

/-!
# The lineage walk

`bond-multisig/bond-lineage.ts`: a bond claims the bonds that it renews, and the walk proves them
one by one against the chain, newest first.  A hop is proven when its transaction pays the address
that is rebuilt from its key and lock height, and that output was spent by the transaction of the
hop before it, the first one by the funding transaction of the bond itself.

Every reading may fail or leave something out, and the same reading may end differently a second
time; what an explorer does say is taken to be true.

* `lineage_fails_short`: what is proven is a chain of spends within the claim, no tenure starts
  before the earliest bond that is proven, and readings that fail only ever shorten it.
-/

namespace ChamaEscrow.Bond

open Js Library

/-! ### The walk -/

inductive LineageStopReason
  | complete
  | addressMismatch
  | unspent
  | wrongSpender
  | unreadable
  | hopLimit
  deriving DecidableEq

/-- `ProvenLineage`; the default is `NO_LINEAGE`. -/
structure ProvenLineage where
  provenHops : ℕ := 0
  claimedHops : ℕ := 0
  rootFundedAtHeight : Option JsNumber := none
  rootTxid : Option String := none
  stoppedBecause : LineageStopReason := .complete
  deriving DecidableEq

/-- What the walk reads of a transaction: the address that each output pays, if the outputs are
there at all, and the height of its block. -/
structure EsploraTx where
  vout : Option (List (Option String))
  blockHeight : Option JsNumber

/-- What `esploraOutspend` reports of an output. -/
structure Outspend where
  spent : Bool
  txid : Option String := none

/-- The explorer, at each step of the walk; a reading without a reply is one that throws. -/
structure Explorer where
  tx : (step : ℕ) → (txid : String) → Option EsploraTx
  outspend : (step : ℕ) → (txid : String) → (vout : ℕ) → Option Outspend

variable (p2tr : CommitmentAddress) (network : BitcoinNetwork)

def hopAddress (hop : BondLineageHop) : Except JsError String :=
  if isLowerHex 64 hop.fromXonly then
    buildCommitmentBond p2tr hop.fromXonly hop.fromLockUntil network
  else .error (.error "not a 32-byte hex key")

/-- One round of the loop of `verifyBondLineage`: the transaction of a hop that is proven. -/
def proveHop (explorer : Explorer) (step : ℕ) (expectedSpender : String) (hop : BondLineageHop) :
    Except LineageStopReason EsploraTx :=
  match hopAddress p2tr network hop with
  | .error _ => .error .addressMismatch
  | .ok recomputed =>
    match explorer.tx step hop.fromTxid with
    | none => .error .unreadable
    | some tx =>
      match tx.vout with
      | none => .error .unreadable
      | some outputs =>
        match outputs.findIdx? (· = some recomputed) with
        | none => .error .addressMismatch
        | some vout =>
          match explorer.outspend step hop.fromTxid vout with
          | none => .error .unreadable
          | some spend =>
            if !spend.spent then .error .unspent
            else if spend.txid.any fun txid => txid ≠ "" && toLowerCase txid = expectedSpender then
              .ok tx
            else .error .wrongSpender

def ProvenLineage.extend (result : ProvenLineage) (step : ℕ) (hop : BondLineageHop)
    (tx : EsploraTx) : ProvenLineage :=
  { result with
    provenHops := step + 1
    rootTxid := some hop.fromTxid
    rootFundedAtHeight := (tx.blockHeight.filter JsNumber.isFinite).or result.rootFundedAtHeight }

/-- The loop of `verifyBondLineage`. -/
def walkLineage (limit : JsNumber) (explorer : Explorer) :
    (step : ℕ) → (expectedSpender : String) → ProvenLineage → List BondLineageHop → ProvenLineage
  | _, _, result, [] => result
  | step, expectedSpender, result, hop :: rest =>
    if limit ≤ JsNumber.ofInt step then { result with stoppedBecause := .hopLimit }
    else
      match proveHop p2tr network explorer step expectedSpender hop with
      | .error reason => { result with stoppedBecause := reason }
      | .ok tx =>
        walkLineage limit explorer (step + 1) (toLowerCase hop.fromTxid)
          (result.extend step hop tx) rest

def hopLimit (maxHops : Option JsNumber) : JsNumber :=
  JsNumber.max 0
    (JsNumber.min (maxHops.getD (.ofInt maxLineageHops)) (.ofInt maxLineageHops))

def claimedHops (lineage : Option BondLineage) : List BondLineageHop :=
  (lineage.map BondLineage.hops).getD []

def verifyBondLineage (maxHops : Option JsNumber) (explorer : Explorer)
    (lineage : Option BondLineage) (currentFundingTxid : Option String) : ProvenLineage :=
  let claimed := claimedHops lineage
  match currentFundingTxid.filter (· ≠ "") with
  | none => {}
  | some funding =>
    if claimed.isEmpty then {}
    else
      walkLineage p2tr network (hopLimit maxHops) explorer 0 (toLowerCase funding)
        { claimedHops := claimed.length } claimed

def provenRoot (lineage : ProvenLineage) : Option JsNumber :=
  if 0 < lineage.provenHops then lineage.rootFundedAtHeight else none

def tenureStartHeight (fundedAtHeight : Option ℕ) (lineage : ProvenLineage) : Option JsNumber :=
  match provenRoot lineage, fundedAtHeight with
  | none, own => own.map fun height : ℕ => JsNumber.ofInt height
  | some root, none => some root
  | some root, some own => if root < JsNumber.ofInt own then some root else some (.ofInt own)

/-! ### The chain -/

/-- The transactions of the chain by their ids in lower case.  Nothing is spent before it exists. -/
structure Chain where
  outputs : String → List (Option String)
  spender : String → ℕ → Option String
  height : String → Option ℕ
  ordered : ∀ {id vout child h}, spender id vout = some child → height child = some h →
    ∃ h', height id = some h' ∧ h' ≤ h

/-- An explorer that says nothing false, however little it says. -/
structure Explorer.Truthful (explorer : Explorer) (chain : Chain) : Prop where
  outputs : ∀ {step txid tx outputs}, explorer.tx step txid = some tx → tx.vout = some outputs →
    outputs = chain.outputs (toLowerCase txid)
  height : ∀ {step txid tx n}, explorer.tx step txid = some tx → tx.blockHeight = some n →
    n.isFinite = true → ∃ h : ℕ, chain.height (toLowerCase txid) = some h ∧ n = .ofInt h
  spender : ∀ {step txid vout spend child}, explorer.outspend step txid vout = some spend →
    spend.spent = true → spend.txid = some child →
      chain.spender (toLowerCase txid) vout = some (toLowerCase child)

structure EsploraTx.Misses (tx tx' : EsploraTx) : Prop where
  vout : tx'.vout = none ∨ tx'.vout = tx.vout
  blockHeight : tx'.blockHeight = none ∨ tx'.blockHeight = tx.blockHeight

structure Explorer.Misses (explorer explorer' : Explorer) : Prop where
  tx : ∀ {step txid tx'}, explorer'.tx step txid = some tx' →
    ∃ tx, explorer.tx step txid = some tx ∧ tx.Misses tx'
  outspend : ∀ {step txid vout spend}, explorer'.outspend step txid vout = some spend →
    explorer.outspend step txid vout = some spend

/-- A chain of spends, newest first: each hop pays its own address, and that output is spent by the
transaction of the hop before it. -/
inductive SpendChain (chain : Chain) : (child : String) → List BondLineageHop → Prop
  | nil {child} : SpendChain chain child []
  | cons {child hop rest vout recomputed} : hopAddress p2tr network hop = .ok recomputed →
      (chain.outputs (toLowerCase hop.fromTxid))[vout]? = some (some recomputed) →
      chain.spender (toLowerCase hop.fromTxid) vout = some child →
      SpendChain chain (toLowerCase hop.fromTxid) rest → SpendChain chain child (hop :: rest)

/-- A height that is not below the true height of a transaction. -/
def Bounds (chain : Chain) (id : String) (start : JsNumber) : Prop :=
  ∃ h : ℕ, chain.height id = some h ∧ JsNumber.ofInt h ≤ start

/-- A bond whose own height is the true one of its funding transaction. -/
def VerifiedBond.Truthful (bond : VerifiedBond) (chain : Chain) : Prop :=
  ∀ h, bond.fundedAtHeight = some h →
    ∃ txid, bond.fundingTxid = some txid ∧ chain.height (toLowerCase txid) = some h

def NoLonger (start' start : Option JsNumber) : Prop :=
  ∀ s', start' = some s' → ∃ s, start = some s ∧ s ≤ s'

/-! ### One hop -/

variable {p2tr network} {chain : Chain} {explorer explorer' : Explorer}

variable {hop : BondLineageHop} {expectedSpender : String} {tx : EsploraTx} {step : ℕ}

theorem proveHop_eq_ok :
    proveHop p2tr network explorer step expectedSpender hop = .ok tx ↔
      ∃ recomputed outputs vout spend txid, hopAddress p2tr network hop = .ok recomputed ∧
        explorer.tx step hop.fromTxid = some tx ∧ tx.vout = some outputs ∧
        outputs.findIdx? (· = some recomputed) = some vout ∧
        explorer.outspend step hop.fromTxid vout = some spend ∧ spend.spent = true ∧
        spend.txid = some txid ∧ txid ≠ "" ∧ toLowerCase txid = expectedSpender := by
  unfold proveHop
  constructor
  · intro h
    split at h
    · cases h
    · rename_i recomputed haddress
      split at h
      · cases h
      · rename_i read hread
        split at h
        · cases h
        · rename_i outputs houtputs
          split at h
          · cases h
          · rename_i vout hvout
            split at h
            · cases h
            · rename_i spend hspend
              split_ifs at h with hunspent hspender
              cases h
              obtain ⟨txid, htxid, hmatch⟩ := (Option.any_eq_true ..).mp hspender
              rw [Bool.and_eq_true, decide_eq_true_eq, decide_eq_true_eq] at hmatch
              exact ⟨recomputed, outputs, vout, spend, txid, haddress, hread, houtputs, hvout,
                hspend, by simpa using hunspent, htxid, hmatch.1, hmatch.2⟩
  · rintro ⟨recomputed, outputs, vout, spend, txid, haddress, hread, houtputs, hvout, hspend,
      hspent, htxid, hne, hlower⟩
    simp [haddress, hread, houtputs, hvout, hspend, hspent, htxid, hne, hlower]

theorem SpendChain.of_proveHop (htrue : explorer.Truthful chain)
    (h : proveHop p2tr network explorer step expectedSpender hop = .ok tx)
    {rest : List BondLineageHop}
    (hrest : SpendChain p2tr network chain (toLowerCase hop.fromTxid) rest) :
    SpendChain p2tr network chain expectedSpender (hop :: rest) := by
  obtain ⟨recomputed, outputs, vout, spend, txid, haddress, hread, houtputs, hvout, hspend, hspent,
    htxid, -, hlower⟩ := proveHop_eq_ok.mp h
  have hpays : outputs[vout]? = some (some recomputed) := by
    obtain ⟨hlt, hmatch, -⟩ := List.findIdx?_eq_some_iff_getElem.mp hvout
    rw [List.getElem?_eq_getElem hlt]
    exact congrArg some (of_decide_eq_true hmatch)
  rw [htrue.outputs hread houtputs] at hpays
  have hspender := htrue.spender hspend hspent htxid
  rw [hlower] at hspender
  exact .cons haddress hpays hspender hrest

example : hopLimit (some 25) = 24 := by decide +kernel

theorem proveHop_of_misses (hmisses : explorer.Misses explorer') {tx' : EsploraTx}
    (h : proveHop p2tr network explorer' step expectedSpender hop = .ok tx') :
    ∃ tx, proveHop p2tr network explorer step expectedSpender hop = .ok tx ∧ tx.Misses tx' := by
  obtain ⟨recomputed, outputs, vout, spend, txid, haddress, hread, houtputs, hvout, hspend, hspent,
    htxid, hne, hlower⟩ := proveHop_eq_ok.mp h
  obtain ⟨tx, htx, hless⟩ := hmisses.tx hread
  have hsame : tx.vout = some outputs := by
    rcases hless.vout with hnone | hsame
    · rw [hnone] at houtputs
      cases houtputs
    · rw [← hsame]
      exact houtputs
  exact ⟨tx, proveHop_eq_ok.mpr ⟨recomputed, outputs, vout, spend, txid, haddress, htx, hsame,
    hvout, hmisses.outspend hspend, hspent, htxid, hne, hlower⟩, hless⟩

/-! ### Heights -/

variable {start : JsNumber}

theorem Bounds.parent {id child : String} {vout : ℕ}
    (h : Bounds chain child start) (hspender : chain.spender id vout = some child) :
    Bounds chain id start := by
  obtain ⟨height, hheight, hle⟩ := h
  obtain ⟨height', hheight', hle'⟩ := chain.ordered hspender hheight
  have hmono : JsNumber.ofInt height' ≤ .ofInt height :=
    JsNumber.ofInt_mono (by exact_mod_cast hle')
  exact ⟨height', hheight', JsNumber.le_trans hmono hle⟩

variable {child : String}

variable {hops : List BondLineageHop}

theorem Bounds.ancestors
    (h : Bounds chain child start) (hchain : SpendChain p2tr network chain child hops) :
    ∀ hop ∈ hops, Bounds chain (toLowerCase hop.fromTxid) start := by
  induction hchain with
  | nil => exact fun hop hhop => absurd hhop List.not_mem_nil
  | cons _ _ hspender _ ih =>
    intro hop hhop
    have hparent := h.parent hspender
    rcases List.mem_cons.mp hhop with rfl | hhop
    · exact hparent
    · exact ih hparent hop hhop

def Recorded (chain : Chain) (id : String) (result : ProvenLineage) : Prop :=
  ∀ start, result.rootFundedAtHeight = some start → Bounds chain id start

variable {result : ProvenLineage}

theorem Recorded.extend (htrue : explorer.Truthful chain) (h : Recorded chain child result)
    (hprove : proveHop p2tr network explorer step child hop = .ok tx) :
    Recorded chain (toLowerCase hop.fromTxid) (result.extend step hop tx) := by
  intro start hstart
  rw [ProvenLineage.extend, Option.or_eq_some_iff] at hstart
  rcases hstart with hown | ⟨-, hlast⟩
  · obtain ⟨hheight, hfinite⟩ := Option.filter_eq_some_iff.mp hown
    obtain ⟨-, -, -, -, -, -, hread, -⟩ := proveHop_eq_ok.mp hprove
    obtain ⟨height, hchain, rfl⟩ := htrue.height hread hheight hfinite
    exact ⟨height, hchain, JsNumber.le_refl (JsNumber.ofInt_ne_nan _)⟩
  · have hspend := SpendChain.of_proveHop htrue hprove .nil
    exact Bounds.ancestors (h start hlast) hspend hop List.mem_cons_self

theorem NoLonger.refl {start : Option JsNumber} (h : ∀ s, start = some s → s ≠ .nan) :
    NoLonger start start := fun s hs => ⟨s, hs, JsNumber.le_refl (h s hs)⟩

theorem NoLonger.trans {a b c : Option JsNumber} (hab : NoLonger a b) (hbc : NoLonger b c) :
    NoLonger a c := by
  intro s hs
  obtain ⟨t, ht, hle⟩ := hab s hs
  obtain ⟨u, hu, hle'⟩ := hbc t ht
  exact ⟨u, hu, JsNumber.le_trans hle' hle⟩

theorem Recorded.refl {id : String} (h : Recorded chain id result) :
    NoLonger result.rootFundedAtHeight result.rootFundedAtHeight := by
  refine NoLonger.refl fun s hs => ?_
  obtain ⟨height, -, hle⟩ := h s hs
  exact (JsNumber.ne_nan_of_le hle).2

theorem Recorded.noLonger_extend (htrue : explorer.Truthful chain) (h : Recorded chain child result)
    (hprove : proveHop p2tr network explorer step child hop = .ok tx) :
    NoLonger result.rootFundedAtHeight (result.extend step hop tx).rootFundedAtHeight := by
  intro s hs
  have hbound : Bounds chain (toLowerCase hop.fromTxid) s :=
    Bounds.ancestors (h s hs) (SpendChain.of_proveHop htrue hprove .nil) hop List.mem_cons_self
  obtain ⟨height, hheight, hle⟩ := hbound
  cases hown : tx.blockHeight.filter JsNumber.isFinite with
  | none =>
    refine ⟨s, ?_, JsNumber.le_refl (JsNumber.ne_nan_of_le hle).2⟩
    rw [ProvenLineage.extend, hown, Option.none_or, hs]
  | some n =>
    obtain ⟨hblock, hfinite⟩ := Option.filter_eq_some_iff.mp hown
    obtain ⟨-, -, -, -, -, -, hread, -⟩ := proveHop_eq_ok.mp hprove
    obtain ⟨height', hheight', rfl⟩ := htrue.height hread hblock hfinite
    have hsame : height' = height := Option.some.inj (hheight'.symm.trans hheight)
    refine ⟨.ofInt height', ?_, hsame ▸ hle⟩
    rw [ProvenLineage.extend, hown, Option.some_or]

/-! ### The whole walk -/

def lastTxid (child : String) (hops : List BondLineageHop) : String :=
  (hops.getLast?.map fun hop => toLowerCase hop.fromTxid).getD child

theorem lastTxid_cons (child : String) (hop : BondLineageHop) (rest : List BondLineageHop) :
    lastTxid child (hop :: rest) = lastTxid (toLowerCase hop.fromTxid) rest := by
  cases rest with
  | nil => rfl
  | cons next rest => rw [lastTxid, lastTxid, List.getLast?_cons_cons, List.getLast?_cons]; rfl

structure WalkSpec (chain : Chain) (p2tr : CommitmentAddress) (network : BitcoinNetwork)
    (child : String) (hops : List BondLineageHop) (before after : ProvenLineage) : Prop where
  proven : ∃ n ≤ hops.length, after.provenHops = before.provenHops + n ∧
    SpendChain p2tr network chain child (hops.take n) ∧
    Recorded chain (lastTxid child (hops.take n)) after
  root : NoLonger before.rootFundedAtHeight after.rootFundedAtHeight

theorem WalkSpec.stop {before after : ProvenLineage}
    (h : Recorded chain child before) (hhops : after.provenHops = before.provenHops)
    (hroot : after.rootFundedAtHeight = before.rootFundedAtHeight) :
    WalkSpec chain p2tr network child hops before after := by
  have hafter : Recorded chain child after := by
    intro start hstart
    rw [hroot] at hstart
    exact h start hstart
  exact ⟨⟨0, Nat.zero_le _, hhops, .nil, hafter⟩, hroot ▸ h.refl⟩

theorem walkLineage_spec (htrue : explorer.Truthful chain) (limit : JsNumber)
    (hops : List BondLineageHop) :
    ∀ {step : ℕ} {child : String} {before : ProvenLineage}, before.provenHops = step →
      Recorded chain child before →
        WalkSpec chain p2tr network child hops before
          (walkLineage p2tr network limit explorer step child before hops) := by
  induction hops with
  | nil => exact fun hstep hbefore => WalkSpec.stop hbefore rfl rfl
  | cons hop rest ih =>
    intro step child before hstep hbefore
    rw [walkLineage]
    split_ifs
    · exact WalkSpec.stop hbefore rfl rfl
    · cases hprove : proveHop p2tr network explorer step child hop with
      | error reason => exact WalkSpec.stop hbefore rfl rfl
      | ok tx =>
        dsimp only
        have hnext := hbefore.extend htrue hprove
        have hwalk : WalkSpec chain p2tr network (toLowerCase hop.fromTxid) rest
            (before.extend step hop tx)
            (walkLineage p2tr network limit explorer (step + 1) (toLowerCase hop.fromTxid)
              (before.extend step hop tx) rest) := ih rfl hnext
        obtain ⟨⟨n, hle, hcount, hchain, hlast⟩, hroot⟩ := hwalk
        refine ⟨⟨n + 1, ?_, ?_, ?_, ?_⟩, (hbefore.noLonger_extend htrue hprove).trans hroot⟩
        · rw [List.length_cons]
          omega
        · have hextend : (before.extend step hop tx).provenHops = step + 1 := rfl
          rw [hcount, hextend, hstep]
          omega
        · exact SpendChain.of_proveHop htrue hprove hchain
        · rw [List.take_succ_cons, lastTxid_cons]
          exact hlast

theorem Explorer.Misses.truthful (hmisses : explorer.Misses explorer')
    (htrue : explorer.Truthful chain) : explorer'.Truthful chain := by
  refine ⟨fun hread houtputs => ?_, fun hread hheight hfinite => ?_, fun hspend hspent htxid => ?_⟩
  · obtain ⟨tx, htx, hless⟩ := hmisses.tx hread
    rcases hless.vout with hnone | hsame
    · rw [hnone] at houtputs
      cases houtputs
    · exact htrue.outputs htx (hsame ▸ houtputs)
  · obtain ⟨tx, htx, hless⟩ := hmisses.tx hread
    rcases hless.blockHeight with hnone | hsame
    · rw [hnone] at hheight
      cases hheight
    · exact htrue.height htx (hsame ▸ hheight) hfinite
  · exact htrue.spender (hmisses.outspend hspend) hspent htxid

theorem walkLineage_of_misses (htrue : explorer.Truthful chain)
    (hmisses : explorer.Misses explorer') (limit : JsNumber) (hops : List BondLineageHop) :
    ∀ {step : ℕ} {child : String} {before before' : ProvenLineage}, before.provenHops = step →
      before'.provenHops = step → Recorded chain child before → Recorded chain child before' →
      NoLonger before'.rootFundedAtHeight before.rootFundedAtHeight →
      (walkLineage p2tr network limit explorer' step child before' hops).provenHops
          ≤ (walkLineage p2tr network limit explorer step child before hops).provenHops ∧
        NoLonger
          (walkLineage p2tr network limit explorer' step child before' hops).rootFundedAtHeight
          (walkLineage p2tr network limit explorer step child before hops).rootFundedAtHeight := by
  have htrue' := hmisses.truthful htrue
  induction hops with
  | nil =>
    intro step child before before' hstep hstep' _ _ hroot
    exact ⟨(hstep'.trans hstep.symm).le, hroot⟩
  | cons hop rest ih =>
    intro step child before before' hstep hstep' hbefore hbefore' hroot
    -- as far as the walk goes, it only gets older
    have hwalk : WalkSpec chain p2tr network child (hop :: rest) before
        (walkLineage p2tr network limit explorer step child before (hop :: rest)) :=
      walkLineage_spec htrue limit (hop :: rest) hstep hbefore
    obtain ⟨⟨n, -, hcount, -⟩, holder⟩ := hwalk
    have hstopped {stopped : ProvenLineage} (hhops : stopped.provenHops = step)
        (hsame : stopped.rootFundedAtHeight = before'.rootFundedAtHeight) :
        stopped.provenHops ≤
            (walkLineage p2tr network limit explorer step child before
              (hop :: rest)).provenHops ∧
          NoLonger stopped.rootFundedAtHeight (walkLineage p2tr network limit explorer step child
            before (hop :: rest)).rootFundedAtHeight := by
      refine ⟨by omega, ?_⟩
      rw [hsame]
      exact hroot.trans holder
    rw [walkLineage]
    split_ifs with hlimit
    · exact hstopped hstep' rfl
    · cases hprove' : proveHop p2tr network explorer' step child hop with
      | error reason => exact hstopped hstep' rfl
      | ok tx' =>
        obtain ⟨tx, hprove, hless⟩ := proveHop_of_misses hmisses hprove'
        rw [walkLineage, if_neg hlimit, hprove]
        dsimp only
        refine ih rfl rfl (hbefore.extend htrue hprove) (hbefore'.extend htrue' hprove') ?_
        rcases hless.blockHeight with hnone | hsame
        · have hkept : (before'.extend step hop tx').rootFundedAtHeight
              = before'.rootFundedAtHeight := by
            rw [ProvenLineage.extend, hnone, Option.filter_none, Option.none_or]
          rw [hkept]
          exact hroot.trans (hbefore.noLonger_extend htrue hprove)
        · cases hown : tx.blockHeight.filter JsNumber.isFinite with
          | none =>
            rw [ProvenLineage.extend, ProvenLineage.extend, hsame, hown, Option.none_or,
              Option.none_or]
            exact hroot
          | some n =>
            have hextend := hbefore.extend htrue hprove
            have hrefl := hextend.refl
            rw [ProvenLineage.extend, hown, Option.some_or] at hrefl
            rw [ProvenLineage.extend, ProvenLineage.extend, hsame, hown, Option.some_or,
              Option.some_or]
            exact hrefl

/-! ### Tenure -/

variable {proven : ProvenLineage}

theorem tenureStartHeight_cases {own : Option ℕ} (h : tenureStartHeight own proven = some start) :
    (∃ o : ℕ, own = some o ∧ start = .ofInt o) ∨ provenRoot proven = some start := by
  unfold tenureStartHeight at h
  cases hroot : provenRoot proven with
  | none =>
    rw [hroot] at h
    obtain ⟨o, ho, rfl⟩ := Option.map_eq_some_iff.mp h
    exact Or.inl ⟨o, ho, rfl⟩
  | some root =>
    rw [hroot] at h
    cases own with
    | none => exact Or.inr h
    | some o =>
      dsimp only at h
      split_ifs at h
      · exact Or.inr h
      · exact Or.inl ⟨o, rfl, (Option.some.inj h).symm⟩

theorem tenureStartHeight_le_own (o : ℕ) (proven : ProvenLineage) :
    ∃ s, tenureStartHeight (some o) proven = some s ∧ s ≤ .ofInt o := by
  have hself := JsNumber.le_refl (JsNumber.ofInt_ne_nan o)
  unfold tenureStartHeight
  cases provenRoot proven with
  | none => exact ⟨_, rfl, hself⟩
  | some root =>
    dsimp only
    split_ifs with hearlier
    · exact ⟨root, rfl, JsNumber.le_of_lt hearlier⟩
    · exact ⟨_, rfl, hself⟩

theorem tenureStartHeight_le_root {root : JsNumber}
    (hroot : provenRoot proven = some root) (hnan : root ≠ .nan) (own : Option ℕ) :
    ∃ s, tenureStartHeight own proven = some s ∧ s ≤ root := by
  unfold tenureStartHeight
  rw [hroot]
  cases own with
  | none => exact ⟨root, rfl, JsNumber.le_refl hnan⟩
  | some o =>
    dsimp only
    split_ifs with hearlier
    · exact ⟨root, rfl, JsNumber.le_refl hnan⟩
    · exact ⟨_, rfl, JsNumber.le_of_not_lt hnan (JsNumber.ofInt_ne_nan o) hearlier⟩

theorem tenureStartHeight_noLonger {own : Option ℕ} {proven proven' : ProvenLineage}
    (hhops : proven'.provenHops ≤ proven.provenHops)
    (hroot : NoLonger proven'.rootFundedAtHeight proven.rootFundedAtHeight) :
    NoLonger (tenureStartHeight own proven') (tenureStartHeight own proven) := by
  intro s' hs'
  rcases tenureStartHeight_cases hs' with ⟨o, rfl, rfl⟩ | hroot'
  · exact tenureStartHeight_le_own o proven
  · unfold provenRoot at hroot'
    split_ifs at hroot' with hany
    obtain ⟨root, hvalue, hle⟩ := hroot s' hroot'
    have hproven : provenRoot proven = some root := by
      rw [provenRoot, if_pos (by omega), hvalue]
    obtain ⟨s, hs, hearlier⟩ :=
      tenureStartHeight_le_root hproven (JsNumber.ne_nan_of_le hle).1 own
    exact ⟨s, hs, JsNumber.le_trans hearlier hle⟩

theorem ChainView.verified_truthful {view : ChainView} {parsed : ParsedBondAnnouncement}
    {recomputed : String}
    (htrue : ∀ d ∈ view.deposits recomputed, ∀ h, d.blockHeight = some h →
      chain.height (toLowerCase d.txid) = some h) :
    (view.verified parsed recomputed).Truthful chain := by
  intro h hheight
  have hfunded : view.fundedAtHeight recomputed = some h := hheight
  have hmem : h ∈ (view.deposits recomputed).filterMap BondDeposit.blockHeight :=
    List.min?_mem hfunded
  obtain ⟨d, hd, hdheight⟩ := List.mem_filterMap.mp hmem
  have hfound : ((view.deposits recomputed).find? fun u => u.blockHeight =
      view.fundedAtHeight recomputed).isSome = true := by
    rw [List.find?_isSome]
    exact ⟨d, hd, by rw [hfunded, hdheight, decide_eq_true_eq]⟩
  obtain ⟨earliest, hearliest⟩ := Option.isSome_iff_exists.mp hfound
  have hsame : earliest.blockHeight = view.fundedAtHeight recomputed := by
    simpa using List.find?_some hearliest
  refine ⟨earliest.txid, ?_, ?_⟩
  · show view.fundingTxid recomputed = some earliest.txid
    rw [ChainView.fundingTxid, hearliest, Option.some_or, Option.map_some]
  · exact htrue earliest (List.mem_of_find?_eq_some hearliest) h (hsame.trans hfunded)

/-! ### Failing short -/

structure FailsShort (chain : Chain) (p2tr : CommitmentAddress) (network : BitcoinNetwork)
    (bond : VerifiedBond) (proven : ProvenLineage) : Prop where
  within : proven.provenHops ≤ (claimedHops bond.lineage).length
  spends : ∀ funding, bond.fundingTxid = some funding →
    SpendChain p2tr network chain (toLowerCase funding)
      ((claimedHops bond.lineage).take proven.provenHops)
  start : ∀ start, tenureStartHeight bond.fundedAtHeight proven = some start →
    ∀ hop, ((claimedHops bond.lineage).take proven.provenHops).getLast? = some hop →
      Bounds chain (toLowerCase hop.fromTxid) start

theorem verifyBondLineage_spec (htrue : explorer.Truthful chain) {bond : VerifiedBond}
    (hbond : bond.Truthful chain) (maxHops : Option JsNumber) :
    FailsShort chain p2tr network bond
      (verifyBondLineage p2tr network maxHops explorer bond.lineage bond.fundingTxid) := by
  have hnone : FailsShort chain p2tr network bond {} := by
    refine ⟨Nat.zero_le _, fun _ _ => .nil, fun start _ hop hhop => ?_⟩
    cases hhop
  unfold verifyBondLineage
  dsimp only
  split
  · exact hnone
  · rename_i funding hfunding
    obtain ⟨htxid, -⟩ := Option.filter_eq_some_iff.mp hfunding
    split_ifs with hempty
    · exact hnone
    · have hbefore : Recorded chain (toLowerCase funding)
          { claimedHops := (claimedHops bond.lineage).length } := by
        intro start hstart
        cases hstart
      have hwalk : WalkSpec chain p2tr network (toLowerCase funding) (claimedHops bond.lineage)
          { claimedHops := (claimedHops bond.lineage).length }
          (walkLineage p2tr network (hopLimit maxHops) explorer 0 (toLowerCase funding)
            { claimedHops := (claimedHops bond.lineage).length } (claimedHops bond.lineage)) :=
        walkLineage_spec htrue (hopLimit maxHops) (claimedHops bond.lineage) rfl hbefore
      obtain ⟨⟨n, hle, hcount, hchain, hlast⟩, -⟩ := hwalk
      rw [Nat.zero_add] at hcount
      refine ⟨hcount ▸ hle, fun funding' hfunding' => ?_, fun start hstart hop hhop => ?_⟩
      · rw [htxid] at hfunding'
        cases hfunding'
        rw [hcount]
        exact hchain
      · rw [hcount] at hhop
        have hid : lastTxid (toLowerCase funding) ((claimedHops bond.lineage).take n)
            = toLowerCase hop.fromTxid := by
          rw [lastTxid, hhop]
          rfl
        rw [hid] at hlast
        rcases tenureStartHeight_cases hstart with ⟨o, ho, rfl⟩ | hroot
        · obtain ⟨txid, htxid', hheight⟩ := hbond o ho
          rw [htxid] at htxid'
          cases htxid'
          have hown : Bounds chain (toLowerCase funding) (.ofInt o) :=
            ⟨o, hheight, JsNumber.le_refl (JsNumber.ofInt_ne_nan _)⟩
          exact hown.ancestors hchain hop (List.mem_of_getLast? hhop)
        · unfold provenRoot at hroot
          split_ifs at hroot
          exact hlast start hroot

/-- What is proven is a chain of spends within the claim that ends in the bond's own funding, no
tenure starts before the earliest bond that is proven; and with more readings that fail, or miss
something, no more is proven, and no tenure starts earlier. -/
theorem lineage_fails_short (htrue : explorer.Truthful chain) (hmisses : explorer.Misses explorer')
    {bond : VerifiedBond} (hbond : bond.Truthful chain) (maxHops : Option JsNumber) :
    FailsShort chain p2tr network bond
        (verifyBondLineage p2tr network maxHops explorer bond.lineage bond.fundingTxid) ∧
      (verifyBondLineage p2tr network maxHops explorer' bond.lineage bond.fundingTxid).provenHops ≤
        (verifyBondLineage p2tr network maxHops explorer bond.lineage
          bond.fundingTxid).provenHops ∧
      NoLonger
        (tenureStartHeight bond.fundedAtHeight
          (verifyBondLineage p2tr network maxHops explorer' bond.lineage bond.fundingTxid))
        (tenureStartHeight bond.fundedAtHeight
          (verifyBondLineage p2tr network maxHops explorer bond.lineage bond.fundingTxid)) := by
  have hless :
      (verifyBondLineage p2tr network maxHops explorer' bond.lineage bond.fundingTxid).provenHops ≤
        (verifyBondLineage p2tr network maxHops explorer bond.lineage bond.fundingTxid).provenHops ∧
      NoLonger
        (verifyBondLineage p2tr network maxHops explorer' bond.lineage
          bond.fundingTxid).rootFundedAtHeight
        (verifyBondLineage p2tr network maxHops explorer bond.lineage
          bond.fundingTxid).rootFundedAtHeight := by
    have hnothing : NoLonger none none := fun s hs => by cases hs
    unfold verifyBondLineage
    dsimp only
    split
    · exact ⟨Nat.le_refl _, hnothing⟩
    · rename_i funding hfunding
      split_ifs with hempty
      · exact ⟨Nat.le_refl _, hnothing⟩
      · have hbefore : Recorded chain (toLowerCase funding)
            { claimedHops := (claimedHops bond.lineage).length } := by
          intro start hstart
          cases hstart
        exact walkLineage_of_misses htrue hmisses (hopLimit maxHops) (claimedHops bond.lineage) rfl
          rfl hbefore hbefore hnothing
  exact ⟨verifyBondLineage_spec htrue hbond maxHops, hless.1,
    tenureStartHeight_noLonger hless.1 hless.2⟩

/-! ### A bond renewed once -/

/-- A chain on which one bond was spent into another a hundred blocks later. -/
def renewalChain : Chain where
  outputs id := if id = "parent" then [some "address"] else []
  spender id vout := if id = "parent" ∧ vout = 0 then some "child" else none
  height id := if id = "parent" then some 100 else if id = "child" then some 200 else none
  ordered := by
    intro id vout child h hspender hheight
    split_ifs at hspender with hid
    obtain ⟨rfl, -⟩ := hid
    cases hspender
    cases hheight
    exact ⟨100, rfl, by decide⟩

def renewalExplorer (up : Bool) : Explorer where
  tx _ txid :=
    if up ∧ txid = "parent" then some ⟨some [some "address"], some (.ofInt (100 : ℕ))⟩ else none
  outspend _ txid vout :=
    if up ∧ txid = "parent" ∧ vout = 0 then some ⟨true, some "child"⟩ else none

theorem renewalExplorer_truthful (up : Bool) : (renewalExplorer up).Truthful renewalChain := by
  constructor
  · intro step txid tx outputs hread houtputs
    simp only [renewalExplorer] at hread
    split_ifs at hread with hup
    obtain ⟨-, rfl⟩ := hup
    cases hread
    cases houtputs
    rfl
  · intro step txid tx n hread hheight _
    simp only [renewalExplorer] at hread
    split_ifs at hread with hup
    obtain ⟨-, rfl⟩ := hup
    cases hread
    cases hheight
    exact ⟨100, by decide +kernel, rfl⟩
  · intro step txid vout spend child hread _ hchild
    simp only [renewalExplorer] at hread
    split_ifs at hread with hup
    obtain ⟨-, rfl, rfl⟩ := hup
    cases hread
    cases hchild
    decide +kernel

def renewedBond : VerifiedBond where
  npub := ""
  community := ""
  address := "renewed"
  lockUntil := 900000
  actualSats := 1
  claimedSats := 1
  funded := true
  active := true
  fundedAtHeight := some 200
  fundingTxid := some "child"
  roles := [.arbiter]
  ownerXonly := ""
  lineage := some { hops := [⟨String.ofList (List.replicate 64 'a'), 800000, "parent"⟩] }
  announcedAt := 0

/-- The tenure starts with the parent, and with the bond itself while the explorer is down. -/
theorem lineage_fails_short_renewed :
    (verifyBondLineage (fun _ _ _ => .ok "address") .mainnet none (renewalExplorer true)
        renewedBond.lineage renewedBond.fundingTxid).provenHops = 1 ∧
      FailsShort renewalChain (fun _ _ _ => .ok "address") .mainnet renewedBond
        (verifyBondLineage (fun _ _ _ => .ok "address") .mainnet none (renewalExplorer true)
          renewedBond.lineage renewedBond.fundingTxid) ∧
      NoLonger
        (tenureStartHeight renewedBond.fundedAtHeight
          (verifyBondLineage (fun _ _ _ => .ok "address") .mainnet none (renewalExplorer false)
            renewedBond.lineage renewedBond.fundingTxid))
        (tenureStartHeight renewedBond.fundedAtHeight
          (verifyBondLineage (fun _ _ _ => .ok "address") .mainnet none (renewalExplorer true)
            renewedBond.lineage renewedBond.fundingTxid)) := by
  have hmisses : (renewalExplorer true).Misses (renewalExplorer false) := by
    constructor
    · intro step txid tx' hread
      simp [renewalExplorer] at hread
    · intro step txid vout spend hread
      simp [renewalExplorer] at hread
  have hbond : renewedBond.Truthful renewalChain := by
    intro h hheight
    cases hheight
    exact ⟨"child", rfl, by decide +kernel⟩
  have hshort := @lineage_fails_short (fun _ _ _ => .ok "address") .mainnet renewalChain
    (renewalExplorer true) (renewalExplorer false) (renewalExplorer_truthful true) hmisses
    renewedBond hbond none
  exact ⟨by decide +kernel, hshort.1, hshort.2.2⟩

/-- So does the walk of a bond that was verified from true deposits. -/
theorem verified_fails_short (htrue : explorer.Truthful chain) (view : ChainView)
    (parsed : ParsedBondAnnouncement) (recomputed : String) (maxHops : Option JsNumber)
    (hview : ∀ d ∈ view.deposits recomputed, ∀ h, d.blockHeight = some h →
      chain.height (toLowerCase d.txid) = some h) :
    FailsShort chain p2tr network (view.verified parsed recomputed)
      (verifyBondLineage p2tr network maxHops explorer parsed.lineage
        (view.fundingTxid recomputed)) :=
  verifyBondLineage_spec htrue (ChainView.verified_truthful hview) maxHops

theorem verified_fails_short_renewed : ∃ bond proven, proven.provenHops = 1 ∧
    FailsShort renewalChain (fun _ _ _ => .ok "address") .mainnet bond proven := by
  have hshort := @verified_fails_short (fun _ _ _ => .ok "address") .mainnet _ _
    (renewalExplorer_truthful true) ⟨fun _ => [⟨"child", 1, some 200⟩], none⟩
    ⟨String.ofList (List.replicate 64 'a'), "", "", 900000, 1, .mainnet, "", 0, "", [],
      renewedBond.lineage, by decide⟩ "renewed" none (by simp; decide +kernel)
  exact ⟨_, _, by decide +kernel, hshort⟩

end ChamaEscrow.Bond
