import ChamaEscrow.Bond.PoolCache

/-!
# The store of commitment bonds

`bond-multisig/commitment-store.ts`: the records of an arbiter's timelocked bonds, kept twice under
the keys of the active user.  A record that is loaded is rebuilt from its parts, and counts only if
its address comes out again.  To save one again is to merge it: the phase never goes back, and what
the new record leaves out is carried over.

The main result is `commitment_store_keeps`: a bond that is neither removed nor crowded out by two
hundred newer ones is returned, in no earlier phase than it was saved in, and with the outputs that
were recorded until others, or none, are recorded in their place.
-/

namespace ChamaEscrow.Bond

open Js Library

/-! ### Records -/

inductive CommitmentPhase
  | created
  | locked
  | reclaimed
  deriving DecidableEq

/-- `PHASE_RANK`. -/
def CommitmentPhase.rank : CommitmentPhase → ℕ
  | created => 0
  | locked => 1
  | reclaimed => 2

/-- `CommitmentBond`, with its key as hexadecimal text and without the script. -/
structure CommitmentBond where
  ownerXonly : String
  lockUntil : JsNumber
  network : BitcoinNetwork
  address : String

structure BondUtxo where
  txid : String
  index : ℕ
  amountSats : ℤ
  deriving DecidableEq

inductive ReclaimDestinationKind
  | chama
  | external
  | bondKey
  deriving DecidableEq

structure CommitmentReclaimDestination where
  requested : ReclaimDestinationKind
  actual : ReclaimDestinationKind
  address : String
  fallbackReason : Option String := none

structure CommitmentRecord where
  bondId : String
  bond : CommitmentBond
  amountSats : ℤ
  phase : CommitmentPhase
  keyIndex : Option ℕ := none
  utxos : Option (List BondUtxo) := none
  reclaimTxid : Option String := none
  reclaimDestination : Option CommitmentReclaimDestination := none
  creditTxid : Option String := none
  creditOperationId : Option String := none
  creditConfirmedAt : Option ℕ := none
  renewedFromBondId : Option String := none
  renewalToBondId : Option String := none
  renewalTxid : Option String := none
  renewalRawTx : Option String := none
  renewalFeeSats : Option ℤ := none
  renewalBroadcastAt : Option ℕ := none
  createdAt : ℕ

/-- A stored output. -/
structure SerializedUtxo where
  txid : String
  index : ℕ
  amountSats : String

structure SerializedCommitment where
  bondId : String
  ownerXonly : String
  lockUntil : JsNumber
  network : BitcoinNetwork
  address : String
  amountSats : String
  phase : CommitmentPhase
  keyIndex : Option ℕ
  utxos : Option (List SerializedUtxo)
  reclaimTxid : Option String
  reclaimDestination : Option CommitmentReclaimDestination
  creditTxid : Option String
  creditOperationId : Option String
  creditConfirmedAt : Option ℕ
  renewedFromBondId : Option String
  renewalToBondId : Option String
  renewalTxid : Option String
  renewalRawTx : Option String
  renewalFeeSats : Option String
  renewalBroadcastAt : Option ℕ
  createdAt : ℕ
  updatedAt : ℤ

def presentText (text : Option String) : Option String := text.filter (· ≠ "")

def presentTime (time : Option ℕ) : Option ℕ := time.filter (· ≠ 0)

def presentList {α : Type} (list : Option (List α)) : Option (List α) :=
  list.filter fun l => !l.isEmpty

def serializeCommitment (now : ℤ) (rec_ : CommitmentRecord) : SerializedCommitment where
  bondId := rec_.bondId
  ownerXonly := rec_.bond.ownerXonly
  lockUntil := rec_.bond.lockUntil
  network := rec_.bond.network
  address := rec_.bond.address
  amountSats := toString rec_.amountSats
  phase := rec_.phase
  keyIndex := rec_.keyIndex
  utxos := (presentList rec_.utxos).map fun utxos =>
    utxos.map fun u => ⟨u.txid, u.index, toString u.amountSats⟩
  reclaimTxid := presentText rec_.reclaimTxid
  reclaimDestination := rec_.reclaimDestination
  creditTxid := presentText rec_.creditTxid
  creditOperationId := presentText rec_.creditOperationId
  creditConfirmedAt := presentTime rec_.creditConfirmedAt
  renewedFromBondId := presentText rec_.renewedFromBondId
  renewalToBondId := presentText rec_.renewalToBondId
  renewalTxid := presentText rec_.renewalTxid
  renewalRawTx := presentText rec_.renewalRawTx
  renewalFeeSats := rec_.renewalFeeSats.map toString
  renewalBroadcastAt := presentTime rec_.renewalBroadcastAt
  createdAt := rec_.createdAt
  updatedAt := now

section Loading

variable (p2tr : CommitmentAddress) (decodes : BitcoinNetwork → String → Bool)

/-- `validateBitcoinAddressForNetwork`, under the decoder of the Bitcoin library: the address
without the blanks around it. -/
def validateBitcoinAddressForNetwork (raw : String) (network : BitcoinNetwork) : Option String :=
  let address := trim raw
  if address ≠ "" && decodes network address then some address else none

def loadDestination (network : BitcoinNetwork) (d : CommitmentReclaimDestination) :
    Option CommitmentReclaimDestination :=
  (validateBitcoinAddressForNetwork decodes d.address network).map fun address =>
    { d with address, fallbackReason := presentText d.fallbackReason }

/-- A stored output, if its amount is a number. -/
def loadUtxo (u : SerializedUtxo) : Option BondUtxo :=
  (satsOfText u.amountSats).map fun amountSats => ⟨u.txid, u.index, amountSats⟩

def loadPart {α β : Type} (load : α → Option β) : Option α → Option (Option β)
  | none => some none
  | some a => (load a).map some

/-- `deserializeCommitment`: the address must come out again from the parts. -/
def deserializeCommitment (s : SerializedCommitment) : Option CommitmentRecord := do
  let amountSats ← satsOfText s.amountSats
  let renewalFeeSats ← loadPart satsOfText s.renewalFeeSats
  guard (isLowerHex 64 s.ownerXonly)
  let address ← (buildCommitmentBond p2tr s.ownerXonly s.lockUntil s.network).toOption
  guard (address = s.address)
  let reclaimDestination ← loadPart (loadDestination decodes s.network) s.reclaimDestination
  let utxos ← loadPart (fun utxos => utxos.mapM loadUtxo) (presentList s.utxos)
  return {
    bondId := s.bondId
    bond := ⟨s.ownerXonly, s.lockUntil, s.network, address⟩
    amountSats
    phase := s.phase
    -- A record without an index is of the time when there was one key.
    keyIndex := some (s.keyIndex.getD 0)
    utxos
    reclaimTxid := presentText s.reclaimTxid
    reclaimDestination
    creditTxid := presentText s.creditTxid
    creditOperationId := presentText s.creditOperationId
    creditConfirmedAt := presentTime s.creditConfirmedAt
    renewedFromBondId := presentText s.renewedFromBondId
    renewalToBondId := presentText s.renewalToBondId
    renewalTxid := presentText s.renewalTxid
    renewalRawTx := presentText s.renewalRawTx
    renewalFeeSats
    renewalBroadcastAt := presentTime s.renewalBroadcastAt
    createdAt := s.createdAt }

end Loading

/-! ### Storage -/

def commitmentMaxEntries : ℕ := 200

abbrev StoreMap := OrderedMap String SerializedCommitment

/-- The two keys of the active user. -/
structure CommitmentStorage where
  primary : Stored StoreMap := .missing
  backup : Stored StoreMap := .missing

def readStored : Stored StoreMap → StoreMap
  | .value map => map
  | .missing | .garbled => .empty

/-- `evictOldest`: the newest records are kept. -/
def evictOldestBonds (map : StoreMap) : StoreMap :=
  keepNewest SerializedCommitment.updatedAt commitmentMaxEntries map

/-- `writeRaw`: an empty map does not replace records, unless it may. -/
def writeRaw (map : StoreMap) (allowEmptyOverwrite : Bool) (s : CommitmentStorage) :
    CommitmentStorage :=
  if map.entries.isEmpty && !allowEmptyOverwrite
      && (!(readStored s.primary).entries.isEmpty || !(readStored s.backup).entries.isEmpty) then s
  else ⟨.value (evictOldestBonds map), .value (evictOldestBonds map)⟩

/-- `readRaw`, and what it restores: the backup takes the place of an empty primary. -/
def readRaw (s : CommitmentStorage) : StoreMap × CommitmentStorage :=
  let primary := readStored s.primary
  let backup := readStored s.backup
  if !primary.entries.isEmpty then (primary, s)
  else if !backup.entries.isEmpty then (backup, writeRaw backup true s)
  else (.empty, s)

/-- `map[bondId] = record`: that key of an object makes no entry. -/
def StoreMap.assign (map : StoreMap) (bondId : String) (s : SerializedCommitment) : StoreMap :=
  if bondId = "__proto__" then map else map.set bondId s

def mergeCommitment (rec_ existing : CommitmentRecord) : CommitmentRecord :=
  { rec_ with
    keyIndex := rec_.keyIndex.or existing.keyIndex
    utxos := rec_.utxos.or existing.utxos
    reclaimTxid := rec_.reclaimTxid.or existing.reclaimTxid
    reclaimDestination := rec_.reclaimDestination.or existing.reclaimDestination
    creditTxid := rec_.creditTxid.or existing.creditTxid
    creditOperationId := rec_.creditOperationId.or existing.creditOperationId
    creditConfirmedAt := rec_.creditConfirmedAt.or existing.creditConfirmedAt
    renewedFromBondId := rec_.renewedFromBondId.or existing.renewedFromBondId
    renewalToBondId := rec_.renewalToBondId.or existing.renewalToBondId
    renewalTxid := rec_.renewalTxid.or existing.renewalTxid
    renewalRawTx := rec_.renewalRawTx.or existing.renewalRawTx
    renewalFeeSats := rec_.renewalFeeSats.or existing.renewalFeeSats
    renewalBroadcastAt := rec_.renewalBroadcastAt.or existing.renewalBroadcastAt }

section Operations

variable (p2tr : CommitmentAddress) (decodes : BitcoinNetwork → String → Bool)

def getCommitmentBond (s : CommitmentStorage) (bondId : String) : Option CommitmentRecord :=
  ((readRaw s).1.get bondId).bind (deserializeCommitment p2tr decodes)

/-- `listCommitmentBonds`: the readable bonds of the main network, the last saved first. -/
def listCommitmentBonds (s : CommitmentStorage) : List CommitmentRecord :=
  ((newestFirst SerializedCommitment.updatedAt (readRaw s).1).filterMap fun e =>
    deserializeCommitment p2tr decodes e.2).filter fun r =>
      "bc1".toList.isPrefixOf r.bond.address.toList

/-- What `upsertCommitmentBond` saves, unless the phase would go back. -/
def savedRecord (rec_ : CommitmentRecord) (existing : Option CommitmentRecord) :
    Option CommitmentRecord :=
  match existing with
  | none => some rec_
  | some existing =>
    if rec_.phase.rank < existing.phase.rank then none else some (mergeCommitment rec_ existing)

def upsertCommitmentBond (rec_ : CommitmentRecord) (now : ℤ) (s : CommitmentStorage) :
    CommitmentRecord × CommitmentStorage :=
  let (map, s) := readRaw s
  let existing := (map.get rec_.bondId).bind (deserializeCommitment p2tr decodes)
  match savedRecord rec_ existing with
  | none => (existing.getD rec_, s)
  | some merged =>
    (merged, writeRaw (map.assign rec_.bondId (serializeCommitment now merged)) false s)

def removeCommitmentBond (bondId : String) (s : CommitmentStorage) : CommitmentStorage :=
  let (map, s) := readRaw s
  if (map.get bondId).isNone then s else writeRaw (map.erase bondId) true s

/-- A call of one of the functions that change the store. -/
inductive CommitmentCall
  | upsert (rec_ : CommitmentRecord) (now : ℤ)
  | remove (bondId : String)

def CommitmentCall.bondId : CommitmentCall → String
  | upsert rec_ _ => rec_.bondId
  | remove bondId => bondId

def CommitmentCall.run (s : CommitmentStorage) : CommitmentCall → CommitmentStorage
  | upsert rec_ now => (upsertCommitmentBond p2tr decodes rec_ now s).2
  | remove bondId => removeCommitmentBond bondId s

def storedAfter (calls : List CommitmentCall) : CommitmentStorage :=
  calls.foldl (CommitmentCall.run p2tr decodes) {}

end Operations

/-! ### What is saved can be loaded -/

variable {r : CommitmentRecord}

section Loadable

variable {p2tr : CommitmentAddress} {decodes : BitcoinNetwork → String → Bool}

/-- A record that was built from its parts: with the address of its bond, amounts of sats, and a
destination on the network of the bond. -/
structure CommitmentRecord.Loadable (p2tr : CommitmentAddress)
    (decodes : BitcoinNetwork → String → Bool) (r : CommitmentRecord) : Prop where
  owner : isLowerHex 64 r.bond.ownerXonly = true
  built : buildCommitmentBond p2tr r.bond.ownerXonly r.bond.lockUntil r.bond.network =
    .ok r.bond.address
  amountSats : 0 ≤ r.amountSats
  utxos : ∀ utxos, r.utxos = some utxos → ∀ u ∈ utxos, 0 ≤ u.amountSats
  destination : ∀ d, r.reclaimDestination = some d →
    validateBitcoinAddressForNetwork decodes d.address r.bond.network = some d.address
  fee : ∀ fee, r.renewalFeeSats = some fee → 0 ≤ fee

def CommitmentRecord.loaded (r : CommitmentRecord) : CommitmentRecord :=
  { r with
    keyIndex := some (r.keyIndex.getD 0)
    utxos := presentList r.utxos
    reclaimTxid := presentText r.reclaimTxid
    reclaimDestination := r.reclaimDestination.map fun d =>
      { d with fallbackReason := presentText d.fallbackReason }
    creditTxid := presentText r.creditTxid
    creditOperationId := presentText r.creditOperationId
    creditConfirmedAt := presentTime r.creditConfirmedAt
    renewedFromBondId := presentText r.renewedFromBondId
    renewalToBondId := presentText r.renewalToBondId
    renewalTxid := presentText r.renewalTxid
    renewalRawTx := presentText r.renewalRawTx
    renewalBroadcastAt := presentTime r.renewalBroadcastAt }

@[simp]
theorem presentText_presentText (text : Option String) :
    presentText (presentText text) = presentText text := by
  unfold presentText
  rw [Option.filter_filter]
  simp only [Bool.and_self]

@[simp]
theorem presentTime_presentTime (time : Option ℕ) :
    presentTime (presentTime time) = presentTime time := by
  unfold presentTime
  rw [Option.filter_filter]
  simp only [Bool.and_self]

theorem presentList_eq_some {α : Type} {list : Option (List α)} {l : List α} :
    presentList list = some l ↔ list = some l ∧ l ≠ [] := by
  rw [presentList, Option.filter_eq_some_iff, Bool.not_eq_true', List.isEmpty_eq_false_iff]

theorem load_utxos {utxos : List BondUtxo} (h : ∀ u ∈ utxos, 0 ≤ u.amountSats) :
    (utxos.map fun u => (⟨u.txid, u.index, toString u.amountSats⟩ : SerializedUtxo)).mapM loadUtxo =
      some utxos := by
  induction utxos with
  | nil => rfl
  | cons u rest ih =>
    rw [List.forall_mem_cons] at h
    have hu : loadUtxo ⟨u.txid, u.index, toString u.amountSats⟩ = some u := by
      rw [loadUtxo, satsOfText_toString h.1]
      rfl
    rw [List.map_cons, List.mapM_cons, hu, ih h.2]
    rfl

theorem load_present_utxos (h : r.Loadable p2tr decodes) (now : ℤ) :
    loadPart (fun utxos => utxos.mapM loadUtxo) (presentList (serializeCommitment now r).utxos) =
      some (presentList r.utxos) := by
  have hserialized : (serializeCommitment now r).utxos = (presentList r.utxos).map fun utxos =>
    utxos.map fun u => ⟨u.txid, u.index, toString u.amountSats⟩ := rfl
  rw [hserialized]
  cases hpresent : presentList r.utxos with
  | none => rfl
  | some utxos =>
    obtain ⟨hutxos, hne⟩ := presentList_eq_some.mp hpresent
    have hagain : presentList ((some utxos).map fun utxos : List BondUtxo =>
        utxos.map fun u => (⟨u.txid, u.index, toString u.amountSats⟩ : SerializedUtxo)) =
        some (utxos.map fun u => ⟨u.txid, u.index, toString u.amountSats⟩) := by
      rw [Option.map_some, presentList_eq_some]
      exact ⟨rfl, fun hnil => hne (List.map_eq_nil_iff.mp hnil)⟩
    rw [hagain, loadPart, load_utxos (h.utxos utxos hutxos)]
    rfl

theorem deserialize_serialize (h : r.Loadable p2tr decodes) (now : ℤ) :
    deserializeCommitment p2tr decodes (serializeCommitment now r) = some r.loaded := by
  have hamount : satsOfText (serializeCommitment now r).amountSats = some r.amountSats :=
    satsOfText_toString h.amountSats
  have hfee : loadPart satsOfText (serializeCommitment now r).renewalFeeSats =
      some r.renewalFeeSats := by
    have hserialized : (serializeCommitment now r).renewalFeeSats =
      r.renewalFeeSats.map toString := rfl
    rw [hserialized]
    cases hfee : r.renewalFeeSats with
    | none => rfl
    | some fee =>
      rw [Option.map_some, loadPart, satsOfText_toString (h.fee fee hfee)]
      rfl
  have howner : isLowerHex 64 (serializeCommitment now r).ownerXonly = true := h.owner
  have hbuilt : (buildCommitmentBond p2tr (serializeCommitment now r).ownerXonly
      (serializeCommitment now r).lockUntil (serializeCommitment now r).network).toOption =
      some r.bond.address := congrArg Except.toOption h.built
  have haddress : r.bond.address = (serializeCommitment now r).address := rfl
  have hdestination : loadPart (loadDestination decodes (serializeCommitment now r).network)
      (serializeCommitment now r).reclaimDestination = some (r.reclaimDestination.map fun d =>
        { d with fallbackReason := presentText d.fallbackReason }) := by
    have hserialized : (serializeCommitment now r).reclaimDestination = r.reclaimDestination := rfl
    rw [hserialized]
    cases hd : r.reclaimDestination with
    | none => rfl
    | some d =>
      have hvalid : validateBitcoinAddressForNetwork decodes d.address
          (serializeCommitment now r).network = some d.address := h.destination d hd
      rw [loadPart, loadDestination, hvalid]
      rfl
  have hutxos := load_present_utxos h now
  simp only [deserializeCommitment, hamount, hfee, howner, hbuilt, haddress, hdestination, hutxos,
    guard_true, Option.pure_def, Option.bind_eq_bind, Option.bind_some]
  simp only [serializeCommitment, presentText_presentText, presentTime_presentTime]
  rfl

theorem loadable_loaded (h : r.Loadable p2tr decodes) : r.loaded.Loadable p2tr decodes := by
  refine ⟨h.owner, h.built, h.amountSats, ?_, ?_, h.fee⟩
  · intro utxos hutxos
    exact h.utxos utxos (presentList_eq_some.mp hutxos).1
  · intro d hd
    obtain ⟨d', hd', rfl⟩ := Option.map_eq_some_iff.mp hd
    exact h.destination d' hd'

theorem loadable_merge {r existing : CommitmentRecord} (hr : r.Loadable p2tr decodes)
    (he : existing.Loadable p2tr decodes) (hnetwork : existing.bond.network = r.bond.network) :
    (mergeCommitment r existing).Loadable p2tr decodes := by
  refine ⟨hr.owner, hr.built, hr.amountSats, ?_, ?_, ?_⟩
  · intro utxos hutxos
    rcases Option.or_eq_some_iff.mp hutxos with hutxos | ⟨-, hutxos⟩
    · exact hr.utxos utxos hutxos
    · exact he.utxos utxos hutxos
  · intro d hd
    rcases Option.or_eq_some_iff.mp hd with hd | ⟨-, hd⟩
    · exact hr.destination d hd
    · have hvalid := he.destination d hd
      rw [hnetwork] at hvalid
      exact hvalid
  · intro fee hfee
    rcases Option.or_eq_some_iff.mp hfee with hfee | ⟨-, hfee⟩
    · exact hr.fee fee hfee
    · exact he.fee fee hfee

end Loadable

/-! ### The two copies -/

/-- Both copies hold the same records. -/
def CommitmentStorage.Synced (s : CommitmentStorage) : Prop :=
  readStored s.primary = readStored s.backup

theorem eq_empty_of_isEmpty {map : StoreMap} (h : map.entries.isEmpty = true) : map = .empty := by
  obtain ⟨entries, hnodup⟩ := map
  obtain rfl := List.isEmpty_iff.mp h
  rfl

variable {s : CommitmentStorage}

theorem readRaw_of_synced (h : s.Synced) : readRaw s = (readStored s.primary, s) := by
  unfold readRaw
  rw [← h]
  dsimp only
  cases hempty : (readStored s.primary).entries.isEmpty with
  | false => rfl
  | true =>
    rw [eq_empty_of_isEmpty hempty]
    rfl

theorem writeRaw_of_synced (h : s.Synced) {map : StoreMap}
    {allowEmptyOverwrite : Bool} (hwrite : map.entries.isEmpty = true →
      allowEmptyOverwrite = false → (readStored s.primary).entries.isEmpty = true) :
    writeRaw map allowEmptyOverwrite s =
      ⟨.value (evictOldestBonds map), .value (evictOldestBonds map)⟩ := by
  unfold writeRaw
  rw [← h]
  rw [if_neg]
  rw [Bool.or_self, Bool.and_eq_true, Bool.and_eq_true]
  rintro ⟨⟨hempty, hallow⟩, hprimary⟩
  have hstored := hwrite hempty (by simpa using hallow)
  rw [hstored] at hprimary
  cases hprimary

variable {bondId : String}

theorem isEmpty_of_assign {map : StoreMap} {s : SerializedCommitment}
    (h : (map.assign bondId s).entries.isEmpty = true) : map.entries.isEmpty = true := by
  unfold StoreMap.assign at h
  split_ifs at h
  · exact h
  · have hget : (map.set bondId s).get bondId = some s := by rw [OrderedMap.get_set, if_pos rfl]
    have hnone : (map.set bondId s).get bondId = none := by
      rw [eq_empty_of_isEmpty h]
      rfl
    rw [hnone] at hget
    cases hget

section Runs

variable {p2tr : CommitmentAddress} {decodes : BitcoinNetwork → String → Bool}

def CommitmentCall.change (p2tr : CommitmentAddress) (decodes : BitcoinNetwork → String → Bool)
    (map : StoreMap) : CommitmentCall → StoreMap
  | upsert rec_ now =>
    match savedRecord rec_ ((map.get rec_.bondId).bind (deserializeCommitment p2tr decodes)) with
    | none => map
    | some merged => evictOldestBonds (map.assign rec_.bondId (serializeCommitment now merged))
  | remove bondId => if (map.get bondId).isNone then map else evictOldestBonds (map.erase bondId)

def recordsAfter (p2tr : CommitmentAddress) (decodes : BitcoinNetwork → String → Bool)
    (calls : List CommitmentCall) : StoreMap :=
  calls.foldl (CommitmentCall.change p2tr decodes) .empty

theorem run_of_synced (h : s.Synced) (call : CommitmentCall) :
    (CommitmentCall.run p2tr decodes s call).Synced ∧
      readStored (CommitmentCall.run p2tr decodes s call).primary =
        CommitmentCall.change p2tr decodes (readStored s.primary) call := by
  cases call with
  | upsert rec_ now =>
    simp only [CommitmentCall.run, CommitmentCall.change, upsertCommitmentBond,
      readRaw_of_synced h]
    cases hsaved : savedRecord rec_ (((readStored s.primary).get rec_.bondId).bind
        (deserializeCommitment p2tr decodes)) with
    | none => exact ⟨h, rfl⟩
    | some merged =>
      have hwrite : ((readStored s.primary).assign rec_.bondId
          (serializeCommitment now merged)).entries.isEmpty = true → false = false →
          (readStored s.primary).entries.isEmpty = true :=
        fun hempty _ => isEmpty_of_assign hempty
      dsimp only
      rw [writeRaw_of_synced h hwrite]
      exact ⟨rfl, rfl⟩
  | remove bondId =>
    simp only [CommitmentCall.run, CommitmentCall.change, removeCommitmentBond,
      readRaw_of_synced h]
    split_ifs
    · exact ⟨h, rfl⟩
    · rw [writeRaw_of_synced h fun _ hfalse => by cases hfalse]
      exact ⟨rfl, rfl⟩

theorem readRaw_storedAfter (calls : List CommitmentCall) :
    (readRaw (storedAfter p2tr decodes calls)).1 = recordsAfter p2tr decodes calls := by
  have hrun : (storedAfter p2tr decodes calls).Synced ∧
      readStored (storedAfter p2tr decodes calls).primary = recordsAfter p2tr decodes calls := by
    induction calls using List.reverseRecOn with
    | nil => exact ⟨rfl, rfl⟩
    | append_singleton calls call ih =>
      obtain ⟨hsynced, hrecords⟩ := ih
      unfold storedAfter recordsAfter at *
      rw [List.foldl_append, List.foldl_append, ← hrecords]
      exact run_of_synced hsynced call
  rw [readRaw_of_synced hrun.1]
  exact hrun.2

theorem recordsAfter_snoc (calls : List CommitmentCall) (call : CommitmentCall) :
    recordsAfter p2tr decodes (calls ++ [call]) =
      CommitmentCall.change p2tr decodes (recordsAfter p2tr decodes calls) call := by
  unfold recordsAfter
  rw [List.foldl_append]
  rfl

/-! ### One bond -/

def WellFormedCalls (p2tr : CommitmentAddress) (decodes : BitcoinNetwork → String → Bool)
    (network : String → BitcoinNetwork) (calls : List CommitmentCall) : Prop :=
  ∀ r now, .upsert r now ∈ calls →
    r.Loadable p2tr decodes ∧ r.bond.network = network r.bondId

def AllLoadable (p2tr : CommitmentAddress) (decodes : BitcoinNetwork → String → Bool)
    (network : String → BitcoinNetwork) (map : StoreMap) : Prop :=
  ∀ bondId s, map.get bondId = some s → ∃ r now, s = serializeCommitment now r ∧
    r.bondId = bondId ∧ r.bond.network = network bondId ∧ r.Loadable p2tr decodes

def recordOf (p2tr : CommitmentAddress) (decodes : BitcoinNetwork → String → Bool)
    (map : StoreMap) (bondId : String) : Option CommitmentRecord :=
  (map.get bondId).bind (deserializeCommitment p2tr decodes)

variable {network : String → BitcoinNetwork} {map : StoreMap}

theorem recordOf_eq_some (h : AllLoadable p2tr decodes network map)
    {e : CommitmentRecord} (he : recordOf p2tr decodes map bondId = some e) :
    e.bondId = bondId ∧ e.bond.network = network bondId ∧ e.Loadable p2tr decodes ∧
      presentList e.utxos = e.utxos := by
  obtain ⟨s, hget, hload⟩ := Option.bind_eq_some_iff.mp he
  obtain ⟨r, now, rfl, hid, hnetwork, hloadable⟩ := h bondId s hget
  rw [deserialize_serialize hloadable] at hload
  obtain rfl := Option.some.inj hload
  refine ⟨hid, hnetwork, loadable_loaded hloadable, ?_⟩
  have hutxos : r.loaded.utxos = presentList r.utxos := rfl
  rw [hutxos]
  unfold presentList
  rw [Option.filter_filter]
  simp only [Bool.and_self]

theorem loadable_saved (h : AllLoadable p2tr decodes network map) {r merged : CommitmentRecord}
    (hr : r.Loadable p2tr decodes) (hnetwork : r.bond.network = network r.bondId)
    (hsaved : savedRecord r (recordOf p2tr decodes map r.bondId) = some merged) :
    merged.bondId = r.bondId ∧ merged.bond.network = network r.bondId ∧
      merged.Loadable p2tr decodes := by
  cases hold : recordOf p2tr decodes map r.bondId with
  | none =>
    rw [hold] at hsaved
    obtain rfl := Option.some.inj hsaved
    exact ⟨rfl, hnetwork, hr⟩
  | some e =>
    obtain ⟨-, henetwork, heloadable, -⟩ := recordOf_eq_some h hold
    rw [hold, savedRecord] at hsaved
    split_ifs at hsaved
    obtain rfl := Option.some.inj hsaved
    exact ⟨rfl, hnetwork, loadable_merge hr heloadable (henetwork.trans hnetwork.symm)⟩

theorem get_assign_bond (map : StoreMap) (bondId slot : String) (s : SerializedCommitment) :
    (map.assign bondId s).get slot =
      if slot = bondId ∧ bondId ≠ "__proto__" then some s else map.get slot := by
  unfold StoreMap.assign
  by_cases hproto : bondId = "__proto__"
  · rw [if_pos hproto, if_neg fun h => h.2 hproto]
  · rw [if_neg hproto, OrderedMap.get_set]
    by_cases hslot : slot = bondId
    · rw [if_pos hslot, if_pos ⟨hslot, hproto⟩]
    · rw [if_neg hslot, if_neg fun h => hslot h.1]

variable {call : CommitmentCall}

theorem get_change (hproto : map.get "__proto__" = none)
    (hget : (CommitmentCall.change p2tr decodes map call).get bondId ≠ none) :
    ((CommitmentCall.change p2tr decodes map call).get bondId = map.get bondId ∧
        ∀ r now, call = .upsert r now → r.bondId = bondId →
          savedRecord r (recordOf p2tr decodes map bondId) = none) ∨
      ∃ r now merged, call = .upsert r now ∧ r.bondId = bondId ∧
        savedRecord r (recordOf p2tr decodes map bondId) = some merged ∧
        (CommitmentCall.change p2tr decodes map call).get bondId =
          some (serializeCommitment now merged) := by
  cases call with
  | remove removed =>
    refine Or.inl ⟨?_, fun r now heq => by cases heq⟩
    unfold CommitmentCall.change at hget ⊢
    dsimp only at hget ⊢
    split_ifs at hget ⊢ with hnone
    · rfl
    · have hevict := (get_keepNewest bondId).resolve_left hget
      rw [evictOldestBonds, hevict, OrderedMap.get_erase] at hget ⊢
      split_ifs at hget ⊢ with hsame
      · exact absurd rfl hget
      · rfl
  | upsert r now =>
    have hrecord : (map.get r.bondId).bind (deserializeCommitment p2tr decodes) =
        recordOf p2tr decodes map r.bondId := rfl
    unfold CommitmentCall.change at hget ⊢
    simp only [hrecord] at hget ⊢
    cases hsaved : savedRecord r (recordOf p2tr decodes map r.bondId) with
    | none =>
      refine Or.inl ⟨rfl, fun r' now' heq hid => ?_⟩
      obtain ⟨rfl, rfl⟩ := CommitmentCall.upsert.inj heq
      rw [← hid]
      exact hsaved
    | some merged =>
      rw [hsaved] at hget
      dsimp only at hget ⊢
      have hevict := (get_keepNewest bondId).resolve_left hget
      rw [evictOldestBonds, hevict, get_assign_bond] at hget ⊢
      split_ifs at hget ⊢ with hsame
      · refine Or.inr ⟨r, now, merged, rfl, hsame.1.symm, ?_, rfl⟩
        rw [hsame.1]
        exact hsaved
      · refine Or.inl ⟨rfl, fun r' now' heq hid => ?_⟩
        obtain ⟨rfl, rfl⟩ := CommitmentCall.upsert.inj heq
        -- Only the name of the prototype is saved and not there.
        have hname : r.bondId = "__proto__" := by
          by_contra hne
          exact hsame ⟨hid.symm, hne⟩
        rw [← hid, hname] at hget
        exact absurd hproto hget

/-- The step for all records. -/
theorem allLoadable_change (hproto : map.get "__proto__" = none)
    (h : AllLoadable p2tr decodes network map) (hcall : ∀ r now, call = .upsert r now →
      r.Loadable p2tr decodes ∧ r.bond.network = network r.bondId) :
    AllLoadable p2tr decodes network (CommitmentCall.change p2tr decodes map call) := by
  intro bondId s hget
  have hsome : (CommitmentCall.change p2tr decodes map call).get bondId ≠ none := by
    rw [hget]
    exact Option.some_ne_none _
  rcases get_change hproto hsome with ⟨hkept, -⟩ | ⟨r, now, merged, hupsert, rfl, hsaved, hnew⟩
  · rw [hkept] at hget
    exact h bondId s hget
  · obtain ⟨hr, hnetwork⟩ := hcall r now hupsert
    obtain ⟨hid, hmerged, hloadable⟩ := loadable_saved h hr hnetwork hsaved
    rw [hget] at hnew
    exact ⟨merged, now, Option.some.inj hnew, hid, hmerged, hloadable⟩

theorem get_proto_change (hproto : map.get "__proto__" = none) (call : CommitmentCall) :
    (CommitmentCall.change p2tr decodes map call).get "__proto__" = none := by
  by_contra hget
  rcases get_change hproto hget with ⟨hkept, -⟩ | ⟨r, now, merged, rfl, hid, hsaved, -⟩
  · rw [hkept] at hget
    exact hget hproto
  · have hrecord : (map.get r.bondId).bind (deserializeCommitment p2tr decodes) =
        recordOf p2tr decodes map r.bondId := rfl
    rw [← hid] at hsaved
    unfold CommitmentCall.change at hget
    simp only [hrecord, hsaved] at hget
    have hevict := (get_keepNewest "__proto__").resolve_left hget
    rw [evictOldestBonds, hevict, get_assign_bond] at hget
    split_ifs at hget with hsame
    · exact hsame.2 hid
    · exact hget hproto

/-- How the record of a bond goes on from a record it had: its phase does not go back, and its
outputs stay where no upsert of the phase brings others. -/
structure GoesOn (calls : List CommitmentCall) (e r : CommitmentRecord) : Prop where
  bondId : r.bondId = e.bondId
  phase : e.phase.rank ≤ r.phase.rank
  saved : ∀ v now, .upsert v now ∈ calls → v.bondId = e.bondId → v.phase.rank ≤ r.phase.rank
  utxos : (∀ v now, .upsert v now ∈ calls → v.bondId = e.bondId →
    v.utxos = none ∨ v.phase.rank < e.phase.rank) → r.utxos = e.utxos

theorem goesOn_refl (e : CommitmentRecord) : GoesOn [] e e :=
  ⟨rfl, le_rfl, fun _ _ hv => absurd hv List.not_mem_nil, fun _ => rfl⟩

variable {calls : List CommitmentCall}

theorem goesOn_change (hproto : map.get "__proto__" = none)
    (h : AllLoadable p2tr decodes network map) (hcall : ∀ r now, call = .upsert r now →
      r.Loadable p2tr decodes ∧ r.bond.network = network r.bondId)
    {e r : CommitmentRecord} (hr : recordOf p2tr decodes map e.bondId = some r)
    (hgoes : GoesOn calls e r)
    (hget : (CommitmentCall.change p2tr decodes map call).get e.bondId ≠ none) :
    ∃ r', recordOf p2tr decodes (CommitmentCall.change p2tr decodes map call) e.bondId = some r' ∧
      GoesOn (calls ++ [call]) e r' := by
  have hlast {v : CommitmentRecord} {now : ℤ} (hv : .upsert v now ∈ calls ++ [call]) :
      .upsert v now ∈ calls ∨ call = .upsert v now := by
    rw [List.mem_append, List.mem_singleton] at hv
    exact hv.imp_right Eq.symm
  rcases get_change hproto hget with
    ⟨hkept, hrefused⟩ | ⟨v, now, merged, hupsert, hid, hsaved, hnew⟩
  · refine ⟨r, ?_, hgoes.bondId, hgoes.phase, ?_, ?_⟩
    · rw [recordOf, hkept]
      exact hr
    · intro v now hv hid
      rcases hlast hv with hv | hv
      · exact hgoes.saved v now hv hid
      · -- A record that is refused is of a lower phase.
        have hnone := hrefused v now hv hid
        rw [hr, savedRecord] at hnone
        split_ifs at hnone with hlt
        exact hlt.le
    · intro hutxos
      exact hgoes.utxos fun v now hv => hutxos v now (List.mem_append_left _ hv)
  · obtain ⟨hloadable, hnetwork⟩ := hcall v now hupsert
    rw [← hid] at hsaved
    obtain ⟨-, -, hmerged⟩ := loadable_saved h hloadable hnetwork hsaved
    obtain ⟨-, -, -, hpresent⟩ := recordOf_eq_some h hr
    rw [hid, hr, savedRecord] at hsaved
    split_ifs at hsaved with hlt
    obtain rfl := Option.some.inj hsaved
    rw [not_lt] at hlt
    refine ⟨(mergeCommitment v r).loaded, ?_, hid, hgoes.phase.trans hlt, ?_, ?_⟩
    · rw [recordOf, hnew, Option.bind_some, deserialize_serialize hmerged]
    · intro v' now' hv' hid'
      rcases hlast hv' with hv' | hv'
      · exact (hgoes.saved v' now' hv' hid').trans hlt
      · rw [hupsert] at hv'
        obtain ⟨rfl, -⟩ := CommitmentCall.upsert.inj hv'
        exact le_rfl
    · intro hutxos
      have hnone : v.utxos = none := by
        rcases hutxos v now (List.mem_append_right _ (hupsert ▸ List.mem_cons_self)) hid with
          hnone | hlower
        · exact hnone
        · exact absurd (hgoes.phase.trans hlt) hlower.not_ge
      have hcarried : (mergeCommitment v r).loaded.utxos = presentList (v.utxos.or r.utxos) := rfl
      rw [hcarried, hnone, Option.none_or, hpresent]
      exact hgoes.utxos fun v' now' hv' => hutxos v' now' (List.mem_append_left _ hv')

def StaysStored (p2tr : CommitmentAddress) (decodes : BitcoinNetwork → String → Bool)
    (before after : List CommitmentCall) (bondId : String) : Prop :=
  ∀ next, next <+: after → (recordsAfter p2tr decodes (before ++ next)).get bondId ≠ none

theorem allLoadable_recordsAfter (h : WellFormedCalls p2tr decodes network calls) :
    (recordsAfter p2tr decodes calls).get "__proto__" = none ∧
      AllLoadable p2tr decodes network (recordsAfter p2tr decodes calls) := by
  induction calls using List.reverseRecOn with
  | nil => exact ⟨rfl, fun bondId s hget => by cases hget⟩
  | append_singleton calls call ih =>
    obtain ⟨hproto, hloadable⟩ := ih fun r now hr => h r now (List.mem_append_left _ hr)
    rw [recordsAfter_snoc]
    refine ⟨get_proto_change hproto call, allLoadable_change hproto hloadable ?_⟩
    intro r now heq
    exact h r now (List.mem_append_right _ (heq ▸ List.mem_cons_self))

theorem goesOn_run {before after : List CommitmentCall} {e : CommitmentRecord}
    (h : WellFormedCalls p2tr decodes network (before ++ after))
    (he : recordOf p2tr decodes (recordsAfter p2tr decodes before) e.bondId = some e)
    (hstays : StaysStored p2tr decodes before after e.bondId) :
    ∃ r, recordOf p2tr decodes (recordsAfter p2tr decodes (before ++ after)) e.bondId = some r ∧
      GoesOn after e r := by
  induction after using List.reverseRecOn with
  | nil =>
    rw [List.append_nil]
    exact ⟨e, he, goesOn_refl e⟩
  | append_singleton after call ih =>
    rw [← List.append_assoc] at h ⊢
    have hbefore : WellFormedCalls p2tr decodes network (before ++ after) :=
      fun r now hr => h r now (List.mem_append_left _ hr)
    obtain ⟨r, hr, hgoes⟩ := ih hbefore fun next hnext =>
      hstays next (hnext.trans (List.prefix_append _ _))
    obtain ⟨hproto, hloadable⟩ := allLoadable_recordsAfter hbefore
    have hget := hstays (after ++ [call]) List.prefix_rfl
    rw [← List.append_assoc, recordsAfter_snoc] at hget
    rw [recordsAfter_snoc]
    refine goesOn_change hproto hloadable ?_ hr hgoes hget
    intro v now heq
    exact h v now (List.mem_append_right _ (heq ▸ List.mem_cons_self))

theorem upserted {before : List CommitmentCall} {u : CommitmentRecord} {now : ℤ}
    (h : WellFormedCalls p2tr decodes network (before ++ [.upsert u now]))
    (hget : (recordsAfter p2tr decodes (before ++ [.upsert u now])).get u.bondId ≠ none) :
    ∃ e, recordOf p2tr decodes (recordsAfter p2tr decodes (before ++ [.upsert u now])) u.bondId
        = some e ∧ e.bondId = u.bondId ∧ u.phase.rank ≤ e.phase.rank ∧
      ∀ utxos, utxos ≠ [] → u.utxos = some utxos →
        (∀ old, recordOf p2tr decodes (recordsAfter p2tr decodes before) u.bondId = some old →
          old.phase.rank ≤ u.phase.rank) → e.utxos = some utxos ∧ e.phase = u.phase := by
  have hbefore : WellFormedCalls p2tr decodes network before :=
    fun r now hr => h r now (List.mem_append_left _ hr)
  obtain ⟨hproto, hloadable⟩ := allLoadable_recordsAfter hbefore
  obtain ⟨hu, hnetwork⟩ := h u now (List.mem_append_right _ List.mem_cons_self)
  rw [recordsAfter_snoc] at hget ⊢
  rcases get_change hproto hget with ⟨hkept, hrefused⟩ | ⟨v, now', merged, hupsert, -, hsaved, hnew⟩
  · have hnone := hrefused u now rfl rfl
    cases hold : recordOf p2tr decodes (recordsAfter p2tr decodes before) u.bondId with
    | none =>
      rw [hold] at hnone
      cases hnone
    | some e =>
      obtain ⟨hid, -, -, -⟩ := recordOf_eq_some hloadable hold
      rw [hold, savedRecord] at hnone
      split_ifs at hnone with hlt
      refine ⟨e, ?_, hid, hlt.le, fun utxos _ _ hphase => ?_⟩
      · rw [recordOf, hkept]
        exact hold
      · exact absurd (hphase e rfl) hlt.not_ge
  · obtain ⟨rfl, rfl⟩ := CommitmentCall.upsert.inj hupsert
    obtain ⟨hid, -, hmerged⟩ := loadable_saved hloadable hu hnetwork hsaved
    have hphase : merged.phase = u.phase ∧ ∀ utxos, u.utxos = some utxos →
        merged.utxos = some utxos := by
      cases hold : recordOf p2tr decodes (recordsAfter p2tr decodes before) u.bondId with
      | none =>
        rw [hold] at hsaved
        obtain rfl := Option.some.inj hsaved
        exact ⟨rfl, fun utxos hutxos => hutxos⟩
      | some e =>
        rw [hold, savedRecord] at hsaved
        split_ifs at hsaved
        obtain rfl := Option.some.inj hsaved
        refine ⟨rfl, fun utxos hutxos => ?_⟩
        have hor : (mergeCommitment u e).utxos = u.utxos.or e.utxos := rfl
        rw [hor, hutxos]
        rfl
    refine ⟨merged.loaded, ?_, hid, (congrArg CommitmentPhase.rank hphase.1.symm).le, ?_⟩
    · rw [recordOf, hnew, Option.bind_some, deserialize_serialize hmerged]
    · intro utxos hne hutxos _
      exact ⟨presentList_eq_some.mpr ⟨hphase.2 utxos hutxos, hne⟩, hphase.1⟩

/-! ### Room -/

theorem length_recordsAfter (calls : List CommitmentCall) :
    (recordsAfter p2tr decodes calls).entries.length ≤ commitmentMaxEntries := by
  induction calls using List.reverseRecOn with
  | nil => exact Nat.zero_le _
  | append_singleton calls call ih =>
    rw [recordsAfter_snoc]
    cases call with
    | upsert r now =>
      unfold CommitmentCall.change
      dsimp only
      split
      · exact ih
      · exact length_keepNewest
    | remove bondId =>
      unfold CommitmentCall.change
      dsimp only
      split_ifs
      · exact ih
      · exact length_keepNewest

theorem mem_bondKeys : bondId ∈ map.keys ↔ map.get bondId ≠ none := by
  rw [OrderedMap.keys, List.mem_map, Option.ne_none_iff_exists']
  constructor
  · rintro ⟨e, he, rfl⟩
    exact ⟨e.2, (OrderedMap.get_eq_some_iff ..).mpr he⟩
  · rintro ⟨s, hget⟩
    exact ⟨(bondId, s), (OrderedMap.get_eq_some_iff ..).mp hget, rfl⟩

variable {ids : List String}

theorem named_of_stored (hproto : map.get "__proto__" = none)
    (hids : ∀ bondId, map.get bondId ≠ none → bondId ∈ ids)
    (hcall : call.bondId ∈ ids) (bondId : String)
    (hget : (CommitmentCall.change p2tr decodes map call).get bondId ≠ none) : bondId ∈ ids := by
  rcases get_change hproto hget with ⟨hkept, -⟩ | ⟨r, now, merged, rfl, rfl, -, -⟩
  · rw [hkept] at hget
    exact hids bondId hget
  · exact hcall

theorem stored_change (hfew : ids.length ≤ commitmentMaxEntries)
    (hids : ∀ bondId, map.get bondId ≠ none → bondId ∈ ids)
    (hcall : call.bondId ∈ ids) (hname : bondId ≠ "__proto__") (hremove : call ≠ .remove bondId)
    (hstored : map.get bondId ≠ none ∨ ∃ r now, call = .upsert r now ∧ r.bondId = bondId) :
    (CommitmentCall.change p2tr decodes map call).get bondId ≠ none := by
  have hroom : ∀ m : StoreMap, (∀ bondId, m.get bondId ≠ none → bondId ∈ ids) →
      evictOldestBonds m = m := by
    intro m hm
    refine keepNewest_of_le ?_
    have hsubset : m.entries.map Prod.fst ⊆ ids := fun key hkey => hm key (mem_bondKeys.mp hkey)
    have hle := (List.subperm_of_subset m.nodup hsubset).length_le
    rw [List.length_map] at hle
    omega
  cases call with
  | remove removed =>
    have hne : bondId ≠ removed := fun heq => hremove (heq ▸ rfl)
    have hold : map.get bondId ≠ none := by
      rcases hstored with hold | ⟨r, now, heq, -⟩
      · exact hold
      · cases heq
    unfold CommitmentCall.change
    dsimp only
    split_ifs
    · exact hold
    · rw [hroom, OrderedMap.get_erase, if_neg hne]
      · exact hold
      · intro slot hslot
        rw [OrderedMap.get_erase] at hslot
        split_ifs at hslot
        · exact absurd rfl hslot
        · exact hids slot hslot
  | upsert r now =>
    unfold CommitmentCall.change
    dsimp only
    split
    · rename_i hsaved
      rcases hstored with hold | ⟨r', now', heq, hid⟩
      · exact hold
      · -- A record is refused for one that is stored.
        obtain ⟨rfl, -⟩ := CommitmentCall.upsert.inj heq
        intro hnone
        rw [hid, hnone] at hsaved
        cases hsaved
    · rw [hroom, get_assign_bond]
      · split_ifs with hsame
        · exact Option.some_ne_none _
        · rcases hstored with hold | ⟨r', now', heq, hid⟩
          · exact hold
          · obtain ⟨rfl, -⟩ := CommitmentCall.upsert.inj heq
            exact absurd ⟨hid.symm, hid ▸ hname⟩ hsame
      · intro slot hslot
        rw [get_assign_bond] at hslot
        split_ifs at hslot with hsame
        · exact hsame.1 ▸ hcall
        · exact hids slot hslot

theorem stored_of_few (hfew : ids.length ≤ commitmentMaxEntries)
    {before next : List CommitmentCall} {u : CommitmentRecord} {now : ℤ}
    (h : WellFormedCalls p2tr decodes network (before ++ [.upsert u now] ++ next))
    (hids : ∀ call ∈ before ++ [.upsert u now] ++ next, call.bondId ∈ ids)
    (hname : u.bondId ≠ "__proto__") (hremove : .remove u.bondId ∉ next) :
    (recordsAfter p2tr decodes (before ++ [.upsert u now] ++ next)).get u.bondId ≠ none := by
  -- Every stored bond was named.
  have hnamed : ∀ calls, WellFormedCalls p2tr decodes network calls →
      (∀ call ∈ calls, call.bondId ∈ ids) →
      ∀ bondId, (recordsAfter p2tr decodes calls).get bondId ≠ none → bondId ∈ ids := by
    intro calls
    induction calls using List.reverseRecOn with
    | nil => exact fun _ _ bondId hget => absurd rfl hget
    | append_singleton calls call ih =>
      intro hwell hall bondId hget
      have hwell' : WellFormedCalls p2tr decodes network calls :=
        fun r now hr => hwell r now (List.mem_append_left _ hr)
      rw [recordsAfter_snoc] at hget
      exact named_of_stored (allLoadable_recordsAfter hwell').1
        (ih hwell' fun c hc => hall c (List.mem_append_left _ hc))
        (hall call (List.mem_append_right _ List.mem_cons_self)) bondId hget
  induction next using List.reverseRecOn with
  | nil =>
    rw [List.append_nil] at h hids ⊢
    have hwell : WellFormedCalls p2tr decodes network before :=
      fun r now hr => h r now (List.mem_append_left _ hr)
    rw [recordsAfter_snoc]
    exact stored_change hfew
      (hnamed before hwell fun c hc => hids c (List.mem_append_left _ hc))
      (hids _ (List.mem_append_right _ List.mem_cons_self)) hname (fun heq => by cases heq)
      (Or.inr ⟨u, now, rfl, rfl⟩)
  | append_singleton next call ih =>
    rw [← List.append_assoc] at h hids ⊢
    have hwell : WellFormedCalls p2tr decodes network (before ++ [.upsert u now] ++ next) :=
      fun r now hr => h r now (List.mem_append_left _ hr)
    have hstored := ih hwell (fun c hc => hids c (List.mem_append_left _ hc))
      fun hmem => hremove (List.mem_append_left _ hmem)
    rw [recordsAfter_snoc]
    exact stored_change hfew
      (hnamed _ hwell fun c hc => hids c (List.mem_append_left _ hc))
      (hids _ (List.mem_append_right _ List.mem_cons_self)) hname
      (fun heq => hremove (List.mem_append_right _ (heq ▸ List.mem_cons_self))) (Or.inl hstored)

end Runs

/-! ### The result -/

section Result

variable (p2tr : CommitmentAddress) (decodes : BitcoinNetwork → String → Bool)

theorem mem_list (h : getCommitmentBond p2tr decodes s bondId = some r)
    (hmain : "bc1".toList.isPrefixOf r.bond.address.toList = true) :
    r ∈ listCommitmentBonds p2tr decodes s := by
  obtain ⟨stored, hget, hload⟩ := Option.bind_eq_some_iff.mp h
  refine List.mem_filter.mpr ⟨List.mem_filterMap.mpr ⟨(bondId, stored), ?_, hload⟩, hmain⟩
  exact (perm_newestFirst _ _).mem_iff.mpr ((OrderedMap.get_eq_some_iff _ _ _).mp hget)

/-- However many calls are made, in any order: a bond that was saved and stays among the stored ones
is returned, and listed if it is of the main network; its phase is no earlier than the one it was
saved in, and the outputs that were recorded with it are there until a later upsert that is not
refused names others or none.  A bond stays as long as it is not removed, where two hundred ids are
enough; more are never stored. -/
theorem commitment_store_keeps (network : String → BitcoinNetwork)
    (before after : List CommitmentCall) (u : CommitmentRecord) (now : ℤ)
    (h : WellFormedCalls p2tr decodes network (before ++ [.upsert u now] ++ after)) :
    let s := storedAfter p2tr decodes (before ++ [.upsert u now] ++ after)
    (StaysStored p2tr decodes (before ++ [.upsert u now]) after u.bondId →
      ∃ r, getCommitmentBond p2tr decodes s u.bondId = some r ∧ r.bondId = u.bondId ∧
        ("bc1".toList.isPrefixOf r.bond.address.toList = true →
          r ∈ listCommitmentBonds p2tr decodes s) ∧
        u.phase.rank ≤ r.phase.rank ∧
        ∀ utxos, utxos ≠ [] → u.utxos = some utxos →
          (∀ old, getCommitmentBond p2tr decodes (storedAfter p2tr decodes before) u.bondId =
            some old → old.phase.rank ≤ u.phase.rank) →
          (∀ v now', .upsert v now' ∈ after → v.bondId = u.bondId →
            v.utxos = none ∨ v.phase.rank < u.phase.rank) →
          r.utxos = some utxos) ∧
      (∀ ids : List String, ids.length ≤ commitmentMaxEntries →
        (∀ call ∈ before ++ [.upsert u now] ++ after, call.bondId ∈ ids) →
        u.bondId ≠ "__proto__" → .remove u.bondId ∉ after →
        StaysStored p2tr decodes (before ++ [.upsert u now]) after u.bondId) ∧
      (readRaw s).1.keys.length ≤ commitmentMaxEntries := by
  intro s
  have hget : ∀ calls bondId,
      getCommitmentBond p2tr decodes (storedAfter p2tr decodes calls) bondId =
      recordOf p2tr decodes (recordsAfter p2tr decodes calls) bondId := by
    intro calls bondId
    rw [getCommitmentBond, readRaw_storedAfter]
    rfl
  refine ⟨fun hstays => ?_, fun ids hfew hids hname hremove next hnext => ?_, ?_⟩
  · have hstart : WellFormedCalls p2tr decodes network (before ++ [.upsert u now]) :=
      fun r now hr => h r now (List.mem_append_left _ hr)
    have hfirst := hstays [] (List.nil_prefix)
    rw [List.append_nil] at hfirst
    obtain ⟨e, he, hid, hphase, hutxos⟩ := upserted hstart hfirst
    rw [← hid] at he hstays
    obtain ⟨r, hr, hgoes⟩ := goesOn_run h he hstays
    rw [hid] at hr
    have hfound : getCommitmentBond p2tr decodes s u.bondId = some r := (hget _ _).trans hr
    refine ⟨r, hfound, hgoes.bondId.trans hid, mem_list p2tr decodes hfound,
      hphase.trans hgoes.phase, ?_⟩
    intro utxos hne hu hold hlater
    obtain ⟨heutxos, hephase⟩ := hutxos utxos hne hu fun old hrecord =>
      hold old ((hget _ _).trans hrecord)
    rw [← heutxos]
    refine hgoes.utxos fun v now' hv hvid => ?_
    rw [hephase]
    exact hlater v now' hv (hvid.trans hid)
  · obtain ⟨rest, rfl⟩ := hnext
    have hbegins {call : CommitmentCall} (hcall : call ∈ before ++ [.upsert u now] ++ next) :
        call ∈ before ++ [.upsert u now] ++ (next ++ rest) := by
      rw [← List.append_assoc]
      exact List.mem_append_left _ hcall
    exact stored_of_few hfew (fun r now hr => h r now (hbegins hr))
      (fun call hcall => hids call (hbegins hcall)) hname
      fun hmem => hremove (List.mem_append_left _ hmem)
  · rw [readRaw_storedAfter, OrderedMap.keys, List.length_map]
    exact length_recordsAfter _

end Result

/-! ### What is lost -/

def sampleRecord (bondId : String) (phase : CommitmentPhase) (utxos : Option (List BondUtxo)) :
    CommitmentRecord where
  bondId
  bond := ⟨sampleHex 'a', 900000, .mainnet, sampleBondAddress⟩
  amountSats := 1000
  phase
  utxos
  createdAt := 0

def sampleP2tr : CommitmentAddress := fun _ _ _ => .ok sampleBondAddress

def decodesAll : BitcoinNetwork → String → Bool := fun _ _ => true

theorem sampleRecord_loadable (bondId : String) (phase : CommitmentPhase)
    {utxos : Option (List BondUtxo)} (h : ∀ l, utxos = some l → ∀ u ∈ l, 0 ≤ u.amountSats) :
    (sampleRecord bondId phase utxos).Loadable sampleP2tr decodesAll where
  owner := isLowerHex_sampleHex (by decide)
  built := buildCommitmentBond_sample _
  amountSats := Int.natCast_nonneg 1000
  utxos := h
  destination := fun d hd => by cases hd
  fee := fun fee hfee => by cases hfee

def sampleUtxo : BondUtxo := ⟨"txid", 0, 1000⟩

/-- A bond is funded, and saved again without its outputs. -/
theorem commitment_store_keeps_funded :
    ∃ r, getCommitmentBond sampleP2tr decodesAll (storedAfter sampleP2tr decodesAll
      [.upsert (sampleRecord "bond" .locked (some [sampleUtxo])) 0,
        .upsert (sampleRecord "bond" .reclaimed none) 1000]) "bond" = some r ∧
      CommitmentPhase.locked.rank ≤ r.phase.rank ∧ r.utxos = some [sampleUtxo] := by
  have hwell : WellFormedCalls sampleP2tr decodesAll (fun _ => .mainnet)
      ([] ++ [.upsert (sampleRecord "bond" .locked (some [sampleUtxo])) 0] ++
        [.upsert (sampleRecord "bond" .reclaimed none) 1000]) := by
    intro r now hr
    rw [List.nil_append, List.singleton_append, List.mem_cons, List.mem_singleton] at hr
    rcases hr with hr | hr
    · obtain ⟨rfl, -⟩ := CommitmentCall.upsert.inj hr
      refine ⟨sampleRecord_loadable _ _ fun l hl u hu => ?_, rfl⟩
      obtain rfl := Option.some.inj hl
      rw [List.mem_singleton.mp hu]
      exact Int.natCast_nonneg 1000
    · obtain ⟨rfl, -⟩ := CommitmentCall.upsert.inj hr
      exact ⟨sampleRecord_loadable _ _ fun l hl => (Option.some_ne_none l hl.symm).elim, rfl⟩
  obtain ⟨hkeeps, hroom, -⟩ := commitment_store_keeps sampleP2tr decodesAll (fun _ => .mainnet) []
    [.upsert (sampleRecord "bond" .reclaimed none) 1000]
    (sampleRecord "bond" .locked (some [sampleUtxo])) 0 hwell
  have hids : ∀ call ∈ [] ++ [.upsert (sampleRecord "bond" .locked (some [sampleUtxo])) 0] ++
      [.upsert (sampleRecord "bond" .reclaimed none) 1000],
      CommitmentCall.bondId call ∈ ["bond"] := by
    intro call hcall
    rw [List.nil_append, List.singleton_append, List.mem_cons, List.mem_singleton] at hcall
    rcases hcall with rfl | rfl
    · exact List.mem_cons_self
    · exact List.mem_cons_self
  have hstays := hroom ["bond"] (by decide) hids (by decide) fun hmem => by
    rw [List.mem_singleton] at hmem
    cases hmem
  obtain ⟨r, hr, -, -, hphase, hutxos⟩ := hkeeps hstays
  refine ⟨r, hr, hphase, hutxos [sampleUtxo] (List.cons_ne_nil _ _) rfl ?_ ?_⟩
  · intro old hold
    cases hold
  · intro v now' hv _
    rw [List.mem_singleton] at hv
    obtain ⟨rfl, -⟩ := CommitmentCall.upsert.inj hv
    exact Or.inl rfl

/-- More bonds than the store has room for. -/
def manyCalls : List CommitmentCall :=
  (List.range 201).map fun i : ℕ =>
    .upsert (sampleRecord ("bond" ++ toString (i : ℤ)) .created none) 0

theorem nodup_manyCalls : (manyCalls.map CommitmentCall.bondId).Nodup := by
  have hids : manyCalls.map CommitmentCall.bondId =
      (List.range 201).map fun i : ℕ => "bond" ++ toString (i : ℤ) := by
    rw [manyCalls, List.map_map]
    rfl
  have hinjective : Function.Injective fun i : ℕ => "bond" ++ toString (i : ℤ) := by
    intro i j hij
    have hlist := congrArg String.toList hij
    simp only [String.toList_append] at hlist
    have htext := String.toList_injective (List.append_cancel_left hlist)
    have hvalue := (digitsValue_toString (Int.natCast_nonneg i)).2
    rw [htext, (digitsValue_toString (Int.natCast_nonneg j)).2] at hvalue
    exact Int.ofNat.inj hvalue.symm
  rw [hids]
  exact List.nodup_range.map hinjective

/-- An upsert with an empty list of outputs clears those of a funded bond, and of two hundred and
one bonds one is gone. -/
theorem commitment_store_loses :
    (¬ ∀ u v : CommitmentRecord, ∀ now now' : ℤ,
      WellFormedCalls sampleP2tr decodesAll (fun _ => .mainnet) [.upsert u now, .upsert v now'] →
      u.bondId = v.bondId → ∀ utxos, utxos ≠ [] → u.utxos = some utxos →
        ∃ r, getCommitmentBond sampleP2tr decodesAll
          (storedAfter sampleP2tr decodesAll [.upsert u now, .upsert v now']) u.bondId = some r ∧
          r.utxos = some utxos) ∧
      ¬ ∀ calls : List CommitmentCall,
        WellFormedCalls sampleP2tr decodesAll (fun _ => .mainnet) calls →
        (∀ bondId, .remove bondId ∉ calls) → ∀ call ∈ calls,
          getCommitmentBond sampleP2tr decodesAll (storedAfter sampleP2tr decodesAll calls)
            call.bondId ≠ none := by
  constructor
  · intro h
    have hwell : WellFormedCalls sampleP2tr decodesAll (fun _ => .mainnet)
        [.upsert (sampleRecord "bond" .locked (some [sampleUtxo])) 0,
          .upsert (sampleRecord "bond" .locked (some [])) 1000] := by
      intro r now hr
      rw [List.mem_cons, List.mem_singleton] at hr
      rcases hr with hr | hr
      · obtain ⟨rfl, -⟩ := CommitmentCall.upsert.inj hr
        refine ⟨sampleRecord_loadable _ _ fun l hl u hu => ?_, rfl⟩
        obtain rfl := Option.some.inj hl
        rw [List.mem_singleton.mp hu]
        exact Int.natCast_nonneg 1000
      · obtain ⟨rfl, -⟩ := CommitmentCall.upsert.inj hr
        refine ⟨sampleRecord_loadable _ _ fun l hl u hu => ?_, rfl⟩
        obtain rfl := Option.some.inj hl
        cases hu
    obtain ⟨r, hr, hutxos⟩ := h _ _ 0 1000 hwell rfl [sampleUtxo] (List.cons_ne_nil _ _) rfl
    have hcleared : (getCommitmentBond sampleP2tr decodesAll (storedAfter sampleP2tr decodesAll
        [.upsert (sampleRecord "bond" .locked (some [sampleUtxo])) 0,
          .upsert (sampleRecord "bond" .locked (some [])) 1000]) "bond").bind
        CommitmentRecord.utxos = none := by
      decide +kernel
    have hread : (sampleRecord "bond" .locked (some [sampleUtxo])).bondId = "bond" := rfl
    rw [hread] at hr
    rw [hr, Option.bind_some, hutxos] at hcleared
    cases hcleared
  · intro h
    have hwell : WellFormedCalls sampleP2tr decodesAll (fun _ => .mainnet) manyCalls := by
      intro r now hr
      obtain ⟨i, -, hi⟩ := List.mem_map.mp hr
      obtain ⟨rfl, -⟩ := CommitmentCall.upsert.inj hi
      exact ⟨sampleRecord_loadable _ _ fun l hl => (Option.some_ne_none l hl.symm).elim, rfl⟩
    have hremove : ∀ bondId, .remove bondId ∉ manyCalls := by
      intro bondId hmem
      obtain ⟨i, -, hi⟩ := List.mem_map.mp hmem
      cases hi
    -- All their ids would be among the stored ones.
    have hsubset : manyCalls.map CommitmentCall.bondId ⊆
        (recordsAfter sampleP2tr decodesAll manyCalls).keys := by
      intro bondId hmem
      obtain ⟨call, hcall, rfl⟩ := List.mem_map.mp hmem
      have hfound := h manyCalls hwell hremove call hcall
      rw [getCommitmentBond, readRaw_storedAfter] at hfound
      rw [mem_bondKeys]
      intro hnone
      rw [hnone] at hfound
      exact hfound rfl
    have hle := (List.subperm_of_subset nodup_manyCalls hsubset).length_le
    have hcount : manyCalls.length = 201 := by rw [manyCalls, List.length_map, List.length_range]
    have hbound : (recordsAfter sampleP2tr decodesAll manyCalls).entries.length ≤ 200 :=
      length_recordsAfter manyCalls
    rw [OrderedMap.keys, List.length_map, List.length_map, hcount] at hle
    omega

end ChamaEscrow.Bond
