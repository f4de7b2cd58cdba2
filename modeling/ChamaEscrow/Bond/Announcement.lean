import ChamaEscrow.Engine.EventParser
import ChamaEscrow.Engine.Onchain
import ChamaEscrow.Js.Rounding

/-!
# Announcements of commitment bonds

The wire format of a bond announcement (`protocol/core/bond-announcement.ts`), what a reader accepts
of a signed event, and its check against the chain (`bond-multisig/bond-announcement.ts`), which
rebuilds the bond's address and reads what lies there.

Whoever signs an announcement names the key of the bond in it: nothing ties that key to the signer.
-/

namespace ChamaEscrow.Bond

open Js Library

/-! ### Hexadecimal keys -/

/-- `normHex` of a text. -/
def normHex (value : String) : Option String :=
  let t := toLowerCase (trim value)
  if t ≠ "" && isLowerHex 64 t then some t else none

/-- `normHex` of a field: anything but a text has no `trim` to call, unless it is absent. -/
def normHexField : JsValue → Except JsError (Option String)
  | .undefined | .null => .ok none
  | v => do return normHex (← v.trimmed)

theorem normHex_eq_some {s t : String} (h : normHex s = some t) : isLowerHex 64 t = true := by
  simp only [normHex, Option.ite_none_right_eq_some, Bool.and_eq_true] at h
  obtain ⟨⟨-, hhex⟩, heq⟩ := h
  rwa [← Option.some.inj heq]

theorem hexDigit_plain {c : Char} (h : (c.isDigit || ('a' ≤ c && c ≤ 'f')) = true) :
    c.isWhitespace = false ∧ c.toLower = c := by
  have hrange : (48 ≤ c.toNat ∧ c.toNat ≤ 57) ∨ (97 ≤ c.toNat ∧ c.toNat ≤ 102) := by
    rw [Bool.or_eq_true, Bool.and_eq_true, decide_eq_true_eq, decide_eq_true_eq] at h
    refine h.imp (fun h => ?_) (fun h => h)
    simpa [Char.isDigit, UInt32.le_iff_toNat_le] using h
  have hne {d : Char} (hd : d.toNat < 48) : c ≠ d := by
    rintro rfl
    omega
  constructor
  · simp [Char.isWhitespace, hne (d := ' ') (by decide), hne (d := '\t') (by decide),
      hne (d := '\r') (by decide), hne (d := '\n') (by decide)]
  · unfold Char.toLower
    rw [dif_neg]
    rintro ⟨hlow, hhigh⟩
    have hlow' : 65 ≤ c.toNat := hlow
    have hhigh' : c.toNat ≤ 90 := hhigh
    omega

theorem trim_of_plain {s : String} (h : ∀ c ∈ s.toList, c.isWhitespace = false) : trim s = s := by
  have hdrop {l : List Char} (hl : ∀ c ∈ l, c.isWhitespace = false) :
      l.dropWhile Char.isWhitespace = l := by
    cases l with
    | nil => rfl
    | cons c l => rw [List.dropWhile_cons_of_neg (by simp [hl c (List.mem_cons_self ..)])]
  rw [trim, hdrop h, hdrop fun c hc => h c (List.mem_reverse.mp hc), List.reverse_reverse,
    String.ofList_toList]

theorem toLowerCase_of_plain {s : String} (h : ∀ c ∈ s.toList, c.toLower = c) :
    toLowerCase s = s := by
  rw [toLowerCase, List.map_congr_left h, List.map_id', String.ofList_toList]

theorem normHex_self {t : String} (h : isLowerHex 64 t = true) : normHex t = some t := by
  have hplain : ∀ c ∈ t.toList, c.isWhitespace = false ∧ c.toLower = c := by
    intro c hc
    rw [isLowerHex, Bool.and_eq_true, List.all_eq_true] at h
    exact hexDigit_plain (h.2 c hc)
  have hne : t ≠ "" := by
    rintro rfl
    exact absurd h (by decide)
  rw [normHex, trim_of_plain fun c hc => (hplain c hc).1,
    toLowerCase_of_plain fun c hc => (hplain c hc).2]
  simp [hne, h]

/-! ### Wire format -/

/-- `BondRole`: what a bond licenses. -/
inductive BondRole
  | arbiter
  | merchant
  deriving DecidableEq

/-- `BondRole` of a text, in lower case. -/
def BondRole.ofText? (text : String) : Option BondRole :=
  if text = "arbiter" then some .arbiter else if text = "merchant" then some .merchant else none

/-- `normRoles`: the roles a list names, the arbiter's alone when it names none. -/
def normRoles (value : JsValue) : List BondRole :=
  let named := (elements value).filterMap fun entry =>
    entry.text?.bind fun s => BondRole.ofText? (toLowerCase (trim s))
  let seen := named.foldl (fun seen role => if role ∈ seen then seen else seen ++ [role]) []
  if seen.isEmpty then [.arbiter] else seen

/-- One hop back along a renewal chain. -/
structure BondLineageHop where
  fromXonly : String
  fromLockUntil : JsNumber
  fromTxid : String
  deriving DecidableEq

/-- The renewal ancestry that an announcement claims, newest first. -/
structure BondLineage where
  hops : List BondLineageHop
  rootTxid : Option String := none
  deriving DecidableEq

def isPositiveInteger (n : JsNumber) : Bool := n.isInteger && 0 < n

def normLineageHop (value : JsValue) : Option BondLineageHop := do
  guard (isObject value)
  let fromXonly ← (value.field "fromXonly").text?.bind normHex
  let fromTxid ← (value.field "fromTxid").text?.bind normHex
  let fromLockUntil ← (value.field "fromLockUntil").number?
  guard (isPositiveInteger fromLockUntil)
  return { fromXonly, fromLockUntil, fromTxid }

def maxLineageHops : ℕ := 24

/-- The loop of `normLineage`: it stops at the first hop that is malformed or repeats a txid. -/
def usableHops : (seenTxids : List String) → List JsValue → List BondLineageHop
  | _, [] => []
  | seenTxids, entry :: rest =>
    match normLineageHop entry with
    | none => []
    | some hop =>
      if hop.fromTxid ∈ seenTxids then [] else hop :: usableHops (hop.fromTxid :: seenTxids) rest

/-- `normLineage`: a claim without a usable hop is dropped. -/
def normLineage (value : JsValue) : Option BondLineage :=
  if !isArray (value.field "hops") then none
  else
    let hops := usableHops [] ((elements (value.field "hops")).take maxLineageHops)
    if hops.isEmpty then none
    else some { hops, rootTxid := (value.field "rootTxid").text?.bind normHex }

def arbiterBondAnnouncementKind : ℕ := 38135

def arbiterBondAnnouncementType : String := "chama:commitment-bond"

/-- A signed event with the parsed JSON of its content. -/
structure AnnouncementEvent where
  raw : NostrEvent
  kind : ℕ
  content : Except JsError JsValue

structure ParsedBondAnnouncement where
  npub : String
  community : String
  ownerXonly : String
  lockUntil : JsNumber
  claimedSats : ℤ
  network : BitcoinNetwork
  address : String
  createdAt : JsNumber
  eventId : String
  roles : List BondRole
  lineage : Option BondLineage
  npub_hex : isLowerHex 64 npub = true

/-- `NetworkLabel`. -/
def networkOfText? (text : String) : Option BitcoinNetwork :=
  if text = "signet" then some .signet else if text = "mainnet" then some .mainnet else none

def readAnnouncement (event : AnnouncementEvent) (p : JsValue) (signer : String)
    (hsigner : isLowerHex 64 signer = true) (ownerXonly : String) :
    Option ParsedBondAnnouncement := do
  let community ← (p.field "community").text?
  guard (trim community ≠ "")
  let lockUntil ← (p.field "lockUntil").number?
  guard (isPositiveInteger lockUntil)
  let amountSats ← (p.field "amountSats").text?
  guard (isDigits amountSats)
  let network ← (p.field "network").text?.bind networkOfText?
  let address ← (p.field "address").text?
  guard (address ≠ "")
  return {
    npub := signer
    community := trim community
    ownerXonly
    lockUntil
    claimedSats := digitsValue amountSats
    network
    address
    createdAt := event.raw.createdAt
    eventId := event.raw.id
    roles := normRoles (p.field "roles")
    lineage := normLineage (p.field "lineage")
    npub_hex := hsigner }

def namedSigner (p : JsValue) (signer : String) : Except JsError (Option String) :=
  if (p.field "npub").truthy then normHexField (p.field "npub") else .ok (some signer)

/-- `parseBondAnnouncementEvent`, under a signature check. -/
def parseBondAnnouncementEvent (verify : AnnouncementEvent → Bool) (event : AnnouncementEvent) :
    Except JsError (Option ParsedBondAnnouncement) :=
  match event.content, hsigner : normHex event.raw.pubkey with
  | .ok p, some signer =>
    if event.kind ≠ arbiterBondAnnouncementKind
        || !(p.field "type").isText arbiterBondAnnouncementType then .ok none
    else do
      let named ← namedSigner p signer
      -- The signer is authoritative: a content that names another key is dropped.
      if named ≠ some signer then return none
      else
        let ownerXonly ← normHexField (p.field "ownerXonly")
        return ownerXonly.bind fun ownerXonly =>
          (readAnnouncement event p signer (normHex_eq_some hsigner) ownerXonly).filter
            fun _ => verify event
  | _, _ => .ok none

/-! ### Selection -/

/-! ### Check against the chain -/

/-- A confirmed deposit at an address, as `findBondFundingUtxos` reports it. -/
structure BondDeposit where
  txid : String
  amountSats : ℕ
  blockHeight : Option ℕ
  deriving DecidableEq

/-- What a reader sees of the chain: the deposits at each address and, when it could be read, the
height of the tip. -/
structure ChainView where
  deposits : String → List BondDeposit
  tipHeight : Option JsNumber

def ChainView.sats (view : ChainView) (address : String) : ℕ :=
  ((view.deposits address).map BondDeposit.amountSats).sum

def ChainView.fundedAtHeight (view : ChainView) (address : String) : Option ℕ :=
  ((view.deposits address).filterMap BondDeposit.blockHeight).min?

def ChainView.fundingTxid (view : ChainView) (address : String) : Option String :=
  let deposits := view.deposits address
  ((deposits.find? fun u => u.blockHeight = view.fundedAtHeight address).or
    deposits.head?).map BondDeposit.txid

/-- `VerifiedBond`: an announcement with what the chain says of it. -/
structure VerifiedBond where
  npub : String
  community : String
  address : String
  lockUntil : JsNumber
  actualSats : ℕ
  claimedSats : ℤ
  funded : Bool
  active : Bool
  fundedAtHeight : Option ℕ
  fundingTxid : Option String
  roles : List BondRole
  ownerXonly : String
  lineage : Option BondLineage
  announcedAt : JsNumber

/-- The address of a bond with a key and a lock height.  Whatever it is, the results below hold. -/
abbrev CommitmentAddress :=
  (ownerXonly : String) → (lockUntil : JsNumber) → BitcoinNetwork → Except JsError String

/-- `buildCommitmentBond(…).address`, from the address that the Bitcoin library gives the output with
the timelock leaf. -/
def buildCommitmentBond (p2tr : CommitmentAddress) : CommitmentAddress :=
  fun ownerXonly lockUntil network =>
    -- Above this height the lock would count as a time.
    if !isPositiveInteger lockUntil || !(lockUntil < 500000000) then
      .error (.error "lockUntil must be a positive block height below 500000000")
    else p2tr ownerXonly lockUntil network

def ChainView.verified (view : ChainView) (parsed : ParsedBondAnnouncement) (recomputed : String) :
    VerifiedBond where
  npub := parsed.npub
  community := parsed.community
  address := recomputed
  lockUntil := parsed.lockUntil
  actualSats := view.sats recomputed
  claimedSats := parsed.claimedSats
  funded := 0 < view.sats recomputed
  active := view.tipHeight.all fun tip => tip < parsed.lockUntil
  fundedAtHeight := view.fundedAtHeight recomputed
  fundingTxid := view.fundingTxid recomputed
  roles := parsed.roles
  ownerXonly := parsed.ownerXonly
  lineage := parsed.lineage
  announcedAt := parsed.createdAt

/-- `verifyBondAnnouncement`: the address is rebuilt, never taken from the announcement. -/
def verifyBondAnnouncement (commitmentAddress : CommitmentAddress) (network : BitcoinNetwork)
    (view : ChainView) (parsed : ParsedBondAnnouncement) : Except JsError (Option VerifiedBond) :=
  if parsed.network ≠ network then .ok none
  else do
    let recomputed ← commitmentAddress parsed.ownerXonly parsed.lockUntil network
    return some (view.verified parsed recomputed)

/-- The bonds of a list of announcements, as `fetchCommunityBonds` collects them: one announcement
whose address cannot be built fails them all. -/
def verifyAnnouncements (commitmentAddress : CommitmentAddress) (network : BitcoinNetwork)
    (view : ChainView) : List ParsedBondAnnouncement → Except JsError (List VerifiedBond)
  | [] => .ok []
  | a :: rest => do
    let verified ← verifyBondAnnouncement commitmentAddress network view a
    return verified.toList ++ (← verifyAnnouncements commitmentAddress network view rest)

/-- `declaresArbiterRole`, of the roles of a bond. -/
def declaresArbiterRole (roles : List BondRole) : Bool :=
  roles.isEmpty || roles.contains .arbiter

section Verification

variable {commitmentAddress : CommitmentAddress} {network : BitcoinNetwork} {view : ChainView}
  {parsed : List ParsedBondAnnouncement}

def bondAddress (commitmentAddress : CommitmentAddress) (network : BitcoinNetwork)
    (a : ParsedBondAnnouncement) : Option String :=
  if a.network = network then (commitmentAddress a.ownerXonly a.lockUntil network).toOption
  else none

variable {a : ParsedBondAnnouncement}

theorem bondAddress_eq_some {address : String} :
    bondAddress commitmentAddress network a = some address ↔ a.network = network
      ∧ commitmentAddress a.ownerXonly a.lockUntil network = .ok address := by
  unfold bondAddress
  split_ifs with h
  · cases commitmentAddress a.ownerXonly a.lockUntil network <;> simp [h, Except.toOption]
  · simp [h]

theorem verifyBondAnnouncement_eq_ok {verified : Option VerifiedBond}
    (h : verifyBondAnnouncement commitmentAddress network view a = .ok verified) :
    verified = (bondAddress commitmentAddress network a).map (view.verified a) := by
  unfold verifyBondAnnouncement at h
  unfold bondAddress
  split_ifs at h with hnetwork
  · cases h
    rw [if_neg hnetwork]
    rfl
  · simp only [bind_eq_ok, pure_eq_ok] at h
    obtain ⟨recomputed, hrecomputed, rfl⟩ := h
    rw [if_pos (not_not.mp hnetwork), hrecomputed]
    rfl

theorem verifyAnnouncements_eq_ok {bonds : List VerifiedBond}
    (h : verifyAnnouncements commitmentAddress network view parsed = .ok bonds) :
    bonds = parsed.filterMap fun a =>
      (bondAddress commitmentAddress network a).map (view.verified a) := by
  induction parsed generalizing bonds with
  | nil =>
    cases h
    rfl
  | cons a rest ih =>
    simp only [verifyAnnouncements, bind_eq_ok, pure_eq_ok] at h
    obtain ⟨verified, hverified, others, hothers, rfl⟩ := h
    rw [ih hothers, verifyBondAnnouncement_eq_ok hverified, List.filterMap_cons]
    cases (bondAddress commitmentAddress network a).map (view.verified a) <;> rfl

theorem verifyAnnouncements_isOk :
    (∃ bonds, verifyAnnouncements commitmentAddress network view parsed = .ok bonds)
      ↔ ∀ a ∈ parsed, a.network = network →
        ∃ address, commitmentAddress a.ownerXonly a.lockUntil network = .ok address := by
  induction parsed with
  | nil => simp [verifyAnnouncements]
  | cons a rest ih =>
    have hone : (∃ verified, verifyBondAnnouncement commitmentAddress network view a = .ok verified)
        ↔ (a.network = network →
          ∃ address, commitmentAddress a.ownerXonly a.lockUntil network = .ok address) := by
      unfold verifyBondAnnouncement
      split_ifs with hnetwork
      · simp [hnetwork]
      · simp [not_not.mp hnetwork]
    rw [List.forall_mem_cons, ← hone, ← ih]
    simp only [verifyAnnouncements, bind_eq_ok, pure_eq_ok]
    constructor
    · rintro ⟨-, verified, hverified, bonds, hbonds, -⟩
      exact ⟨⟨verified, hverified⟩, bonds, hbonds⟩
    · rintro ⟨⟨verified, hverified⟩, bonds, hbonds⟩
      exact ⟨_, verified, hverified, bonds, hbonds, rfl⟩

end Verification

end ChamaEscrow.Bond
