import ChamaEscrow.Bond.Capacity
import Mathlib.Data.List.DropRight

/-!
# Building announcements

`buildBondAnnouncementEvent` (`protocol/core/bond-announcement.ts`), the writer beside the reader of
`Bond.Announcement`.  The writer leaves out the roles that a reader takes an absent field for, and
carries the lineage in the normal form that a reader gives it.

* `parse_payload`: a payload of fields in normal form is read back field by field.
* `announcement_round_trip`: what is built of an input is read back as that input in normal form,
  and what was read, built again, is read back as the same announcement.  The writer does not look
  at the address, and does look at the amount.
-/

namespace ChamaEscrow.Bond

open Js Library

/-! ### The writer -/

/-- The key of a bond as a caller passes it. -/
inductive OwnerKey
  | bytes (key : List UInt8)
  | text (key : String)

/-- `b.toString(16).padStart(2, "0")`. -/
def byteHex (b : UInt8) : List Char := [Nat.digitChar (b.toNat / 16), Nat.digitChar (b.toNat % 16)]

def OwnerKey.hex : OwnerKey → String
  | bytes key => String.ofList (key.flatMap byteHex)
  | text key => toLowerCase (trim key)

/-- The parameters of `buildBondAnnouncementEvent`. -/
structure AnnouncementInput where
  pubkey : String
  community : String
  ownerXonly : OwnerKey
  lockUntil : JsNumber
  amountSats : ℤ
  network : BitcoinNetwork
  address : String
  createdAt : Option JsNumber := none
  roles : Option (List JsValue) := none
  lineage : JsValue := .undefined

/-- An event that is not signed yet, with the JSON of its content. -/
structure UnsignedAnnouncement where
  kind : ℕ
  createdAt : JsNumber
  tags : List (List String)
  content : JsValue

/-- `BondRole` as it is written. -/
def BondRole.value : BondRole → JsValue
  | .arbiter => .str "arbiter"
  | .merchant => .str "merchant"

def networkLabel : BitcoinNetwork → String
  | .signet => "signet"
  | .mainnet => "mainnet"

def BondLineageHop.value (hop : BondLineageHop) : JsValue :=
  .obj [("fromXonly", .str hop.fromXonly), ("fromLockUntil", .num hop.fromLockUntil),
    ("fromTxid", .str hop.fromTxid)]

def BondLineage.value (lineage : BondLineage) : JsValue :=
  .obj (("hops", .arr (lineage.hops.map BondLineageHop.value)) ::
    (lineage.rootTxid.map fun txid => ("rootTxid", JsValue.str txid)).toList)

def announcementPayload (npub community ownerXonly : String) (lockUntil : JsNumber)
    (amountSats : ℤ) (network : BitcoinNetwork) (address : String) (roles : List BondRole)
    (lineage : Option BondLineage) : JsValue :=
  .obj ([("type", .str arbiterBondAnnouncementType), ("npub", .str npub),
      ("community", .str community), ("ownerXonly", .str ownerXonly),
      ("lockUntil", .num lockUntil), ("amountSats", .str (toString amountSats)),
      ("network", .str (networkLabel network)), ("address", .str address)] ++
    ((if roles = [.arbiter] then [] else [("roles", .arr (roles.map BondRole.value))]) ++
      (lineage.map fun l => ("lineage", l.value)).toList))

def inputRoles (roles : Option (List JsValue)) : List BondRole :=
  roles.elim [.arbiter] fun roles => normRoles (.arr roles)

def inputLineage (lineage : JsValue) : Option BondLineage :=
  if lineage.truthy then normLineage lineage else none

def announcementEvent (version : String) (nowSeconds : JsNumber) (perBondWriter : Bool)
    (input : AnnouncementInput) (pubkey : String) : UnsignedAnnouncement :=
  let community := trim input.community
  { kind := arbiterBondAnnouncementKind
    createdAt := input.createdAt.getD nowSeconds
    tags := [["d", if perBondWriter then input.address else community],
      ["t", arbiterBondAnnouncementType], ["c", community], ["client", "chama", version]]
    content := announcementPayload pubkey community input.ownerXonly.hex input.lockUntil
      input.amountSats input.network input.address (inputRoles input.roles)
      (inputLineage input.lineage) }

def buildBondAnnouncementEvent (version : String) (nowSeconds : JsNumber) (perBondWriter : Bool)
    (input : AnnouncementInput) : Except JsError UnsignedAnnouncement := do
  match normHex input.pubkey with
  | none => .error (.error s!"Announcement pubkey is not a 64-char hex key: {input.pubkey}")
  | some pubkey =>
    rejectIf (trim input.community = "") (.error "Announcement needs a community")
    rejectIf (isLowerHex 64 input.ownerXonly.hex = false)
      (.error "ownerXonly must be a 32-byte x-only key")
    rejectIf (isPositiveInteger input.lockUntil = false)
      (.error "lockUntil must be a positive block height")
    rejectIf (input.amountSats ≤ 0) (.error "amountSats must be positive")
    rejectIf (input.lineage.truthy = true ∧ inputLineage input.lineage = none)
      (.error "lineage is malformed — refusing to announce an unverifiable renewal claim")
    return announcementEvent version nowSeconds perBondWriter input pubkey

/-! ### Texts -/

theorem trim_trim (s : String) : trim (trim s) = trim s := by
  have hlist (l : List Char) : ((l.dropWhile Char.isWhitespace).rdropWhile
      Char.isWhitespace).dropWhile Char.isWhitespace
        = (l.dropWhile Char.isWhitespace).rdropWhile Char.isWhitespace := by
    rw [List.dropWhile_eq_self_iff]
    intro hpos
    -- what is left begins as it did before the end was cut off
    obtain ⟨rest, hrest⟩ := List.rdropWhile_prefix Char.isWhitespace (l.dropWhile Char.isWhitespace)
    have hlonger : 0 < (l.dropWhile Char.isWhitespace).length := by
      rw [← hrest, List.length_append]
      omega
    have hhead := List.dropWhile_get_zero_not Char.isWhitespace l hlonger
    have hsame : (l.dropWhile Char.isWhitespace)[0]? =
        ((l.dropWhile Char.isWhitespace).rdropWhile Char.isWhitespace)[0]? := by
      conv_lhs => rw [← hrest]
      rw [List.getElem?_append_left hpos]
    rw [List.getElem?_eq_getElem hlonger, List.getElem?_eq_getElem hpos] at hsame
    rw [← Option.some.inj hsame]
    exact hhead
  have htrim (s : String) : trim s = String.ofList
      ((s.toList.dropWhile Char.isWhitespace).rdropWhile Char.isWhitespace) := rfl
  rw [htrim (trim s), htrim s, String.toList_ofList, hlist, List.rdropWhile_idempotent]

theorem normHexField_str (s : String) : normHexField (.str s) = .ok (normHex s) := by
  have hread : normHexField (.str s) = .ok (normHex (trim s)) := rfl
  rw [hread, normHex, normHex, trim_trim]

theorem digitsValue_toString {n : ℤ} (h : 0 ≤ n) :
    isDigits (toString n) = true ∧ digitsValue (toString n) = n := by
  obtain ⟨m, rfl⟩ := Int.eq_ofNat_of_zero_le h
  have htext : (toString (m : ℤ)).toList = Nat.toDigits 10 m := by
    show (toString m).toList = _
    simp
  have hdigits : ∀ c ∈ Nat.toDigits 10 m, c.isDigit = true :=
    fun c hc => Nat.isDigit_of_mem_toDigits (by norm_num) (by norm_num) hc
  have hfold (l : List Char) : ∀ start : ℕ,
      l.foldl (fun n c => n * 10 + ((c.toNat - '0'.toNat : ℕ) : ℤ)) (start : ℤ)
        = (Nat.ofDigitChars 10 l start : ℤ) := by
    induction l with
    | nil => exact fun start => rfl
    | cons c l ih =>
      intro start
      rw [List.foldl_cons, Nat.ofDigitChars_cons, ← ih]
      congr 1
      push_cast
      ring
  constructor
  · rw [isDigits, htext, Bool.and_eq_true, List.all_eq_true]
    refine ⟨?_, hdigits⟩
    rw [Bool.not_eq_true', List.isEmpty_eq_false_iff]
    exact Nat.toDigits_ne_nil
  · rw [digitsValue, htext]
    have hvalue := hfold (Nat.toDigits 10 m) 0
    rw [Nat.ofDigitChars_ten_toDigits] at hvalue
    exact hvalue

/-! ### Normal forms -/

/-- A list of roles as `normRoles` makes it. -/
def IsRoles (roles : List BondRole) : Prop := roles.Nodup ∧ roles ≠ []

theorem nodup_seen (named : List BondRole) : ∀ seen : List BondRole, seen.Nodup →
    (named.foldl (fun seen role => if role ∈ seen then seen else seen ++ [role]) seen).Nodup := by
  induction named with
  | nil => exact fun seen hseen => hseen
  | cons role named ih =>
    intro seen hseen
    rw [List.foldl_cons]
    apply ih
    split_ifs with hmem
    · exact hseen
    · exact List.nodup_append.mpr ⟨hseen, List.nodup_singleton role, by
        intro a ha b hb
        rw [List.mem_singleton.mp hb]
        exact fun heq => hmem (heq ▸ ha)⟩

theorem isRoles_normRoles (value : JsValue) : IsRoles (normRoles value) := by
  unfold normRoles
  dsimp only
  split_ifs with hempty
  · exact ⟨List.nodup_singleton _, List.cons_ne_nil _ _⟩
  · refine ⟨nodup_seen _ [] List.nodup_nil, ?_⟩
    intro hnil
    rw [hnil] at hempty
    exact hempty rfl

theorem normRoles_values {roles : List BondRole} (h : IsRoles roles) :
    normRoles (.arr (roles.map BondRole.value)) = roles := by
  -- there are two roles, so at most four such lists
  obtain ⟨hnodup, hne⟩ := h
  match roles, hnodup, hne with
  | [.arbiter], _, _ => rfl
  | [.merchant], _, _ => rfl
  | [.arbiter, .merchant], _, _ => rfl
  | [.merchant, .arbiter], _, _ => rfl
  | [.arbiter, .arbiter], hnodup, _ => exact absurd hnodup (by decide)
  | [.merchant, .merchant], hnodup, _ => exact absurd hnodup (by decide)
  | a :: b :: c :: rest, hnodup, _ =>
    have habc : a ≠ b ∧ a ≠ c ∧ b ≠ c := by
      simp only [List.nodup_cons, List.mem_cons, not_or] at hnodup
      exact ⟨hnodup.1.1, hnodup.1.2.1, hnodup.2.1.1⟩
    cases a <;> cases b <;> cases c <;> simp at habc

/-- A hop as `normLineageHop` makes it. -/
structure BondLineageHop.Normal (hop : BondLineageHop) : Prop where
  xonly : isLowerHex 64 hop.fromXonly = true
  txid : isLowerHex 64 hop.fromTxid = true
  lockUntil : isPositiveInteger hop.fromLockUntil = true

variable {value : JsValue}

theorem normLineageHop_normal {hop : BondLineageHop}
    (h : normLineageHop value = some hop) : hop.Normal := by
  simp only [normLineageHop, Option.bind_eq_bind, Option.bind_eq_some_iff, Option.pure_def,
    Option.some.injEq, Option.guard_eq_some'] at h
  obtain ⟨_, -, xonly, ⟨_, -, hxonly⟩, txid, ⟨_, -, htxid⟩, lockUntil, -, _, hlock, rfl⟩ := h
  exact ⟨normHex_eq_some hxonly, normHex_eq_some htxid, hlock⟩

theorem normLineageHop_value {hop : BondLineageHop} (h : hop.Normal) :
    normLineageHop hop.value = some hop := by
  have hxonly : (hop.value.field "fromXonly").text? = some hop.fromXonly := rfl
  have htxid : (hop.value.field "fromTxid").text? = some hop.fromTxid := rfl
  have hlock : (hop.value.field "fromLockUntil").number? = some hop.fromLockUntil := rfl
  have hobject : isObject hop.value = true := rfl
  rw [normLineageHop, hxonly, htxid, hlock, Option.bind_some, Option.bind_some,
    normHex_self h.xonly, normHex_self h.txid]
  simp [hobject, h.lockUntil]

/-- A lineage as `normLineage` makes it. -/
structure BondLineage.Normal (lineage : BondLineage) : Prop where
  hops : ∀ hop ∈ lineage.hops, hop.Normal
  txids : (lineage.hops.map BondLineageHop.fromTxid).Nodup
  nonempty : lineage.hops ≠ []
  length : lineage.hops.length ≤ maxLineageHops
  root : ∀ txid ∈ lineage.rootTxid, isLowerHex 64 txid = true

theorem usableHops_spec (entries : List JsValue) : ∀ seen : List String,
    (∀ hop ∈ usableHops seen entries, hop.Normal ∧ hop.fromTxid ∉ seen) ∧
      ((usableHops seen entries).map BondLineageHop.fromTxid).Nodup ∧
      (usableHops seen entries).length ≤ entries.length := by
  induction entries with
  | nil =>
    intro seen
    exact ⟨fun hop hhop => absurd hhop List.not_mem_nil, List.nodup_nil, Nat.le_refl _⟩
  | cons entry rest ih =>
    intro seen
    rw [usableHops]
    cases hentry : normLineageHop entry with
    | none => exact ⟨fun hop hhop => absurd hhop List.not_mem_nil, List.nodup_nil, Nat.zero_le _⟩
    | some hop =>
      dsimp only
      split_ifs with hseen
      · exact ⟨fun hop hhop => absurd hhop List.not_mem_nil, List.nodup_nil, Nat.zero_le _⟩
      · obtain ⟨hnormal, hnodup, hlength⟩ := ih (hop.fromTxid :: seen)
        refine ⟨?_, ?_, ?_⟩
        · intro hop' hhop'
          rcases List.mem_cons.mp hhop' with rfl | hhop'
          · exact ⟨normLineageHop_normal hentry, hseen⟩
          · obtain ⟨hnormal', hfresh⟩ := hnormal hop' hhop'
            exact ⟨hnormal', fun hmem => hfresh (List.mem_cons_of_mem _ hmem)⟩
        · rw [List.map_cons, List.nodup_cons]
          refine ⟨fun hmem => ?_, hnodup⟩
          obtain ⟨hop', hhop', heq⟩ := List.mem_map.mp hmem
          exact (hnormal hop' hhop').2 (heq ▸ List.mem_cons_self)
        · rw [List.length_cons, List.length_cons]
          omega

theorem usableHops_values {hops : List BondLineageHop} : ∀ seen : List String,
    (∀ hop ∈ hops, hop.Normal ∧ hop.fromTxid ∉ seen) →
      (hops.map BondLineageHop.fromTxid).Nodup →
        usableHops seen (hops.map BondLineageHop.value) = hops := by
  induction hops with
  | nil => exact fun seen _ _ => rfl
  | cons hop rest ih =>
    intro seen hnormal hnodup
    rw [List.map_cons, List.nodup_cons] at hnodup
    obtain ⟨hhop, hfresh⟩ := hnormal hop List.mem_cons_self
    rw [List.map_cons, usableHops, normLineageHop_value hhop]
    dsimp only
    rw [if_neg hfresh, ih (hop.fromTxid :: seen) ?_ hnodup.2]
    intro hop' hhop'
    obtain ⟨hnormal', hfresh'⟩ := hnormal hop' (List.mem_cons_of_mem _ hhop')
    refine ⟨hnormal', fun hmem => ?_⟩
    rcases List.mem_cons.mp hmem with heq | hmem
    · exact hnodup.1 (heq ▸ List.mem_map_of_mem hhop')
    · exact hfresh' hmem

variable {lineage : BondLineage}

theorem normLineage_normal (h : normLineage value = some lineage) : lineage.Normal := by
  unfold normLineage at h
  dsimp only at h
  split_ifs at h with harray hempty
  obtain rfl := Option.some.inj h
  obtain ⟨hnormal, hnodup, hlength⟩ :=
    usableHops_spec ((elements (value.field "hops")).take maxLineageHops) []
  refine ⟨fun hop hhop => (hnormal hop hhop).1, hnodup, ?_, ?_, ?_⟩
  · intro hnil
    dsimp only at hnil
    rw [hnil] at hempty
    exact hempty rfl
  · exact hlength.trans (List.length_take_le _ _)
  · intro txid htxid
    obtain ⟨text, -, hhex⟩ := Option.bind_eq_some_iff.mp htxid
    exact normHex_eq_some hhex

theorem normLineage_value (h : lineage.Normal) : normLineage lineage.value = some lineage := by
  have hhops : lineage.value.field "hops" = .arr (lineage.hops.map BondLineageHop.value) := rfl
  have htext : (lineage.value.field "rootTxid").text? = lineage.rootTxid := by
    obtain ⟨hops, root⟩ := lineage
    cases root with
    | none => rfl
    | some txid => rfl
  have hroot : (lineage.value.field "rootTxid").text?.bind normHex = lineage.rootTxid := by
    rw [htext]
    cases hvalue : lineage.rootTxid with
    | none => rfl
    | some txid => rw [Option.bind_some, normHex_self (h.root txid (Option.mem_def.mpr hvalue))]
  have htake : (lineage.hops.map BondLineageHop.value).take maxLineageHops
      = lineage.hops.map BondLineageHop.value :=
    List.take_of_length_le (by rw [List.length_map]; exact h.length)
  have hread : usableHops [] (lineage.hops.map BondLineageHop.value) = lineage.hops :=
    usableHops_values [] (fun hop hhop => ⟨h.hops hop hhop, List.not_mem_nil⟩) h.txids
  have hnonempty : lineage.hops.isEmpty = false := List.isEmpty_eq_false_iff.mpr h.nonempty
  rw [normLineage, hhops, hroot]
  simp [isArray, elements, htake, hread, hnonempty]

/-! ### Reading back -/

structure ParsedBondAnnouncement.Normal (a : ParsedBondAnnouncement) : Prop where
  community : trim a.community = a.community ∧ a.community ≠ ""
  ownerXonly : isLowerHex 64 a.ownerXonly = true
  lockUntil : isPositiveInteger a.lockUntil = true
  claimedSats : 0 ≤ a.claimedSats
  roles : IsRoles a.roles
  lineage : ∀ lineage ∈ a.lineage, lineage.Normal

def ParsedBondAnnouncement.payload (a : ParsedBondAnnouncement) : JsValue :=
  announcementPayload a.npub a.community a.ownerXonly a.lockUntil a.claimedSats a.network a.address
    a.roles a.lineage

structure AnnouncementEvent.Carries (event : AnnouncementEvent) (npub : String)
    (content : JsValue) : Prop where
  kind : event.kind = arbiterBondAnnouncementKind
  content : event.content = .ok content
  signer : normHex event.raw.pubkey = some npub

theorem networkOfText_networkLabel (network : BitcoinNetwork) :
    networkOfText? (networkLabel network) = some network := by
  cases network <;> rfl

section Fields

variable (a : ParsedBondAnnouncement)

theorem payload_roles (h : IsRoles a.roles) : normRoles (a.payload.field "roles") = a.roles := by
  unfold ParsedBondAnnouncement.payload announcementPayload
  by_cases hdefault : a.roles = [.arbiter]
  · rw [if_pos hdefault, hdefault]
    cases a.lineage with
    | none => rfl
    | some lineage => rfl
  · rw [if_neg hdefault]
    exact normRoles_values h

theorem payload_lineage (h : ∀ lineage ∈ a.lineage, lineage.Normal) :
    normLineage (a.payload.field "lineage") = a.lineage := by
  have hfield : a.payload.field "lineage" = (a.lineage.map BondLineage.value).getD .undefined := by
    unfold ParsedBondAnnouncement.payload announcementPayload
    split_ifs with hdefault
    · cases a.lineage with
      | none => rfl
      | some lineage => rfl
    · cases a.lineage with
      | none => rfl
      | some lineage => rfl
  rw [hfield]
  cases hlineage : a.lineage with
  | none => rfl
  | some lineage => exact normLineage_value (h lineage (Option.mem_def.mpr hlineage))

end Fields

variable {event : AnnouncementEvent}

theorem readAnnouncement_payload {a : ParsedBondAnnouncement} (h : a.Normal)
    (htime : event.raw.createdAt = a.createdAt) :
    readAnnouncement event a.payload a.npub a.npub_hex a.ownerXonly =
      if a.address = "" then none else some { a with eventId := event.raw.id } := by
  have hcommunity : (a.payload.field "community").text? = some a.community := rfl
  have hlock : (a.payload.field "lockUntil").number? = some a.lockUntil := rfl
  have hamount : (a.payload.field "amountSats").text? = some (toString a.claimedSats) := rfl
  have hnetwork : (a.payload.field "network").text? = some (networkLabel a.network) := rfl
  have haddress : (a.payload.field "address").text? = some a.address := rfl
  obtain ⟨hdigits, hvalue⟩ := digitsValue_toString h.claimedSats
  obtain ⟨htrim, hne⟩ := h.community
  generalize toString a.claimedSats = digits at hamount hdigits hvalue
  rw [readAnnouncement, hcommunity, hlock, hamount, hnetwork, haddress, payload_roles a h.roles,
    payload_lineage a h.lineage]
  by_cases haddressEmpty : a.address = ""
  · simp [networkOfText_networkLabel, haddressEmpty]
  · simp [htrim, hne, h.lockUntil, hdigits, hvalue, networkOfText_networkLabel, haddressEmpty,
      htime]

variable {verify : AnnouncementEvent → Bool}

theorem parse_payload {a : ParsedBondAnnouncement} (h : a.Normal)
    (hcarries : event.Carries a.npub a.payload) (htime : event.raw.createdAt = a.createdAt)
    (hverify : verify event = true) :
    parseBondAnnouncementEvent verify event =
      .ok (if a.address = "" then none else some { a with eventId := event.raw.id }) := by
  have hnpubField : a.payload.field "npub" = .str a.npub := rfl
  have hownerField : a.payload.field "ownerXonly" = .str a.ownerXonly := rfl
  have htype : (a.payload.field "type").isText arbiterBondAnnouncementType = true := rfl
  have hnamed : namedSigner a.payload a.npub = .ok (some a.npub) := by
    rw [namedSigner, hnpubField]
    split_ifs
    · rw [normHexField_str, normHex_self a.npub_hex]
    · rfl
  have howner : normHexField (a.payload.field "ownerXonly") = .ok (some a.ownerXonly) := by
    rw [hownerField, normHexField_str, normHex_self h.ownerXonly]
  unfold parseBondAnnouncementEvent
  split
  · rename_i p signer hcontent hsigner
    have hp : p = a.payload := Except.ok.inj (hcontent.symm.trans hcarries.content)
    have hs : signer = a.npub := Option.some.inj (hsigner.symm.trans hcarries.signer)
    subst hp hs
    rw [hcarries.kind, htype, if_neg (by simp), hnamed, ok_bind, if_neg (by simp), howner, ok_bind,
      Option.bind_some, readAnnouncement_payload h htime]
    split_ifs
    · rfl
    · simp [hverify]
  · rename_i hno
    exact absurd hcarries.signer (by
      intro hsigner
      exact hno a.payload a.npub hcarries.content hsigner)

/-! ### What is read is in normal form -/

theorem normHexField_eq_some {key : String}
    (h : normHexField value = .ok (some key)) : isLowerHex 64 key = true := by
  cases value with
  | str s =>
    rw [normHexField_str] at h
    exact normHex_eq_some (Except.ok.inj h)
  | undefined => cases h
  | null => cases h
  | _ => simp [normHexField, JsValue.trimmed, bind, Except.bind] at h

theorem digitsValue_nonneg (s : String) : 0 ≤ digitsValue s := by
  have hfold (l : List Char) : ∀ start : ℤ, 0 ≤ start →
      0 ≤ l.foldl (fun n c => n * 10 + ((c.toNat - '0'.toNat : ℕ) : ℤ)) start := by
    induction l with
    | nil => exact fun start hstart => hstart
    | cons c l ih =>
      intro start hstart
      exact ih _ (by positivity)
  exact hfold s.toList 0 (Int.le_refl 0)

theorem normal_of_read {p : JsValue} {signer ownerXonly : String}
    {hsigner : isLowerHex 64 signer = true} (howner : isLowerHex 64 ownerXonly = true)
    {a : ParsedBondAnnouncement} (h : readAnnouncement event p signer hsigner ownerXonly = some a) :
    a.Normal ∧ a.address ≠ "" := by
  simp only [readAnnouncement, Option.bind_eq_bind, Option.bind_eq_some_iff, Option.pure_def,
    Option.some.injEq, Option.guard_eq_some'] at h
  obtain ⟨community, -, _, hcommunity, lockUntil, -, _, hlock, amountSats, -, _, -, network, -,
    address, -, _, haddress, rfl⟩ := h
  refine ⟨⟨⟨trim_trim community, hcommunity⟩, howner, hlock, digitsValue_nonneg amountSats,
    isRoles_normRoles _, ?_⟩, haddress⟩
  intro lineage hlineage
  exact normLineage_normal (Option.mem_def.mp hlineage)

theorem normal_of_parse
    {a : ParsedBondAnnouncement} (h : parseBondAnnouncementEvent verify event = .ok (some a)) :
    a.Normal ∧ a.address ≠ "" := by
  unfold parseBondAnnouncementEvent at h
  split at h
  case h_2 => cases h
  case h_1 p signer hcontent hsigner =>
    split_ifs at h
    · cases h
    · simp only [bind_eq_ok] at h
      obtain ⟨named, -, h⟩ := h
      split_ifs at h
      · cases h
      · simp only [bind_eq_ok, pure_eq_ok, Option.bind_eq_some_iff, Option.filter_eq_some_iff] at h
        obtain ⟨owner, howner, ownerXonly, rfl, hread, -⟩ := h
        exact normal_of_read (normHexField_eq_some howner) hread

/-! ### Round trips -/

structure UnsignedAnnouncement.SignedAs (built : UnsignedAnnouncement) (npub : String)
    (event : AnnouncementEvent) : Prop where
  kind : event.kind = built.kind
  createdAt : event.raw.createdAt = built.createdAt
  tags : event.raw.tags = built.tags
  content : event.content = .ok built.content
  signer : normHex event.raw.pubkey = some npub

def AnnouncementInput.announced (input : AnnouncementInput) {npub : String}
    (hnpub : isLowerHex 64 npub = true) (createdAt : JsNumber) (eventId : String) :
    ParsedBondAnnouncement where
  npub := npub
  community := trim input.community
  ownerXonly := input.ownerXonly.hex
  lockUntil := input.lockUntil
  claimedSats := input.amountSats
  network := input.network
  address := input.address
  createdAt := createdAt
  eventId := eventId
  roles := inputRoles input.roles
  lineage := inputLineage input.lineage
  npub_hex := hnpub

def ParsedBondAnnouncement.toInput (a : ParsedBondAnnouncement) : AnnouncementInput where
  pubkey := a.npub
  community := a.community
  ownerXonly := .text a.ownerXonly
  lockUntil := a.lockUntil
  amountSats := a.claimedSats
  network := a.network
  address := a.address
  createdAt := some a.createdAt
  roles := some (a.roles.map BondRole.value)
  lineage := (a.lineage.map BondLineage.value).getD .undefined

variable {version : String} {now : JsNumber} {writer : Bool} {input : AnnouncementInput}
  {built : UnsignedAnnouncement}

/-- What the writer checks. -/
structure AnnouncementInput.Accepted (input : AnnouncementInput) : Prop where
  community : trim input.community ≠ ""
  ownerXonly : isLowerHex 64 input.ownerXonly.hex = true
  lockUntil : isPositiveInteger input.lockUntil = true
  amountSats : 0 < input.amountSats
  lineage : input.lineage.truthy = true → inputLineage input.lineage ≠ none

theorem build_eq_ok : buildBondAnnouncementEvent version now writer input = .ok built ↔
    ∃ npub, normHex input.pubkey = some npub ∧ input.Accepted ∧
      built = announcementEvent version now writer input npub := by
  unfold buildBondAnnouncementEvent
  cases hpubkey : normHex input.pubkey with
  | none => simp
  | some npub =>
    simp only [bind_eq_ok, rejectIf_eq_ok, pure_eq_ok, exists_and_left, exists_const]
    constructor
    · rintro ⟨hcommunity, howner, hlock, hamount, hlineage, hbuilt⟩
      refine ⟨npub, rfl, ⟨hcommunity, ?_, ?_, ?_, ?_⟩, hbuilt.symm⟩
      · simpa using howner
      · simpa using hlock
      · omega
      · exact fun htruthy hnone => hlineage ⟨htruthy, hnone⟩
    · rintro ⟨npub', hnpub', haccepted, rfl⟩
      cases hnpub'
      refine ⟨haccepted.community, ?_, ?_, ?_, ?_, rfl⟩
      · simp [haccepted.ownerXonly]
      · simp [haccepted.lockUntil]
      · have := haccepted.amountSats
        omega
      · exact fun h => haccepted.lineage h.1 h.2

theorem inputRoles_isRoles (roles : Option (List JsValue)) : IsRoles (inputRoles roles) := by
  cases roles with
  | none => exact ⟨List.nodup_singleton _, List.cons_ne_nil _ _⟩
  | some roles => exact isRoles_normRoles _

theorem inputLineage_normal (h : inputLineage value = some lineage) : lineage.Normal := by
  unfold inputLineage at h
  split_ifs at h
  exact normLineage_normal h

theorem AnnouncementInput.announced_normal {npub : String} (hnpub : isLowerHex 64 npub = true)
    (hcommunity : trim input.community ≠ "") (howner : isLowerHex 64 input.ownerXonly.hex = true)
    (hlock : isPositiveInteger input.lockUntil = true) (hamount : 0 ≤ input.amountSats)
    (createdAt : JsNumber) (eventId : String) :
    (input.announced hnpub createdAt eventId).Normal := by
  refine ⟨⟨trim_trim _, hcommunity⟩, howner, hlock, hamount, inputRoles_isRoles input.roles, ?_⟩
  intro lineage hlineage
  exact inputLineage_normal (Option.mem_def.mp hlineage)

theorem parse_built (hbuilt : buildBondAnnouncementEvent version now writer input = .ok built)
    {npub : String} (hnpub : isLowerHex 64 npub = true) (hsigner : normHex input.pubkey = some npub)
    (hsigned : built.SignedAs npub event) (hverify : verify event = true) :
    parseBondAnnouncementEvent verify event =
      .ok (if input.address = "" then none
        else some (input.announced hnpub built.createdAt event.raw.id)) := by
  obtain ⟨npub', hnpub', haccepted, rfl⟩ := build_eq_ok.mp hbuilt
  obtain rfl : npub' = npub := Option.some.inj (hnpub'.symm.trans hsigner)
  have hnormal := input.announced_normal hnpub haccepted.community haccepted.ownerXonly
    haccepted.lockUntil haccepted.amountSats.le (input.createdAt.getD now) event.raw.id
  exact parse_payload hnormal ⟨hsigned.kind, hsigned.content, hsigned.signer⟩ hsigned.createdAt
    hverify

theorem hex_text {key : String} (h : isLowerHex 64 key = true) : (OwnerKey.text key).hex = key := by
  have hself := normHex_self h
  unfold normHex at hself
  dsimp only at hself
  split_ifs at hself
  exact Option.some.inj hself

theorem inputLineage_toInput {a : ParsedBondAnnouncement} (h : a.Normal) :
    inputLineage a.toInput.lineage = a.lineage ∧
      (a.toInput.lineage.truthy = true → a.lineage ≠ none) := by
  unfold inputLineage ParsedBondAnnouncement.toInput
  cases hlineage : a.lineage with
  | none => exact ⟨rfl, fun htruthy => by cases htruthy⟩
  | some lineage =>
    have hread := normLineage_value (h.lineage lineage (Option.mem_def.mpr hlineage))
    exact ⟨hread, fun _ => Option.some_ne_none lineage⟩

theorem build_toInput {a : ParsedBondAnnouncement} (h : a.Normal) (hpos : 0 < a.claimedSats) :
    ∃ built, buildBondAnnouncementEvent version now writer a.toInput = .ok built := by
  have haccepted : a.toInput.Accepted := by
    obtain ⟨hlineage, hsome⟩ := inputLineage_toInput h
    refine ⟨?_, ?_, h.lockUntil, hpos, fun htruthy => ?_⟩
    · show trim a.community ≠ ""
      rw [h.community.1]
      exact h.community.2
    · show isLowerHex 64 (OwnerKey.text a.ownerXonly).hex = true
      rw [hex_text h.ownerXonly]
      exact h.ownerXonly
    · rw [hlineage]
      exact hsome htruthy
  exact ⟨_, build_eq_ok.mpr ⟨a.npub, normHex_self a.npub_hex, haccepted, rfl⟩⟩

theorem announced_toInput {a : ParsedBondAnnouncement} (h : a.Normal) (eventId : String) :
    a.toInput.announced a.npub_hex a.createdAt eventId = { a with eventId := eventId } := by
  have hcommunity : trim a.toInput.community = a.community := h.community.1
  have howner : a.toInput.ownerXonly.hex = a.ownerXonly := hex_text h.ownerXonly
  have hroles : inputRoles a.toInput.roles = a.roles := normRoles_values h.roles
  have hlineage := (inputLineage_toInput h).1
  unfold AnnouncementInput.announced
  rw [hcommunity, howner, hroles, hlineage]
  rfl

/-- What is built of an input is read back as that input in normal form, if it has an address; and
what was read and claims sats can be built again, and is read back as the same announcement. -/
theorem announcement_round_trip (version : String) (now : JsNumber) (writer : Bool) :
    (∀ input built, buildBondAnnouncementEvent version now writer input = .ok built →
      input.address ≠ "" →
        ∃ (npub : String) (hnpub : isLowerHex 64 npub = true), normHex input.pubkey = some npub ∧
          ∀ verify event, built.SignedAs npub event → verify event = true →
            parseBondAnnouncementEvent verify event =
              .ok (some (input.announced hnpub built.createdAt event.raw.id))) ∧
      ∀ verify event a, parseBondAnnouncementEvent verify event = .ok (some a) →
        0 < a.claimedSats →
          ∃ built, buildBondAnnouncementEvent version now writer a.toInput = .ok built ∧
            ∀ verify' event', built.SignedAs a.npub event' → verify' event' = true →
              parseBondAnnouncementEvent verify' event' =
                .ok (some { a with eventId := event'.raw.id }) := by
  constructor
  · intro input built hbuilt haddress
    obtain ⟨npub, hsigner, -, -⟩ := build_eq_ok.mp hbuilt
    refine ⟨npub, normHex_eq_some hsigner, hsigner, fun verify event hsigned hverify => ?_⟩
    rw [parse_built hbuilt (normHex_eq_some hsigner) hsigner hsigned hverify, if_neg haddress]
  · intro verify event a hparse hpos
    obtain ⟨hnormal, haddress⟩ := normal_of_parse hparse
    obtain ⟨built, hbuilt⟩ : ∃ built,
        buildBondAnnouncementEvent version now writer a.toInput = .ok built :=
      build_toInput hnormal hpos
    refine ⟨built, hbuilt, fun verify' event' hsigned hverify => ?_⟩
    have hread := parse_built hbuilt a.npub_hex (normHex_self a.npub_hex) hsigned hverify
    have htime : built.createdAt = a.createdAt := by
      obtain ⟨-, -, -, rfl⟩ := build_eq_ok.mp hbuilt
      rfl
    have haddressInput : a.toInput.address ≠ "" := haddress
    rw [hread, if_neg haddressInput, htime, announced_toInput hnormal]

/-! ### Where the writer and the reader differ -/

def sampleInput (address : String) (amountSats : ℤ) : AnnouncementInput where
  pubkey := sampleHex 'a'
  community := "coop"
  ownerXonly := .text (sampleHex 'b')
  lockUntil := 900000
  amountSats := amountSats
  network := .mainnet
  address := address

theorem sampleInput_accepted {amountSats : ℤ} (h : 0 < amountSats) (address : String) :
    (sampleInput address amountSats).Accepted := by
  have hcommunity : trim "coop" ≠ "" := by decide
  have hlock : isPositiveInteger 900000 = true := rfl
  refine ⟨hcommunity, ?_, hlock, h, fun htruthy => by cases htruthy⟩
  show isLowerHex 64 (OwnerKey.text (sampleHex 'b')).hex = true
  rw [hex_text (isLowerHex_sampleHex (by decide))]
  exact isLowerHex_sampleHex (by decide)

def sampleEvent (content : JsValue) (tags : List (List String)) : AnnouncementEvent where
  raw :=
    { id := "event"
      pubkey := sampleHex 'a'
      createdAt := 0
      tags := tags
      pubkey_ne := by decide +kernel
      createdAt_ne := by decide }
  kind := arbiterBondAnnouncementKind
  content := .ok content

theorem normHex_sampleHex : normHex (sampleHex 'a') = some (sampleHex 'a') :=
  normHex_self (isLowerHex_sampleHex (by decide))

theorem build_sample {amountSats : ℤ} (h : 0 < amountSats) (address : String) :
    buildBondAnnouncementEvent "dev" 0 false (sampleInput address amountSats) =
      .ok (announcementEvent "dev" 0 false (sampleInput address amountSats) (sampleHex 'a')) :=
  build_eq_ok.mpr ⟨sampleHex 'a', normHex_sampleHex, sampleInput_accepted h address, rfl⟩

theorem sampleEvent_signed (amountSats : ℤ) (address : String) :
    (announcementEvent "dev" 0 false (sampleInput address amountSats) (sampleHex 'a')).SignedAs
      (sampleHex 'a')
      (sampleEvent
        (announcementEvent "dev" 0 false (sampleInput address amountSats) (sampleHex 'a')).content
        (announcementEvent "dev" 0 false (sampleInput address amountSats) (sampleHex 'a')).tags) :=
  ⟨rfl, rfl, rfl, rfl, normHex_sampleHex⟩

/-- A bond of one sat is announced, read back, and announced again. -/
theorem announcement_round_trip_sample :
    ∃ built a, buildBondAnnouncementEvent "dev" 0 false (sampleInput "bc1p" 1) = .ok built ∧
      parseBondAnnouncementEvent (fun _ => true) (sampleEvent built.content built.tags)
        = .ok (some a) ∧
      ∃ built', buildBondAnnouncementEvent "dev" 0 false a.toInput = .ok built' := by
  obtain ⟨hforth, hback⟩ := announcement_round_trip "dev" 0 false
  obtain ⟨npub, hnpub, hsigner, hread⟩ := hforth _ _ (build_sample one_pos "bc1p") (by decide)
  obtain rfl : sampleHex 'a' = npub := Option.some.inj (normHex_sampleHex.symm.trans hsigner)
  have hparse := hread (fun _ => true) _ (sampleEvent_signed 1 "bc1p") rfl
  obtain ⟨built', hbuilt', -⟩ := hback _ _ _ hparse Int.one_pos
  exact ⟨_, _, build_sample one_pos "bc1p", hparse, built', hbuilt'⟩

/-- The writer accepts an announcement without an address, which no reader takes; and the reader
accepts one that claims no sats, which the writer does not announce. -/
theorem announcement_drifts :
    (∃ built, buildBondAnnouncementEvent "dev" 0 false (sampleInput "" 1) = .ok built ∧
      parseBondAnnouncementEvent (fun _ => true) (sampleEvent built.content built.tags)
        = .ok none) ∧
      ∃ content a, parseBondAnnouncementEvent (fun _ => true) (sampleEvent content [])
          = .ok (some a) ∧
        ∀ built, buildBondAnnouncementEvent "dev" 0 false a.toInput ≠ .ok built := by
  have hhex : isLowerHex 64 (sampleHex 'a') = true := isLowerHex_sampleHex (by decide)
  constructor
  · refine ⟨_, build_sample one_pos "", ?_⟩
    exact parse_built (build_sample one_pos "") hhex normHex_sampleHex (sampleEvent_signed 1 "") rfl
  · have haccepted := sampleInput_accepted one_pos "bc1p"
    let a := (sampleInput "bc1p" 0).announced hhex 0 "event"
    have hnormal : a.Normal := (sampleInput "bc1p" 0).announced_normal hhex haccepted.community
      haccepted.ownerXonly haccepted.lockUntil (Int.le_refl 0) 0 "event"
    have hcarries : (sampleEvent a.payload []).Carries a.npub a.payload :=
      ⟨rfl, rfl, normHex_sampleHex⟩
    refine ⟨a.payload, a, parse_payload hnormal hcarries rfl rfl, fun built hbuilt => ?_⟩
    obtain ⟨-, -, hagain, -⟩ := build_eq_ok.mp hbuilt
    have hpositive : (0 : ℤ) < 0 := hagain.amountSats
    omega

end ChamaEscrow.Bond
