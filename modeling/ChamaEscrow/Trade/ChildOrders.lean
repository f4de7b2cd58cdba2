import ChamaEscrow.Engine.ChildOrders
import ChamaEscrow.Trade.Fees
import ChamaEscrow.Trade.PlanState
import ChamaEscrow.Trade.Stock
import ChamaEscrow.Trade.Totality

/-!
# Orders and the listing they are made from

The buyer's client writes the CREATE of a purchase from the listing (`buildChildCreateParams`), the
reducer accepts or rejects it (`handleCreate`), and every client compares the order with the listing
(`storefrontChildMismatches`).  The writer carries neither the rail of the listing nor a check that
its scaled numbers are still finite.

* `purchase_agrees`: the three agree on a listing and a number of units if and only if it is a
  marketplace listing with a seller, a mint and a pool of texts, and the scaled prices are finite.
* `onchain_shop_rejects`: an on-chain listing without a mint sells nothing.
-/

namespace ChamaEscrow

open Js Library

variable {host : Host} {config : CreateConfig} {parent child s : EscrowState}
  {e : ParsedEscrowEvent} {q now : JsNumber} {pubkey escrowId : String}
  {params : ChildCreateParams}

/-! ### Listings -/

structure Written (e : ParsedEscrowEvent) (p : CreatePayload) (s : EscrowState) : Prop where
  described : p.description ≠ ""
  description : s.description = (truthyKey p.title).getD p.description
  mintUrl : s.mintUrl = p.mintUrl
  funded : p.mintUrl = "" → p.escrowMode.isText "onchain" = true
  parent : s.parent = p.parent
  claimedQuantity : s.claimedQuantity = p.claimedQuantity
  pool : s.communityArbiters = p.communityArbiters.orFalsy (.arr [])
  participants : p.chamaPolicy = .absent → s.participants = (createSeats e p).2

variable {p : CreatePayload}

theorem handleCreate_written (h : handleCreate host e p = .ok s) : Written e p s := by
  simp only [handleCreate, bind_eq_ok, pure_eq_ok, guardErr_eq_ok] at h
  obtain ⟨_, -, _, -, _, -, _, hdescribed, _, hfunded, _, -, _, -, _, -, arbiter, harbiter, _, -,
    rfl⟩ := h
  refine ⟨fun hempty => hdescribed (Or.inl hempty), rfl, rfl, fun hmint => ?_, rfl, rfl, rfl,
    fun hpolicy => ?_⟩
  · by_contra honchain
    exact hfunded ⟨hmint, by simpa using honchain⟩
  · rw [shareArbiter, hpolicy] at harbiter
    obtain rfl : (createSeats e p).2.arbiter = arbiter := pure_eq_ok.mp harbiter
    rfl

def fulfillments : List String := ["physical", "service", "digital"]

structure CopiedFields (p : CreatePayload) : Prop where
  fiatCurrency : absentOr isString p.fiatCurrency = true
  premiumBps : absentOr isFiniteNumber p.premiumBps = true
  fulfillment : absentOr (isOneOf fulfillments) p.fulfillment = true

/-- What a listing keeps of the checks of its CREATE. -/
structure SoundListing (s : EscrowState) : Prop where
  id : s.id ≠ ""
  description : s.description ≠ ""
  create : ∃ p, childCreate s = some p ∧ CopiedFields p

theorem escrowId_ne_of_parsed (h : Parsed host e) : e.escrowId ≠ "" := by
  obtain ⟨raw, kindNumber, content, context, h⟩ := h
  unfold parseEscrowEvent at h
  split at h
  · cases h
  · split at h
    · cases h
    · rename_i id hid
      simp only [bind_eq_ok, guardErr_eq_ok, under_eq_ok, pure_eq_ok] at h
      obtain ⟨-, -, payload, -, law, -, -, -, rfl⟩ := h
      exact (truthyKey_eq_some hid).2

theorem copiedFields_of_parsed (h : Parsed host e)
    (hp : e.payload = .create p) : CopiedFields p := by
  obtain ⟨d, hvalid, hread⟩ := h.payload
  have hkind : e.kind = .create := by rw [ParsedEscrowEvent.kind, hp, EscrowPayload.kind]
  rw [hkind] at hvalid hread
  rw [hp] at hread
  obtain rfl : p = readCreate d := by simpa [readPayload] using hread
  simp only [validatePayload, validateCreatePayload, Except.ok.injEq, Bool.and_eq_true,
    and_assoc] at hvalid
  obtain ⟨-, -, -, -, -, -, -, -, -, hfulfillment, -, -, -, -, -, -, -, -, -, -, -, -, hcurrency,
    hpremium, -⟩ := hvalid
  exact ⟨hcurrency, hpremium, hfulfillment⟩

theorem SoundListing.created (h : ParsedCreate host s) : SoundListing s := by
  obtain ⟨e, p, hparsed, hp, -, hcreate⟩ := h
  have hborn := handleCreate_newborn hp hcreate
  have hwritten := handleCreate_written hcreate
  refine ⟨hborn.id ▸ escrowId_ne_of_parsed hparsed, ?_, p, ?_, copiedFields_of_parsed hparsed hp⟩
  · rw [hwritten.description]
    cases htitle : truthyKey p.title with
    | none => exact hwritten.described
    | some title => exact (truthyKey_eq_some htitle).2
  · exact hborn.childCreate

theorem SoundListing.step (h : SoundListing s) {s' : EscrowState} (hstep : Stepped host s e s') :
    SoundListing s' := by
  obtain ⟨p, hcreate, hfields⟩ := h.create
  have hid : s'.id = s.id := congrArg TradeTerms.id hstep.terms
  have hdescription : s'.description = s.description :=
    congrArg TradeTerms.description hstep.terms
  exact ⟨hid ▸ h.id, hdescription ▸ h.description, p, hstep.childCreate hcreate, hfields⟩

theorem SoundListing.reached (h : ParsedRuns host s) : SoundListing s :=
  Reachable.invariant (I := SoundListing) (fun _ => SoundListing.created)
    (fun _ _ _ hs hstep => hs.step (applyToState_stepped hstep)) h

/-! ### The parameters of a purchase -/

/-- Everything of a purchase that the parser checks and the listing vouches for. -/
structure SoundParams (params : ChildCreateParams) : Prop where
  description : params.description ≠ ""
  fiatCurrency : absentOr isString params.fiatCurrency = true
  premiumBps : absentOr isFiniteNumber params.premiumBps = true
  category : params.category = "marketplace"
  fulfillment : ∃ text ∈ fulfillments, params.fulfillment = .str text
  community : ∀ community, params.community = some community → community ≠ ""
  parent : params.parent ≠ ""
  units : params.claimedQuantity.isInteger = true ∧ 0 < params.claimedQuantity
  seller : params.sellerPubkey ≠ ""

theorem createFulfillment_eq (h : absentOr (isOneOf fulfillments) p.fulfillment = true) :
    ∃ text ∈ fulfillments, createFulfillment p = .str text := by
  unfold createFulfillment
  split_ifs with hmarket hdelivery hservice
  · cases hvalue : p.delivery with
    | str text =>
      rw [hvalue, JsValue.isText, JsValue.isText, Bool.or_eq_true, decide_eq_true_eq,
        decide_eq_true_eq] at hservice
      refine ⟨text, ?_, rfl⟩
      rcases hservice with rfl | rfl <;> decide
    | _ =>
      rw [hvalue] at hservice
      cases hservice
  · exact ⟨"physical", by decide, rfl⟩
  · cases hvalue : p.fulfillment with
    | undefined => exact ⟨"physical", by decide, rfl⟩
    | str text =>
      rw [hvalue] at h
      exact ⟨text, of_decide_eq_true h, rfl⟩
    | _ =>
      rw [hvalue] at h
      cases h
  · exact ⟨"service", by decide, rfl⟩

structure PurchaseParams (listing : EscrowState) (q : JsNumber) (params : ChildCreateParams) :
    Prop where
  sound : SoundParams params
  amountMsats : params.amountMsats = listing.amountMsats * q
  fiatAmount : params.fiatAmount =
    (createField listing CreatePayload.fiatAmount).number?.map (· * q)
  mintUrl : params.mintUrl = listing.mintUrl
  pool : params.communityArbiters = listing.communityArbiters
  parent : params.parent = listing.id
  claimedQuantity : params.claimedQuantity = q
  seller : truthyKey listing.participants.seller = some params.sellerPubkey

theorem seller_of_build (h : buildChildCreateParams parent q = .ok params) :
    parent.category = "marketplace" ∧ (truthyKey parent.participants.seller).isSome ∧
      params.category = "marketplace" := by
  unfold buildChildCreateParams at h
  split_ifs at h with hunits hcategory hparent
  split at h
  · cases h
  · rename_i seller hseller
    obtain rfl := Except.ok.inj h
    exact ⟨not_not.mp hcategory, by rw [hseller]; rfl, not_not.mp hcategory⟩

theorem exists_params (hsound : SoundListing parent) (hunits : q.isInteger = true ∧ 0 < q)
    (hroot : parent.parent = none) (hcategory : parent.category = "marketplace")
    (hseller : (truthyKey parent.participants.seller).isSome) :
    ∃ params, buildChildCreateParams parent q = .ok params ∧ PurchaseParams parent q params := by
  have hbad : ¬ ((!q.isInteger) = true ∨ q ≤ 0) := by
    rintro (hfraction | hle)
    · rw [hunits.1] at hfraction
      cases hfraction
    · exact JsNumber.not_lt_of_le hle hunits.2
  obtain ⟨seller, hseller⟩ := Option.isSome_iff_exists.mp hseller
  rw [buildChildCreateParams, if_neg hbad, if_neg (not_not.mpr hcategory), hroot, hseller]
  obtain ⟨p, hcreate, hfields⟩ := hsound.create
  have hfield (field : CreatePayload → JsValue) : createField parent field = field p := by
    rw [createField, hcreate, Option.elim_some]
  have hcurrency := hfields.fiatCurrency
  have hpremium := hfields.premiumBps
  have hfulfillment := createFulfillment_eq hfields.fulfillment
  rw [← hfield CreatePayload.fiatCurrency] at hcurrency
  rw [← hfield CreatePayload.premiumBps] at hpremium
  rw [← hfield createFulfillment] at hfulfillment
  exact ⟨_, rfl, ⟨hsound.description, hcurrency, hpremium, hcategory, hfulfillment,
    fun community hcommunity => (truthyKey_eq_some hcommunity).2, hsound.id, hunits,
    (truthyKey_eq_some hseller).2⟩, rfl, rfl, rfl, rfl, rfl, rfl, hseller⟩

/-! ### The content on the wire -/

theorem wireNumber_of_finite {n : JsNumber} (h : n.isFinite = true) : wireNumber n = .num n :=
  if_pos h

theorem finite_of_wireNumber {n : JsNumber} (check : JsNumber → Bool)
    (h : isNumberWith check (wireNumber n) = true) : n.isFinite = true ∧ check n = true := by
  unfold wireNumber at h
  split_ifs at h with hfinite
  · exact ⟨hfinite, h⟩
  · cases h

structure FinitePrices (params : ChildCreateParams) : Prop where
  amount : params.amountMsats.isFinite = true
  pos : 0 < params.amountMsats
  fiat : ∀ n, params.fiatAmount = some n → n.isFinite = true

theorem finitePrices_of_valid
    (h : validateCreatePayload (childContent config pubkey now params) = true) :
    FinitePrices params := by
  simp only [validateCreatePayload, Bool.and_eq_true, and_assoc] at h
  obtain ⟨-, -, -, -, -, -, -, -, -, -, -, -, -, -, -, -, -, -, -, -, hamount, hfiat, -⟩ := h
  have hamount : isNumberWith (fun n => 0 < n) (wireNumber params.amountMsats) = true := hamount
  have hfiat : absentOr isFiniteNumber (params.fiatAmount.elim .undefined wireNumber) = true :=
    hfiat
  obtain ⟨hfinite, hpos⟩ := finite_of_wireNumber _ hamount
  refine ⟨hfinite, of_decide_eq_true hpos, fun n hn => ?_⟩
  rw [hn, Option.elim_some, absentOr, Bool.or_eq_true] at hfiat
  rcases hfiat with habsent | hnumber
  · unfold wireNumber at habsent
    split_ifs at habsent <;> cases habsent
  · exact (finite_of_wireNumber _ hnumber).1

theorem valid_childContent (hsound : SoundParams params) (hprices : FinitePrices params)
    (hnow : now.isFinite = true) :
    validateCreatePayload (childContent config pubkey now params) = true := by
  simp only [validateCreatePayload, Bool.and_eq_true, and_assoc]
  obtain ⟨text, htext, hfulfillment⟩ := hsound.fulfillment
  have hwire : params.wireFulfillment = .str text := by
    rw [ChildCreateParams.wireFulfillment, if_pos hsound.category, hfulfillment]
    rfl
  have hcommunity :
      absentOr isNonemptyString (params.community.elim .undefined .str) = true := by
    cases hvalue : params.community with
    | none => rfl
    | some community => exact decide_eq_true (hsound.community community hvalue)
  have hdelivery : absentOr (isOneOf ["ship", "meet", "service", "digital"])
      (if params.category = "marketplace" then
        if params.wireFulfillment.isText "physical" then .str "ship" else params.wireFulfillment
      else .undefined) = true := by
    rw [if_pos hsound.category, hwire]
    have htexts : text = "physical" ∨ text = "service" ∨ text = "digital" := by
      simpa [fulfillments] using htext
    rcases htexts with rfl | rfl | rfl <;> rfl
  have hfulfillment : absentOr (isOneOf fulfillments) params.wireFulfillment = true := by
    rw [hwire]
    exact decide_eq_true htext
  have hfinite : params.claimedQuantity.isFinite = true := by
    have hinteger := hsound.units.1
    cases hvalue : params.claimedQuantity with
    | fin q => rfl
    | _ => rw [hvalue] at hinteger; cases hinteger
  have hunits : absentOr (fun v => isPositiveNumber v && isNumberWith JsNumber.isInteger v)
      (wireNumber params.claimedQuantity) = true := by
    rw [wireNumber_of_finite hfinite, absentOr, Bool.or_eq_true, Bool.and_eq_true]
    refine Or.inr ⟨?_, hsound.units.1⟩
    exact Bool.and_eq_true_iff.mpr ⟨hfinite, decide_eq_true hsound.units.2⟩
  have hparent : absentOr isNonemptyString (.str params.parent) = true :=
    decide_eq_true hsound.parent
  have hseller : isNonemptyString (.str params.sellerPubkey) = true :=
    decide_eq_true hsound.seller
  have hamount : isNumberWith (fun n => 0 < n) (wireNumber params.amountMsats) = true := by
    rw [wireNumber_of_finite hprices.amount]
    exact decide_eq_true hprices.pos
  have hfiat :
      absentOr isFiniteNumber (params.fiatAmount.elim .undefined wireNumber) = true := by
    cases hvalue : params.fiatAmount with
    | none => rfl
    | some n =>
      rw [Option.elim_some, wireNumber_of_finite (hprices.fiat n hvalue)]
      exact hprices.fiat n hvalue
  have hfee : isNumber (wireNumber config.defaultPlatformFeeBps) = true := by
    rw [wireNumber_of_finite config.fee_finite]
    rfl
  have hexpiry : isNumberWith (fun n => 0 < n) (wireNumber config.defaultExpirySeconds)
      = true := by
    rw [wireNumber_of_finite config.expiry_finite]
    exact decide_eq_true config.expiry_pos
  have hcreated : isNumber (wireNumber now) = true := by
    rw [wireNumber_of_finite hnow]
    rfl
  exact ⟨rfl, rfl, rfl, rfl, rfl, rfl, rfl, hcommunity, hdelivery, hfulfillment, rfl, rfl, hparent,
    hunits, hseller, rfl, Bool.or_eq_true_iff.mpr (Or.inr hseller), rfl, rfl, rfl, hamount, hfiat,
    hsound.fiatCurrency, hsound.premiumBps, rfl, rfl, hfee, rfl, hexpiry, hcreated⟩

/-! ### The event -/

def purchaseEvent (config : CreateConfig) (escrowId : String) (signed : NostrEvent)
    (params : ChildCreateParams) : ParsedEscrowEvent where
  raw := { signed with tags := childTags escrowId params }
  payload := .create (readCreate (childContent config signed.pubkey signed.createdAt params))
  escrowId
  prevEventId := none
  chamaParent := none
  chamaWitness := none
  chamaCycle := none

variable {signed : NostrEvent}

theorem chamaCreateError_childContent (hcategory : params.category = "marketplace")
    (id author : String) (time : JsNumber) (view : Option CircleView) (witness : Option ShareView)
    (cycle : Option ChamaCycleContext) (sim : Bool) :
    chamaCreateError host (readCreate (childContent config pubkey now params)) id author time view
      witness cycle sim = .ok none := by
  have hplain : isPlainCreate (readCreate (childContent config pubkey now params)) = true := by
    have hread : (readCreate (childContent config pubkey now params)).category = params.category :=
      rfl
    rw [isPlainCreate, hread, hcategory]
    rfl
  rw [chamaCreateError, if_pos hplain]

theorem parse_purchase (hid : escrowId ≠ "")
    (hcreator : creatorMatchesEscrowId escrowId signed.pubkey = true)
    (hcategory : params.category = "marketplace") :
    parseEscrowEvent host { signed with tags := childTags escrowId params }
        EscrowEventKind.create.number
        (.ok (childContent config signed.pubkey signed.createdAt params)) {} = .ok e ↔
      validateCreatePayload (childContent config signed.pubkey signed.createdAt params) = true ∧
        purchaseEvent config escrowId signed params = e := by
  have hkind : EscrowEventKind.all.find? (fun kind => kind.number = EscrowEventKind.create.number)
      = some .create := rfl
  have htag : ((childTags escrowId params).find? fun tag => tag[0]? = some "d").bind
      (fun tag => tag[1]?) = some escrowId := rfl
  have hdecode : decodeContent .create
      (.ok (childContent config signed.pubkey signed.createdAt params)) =
        if validateCreatePayload (childContent config signed.pubkey signed.createdAt params) = true
        then .ok (.ok (.create
          (readCreate (childContent config signed.pubkey signed.createdAt params))))
        else .ok (.error (.invalidPayload,
          s!"Payload for {EscrowEventKind.create.typeText} failed structural validation")) := by
    have htype : (childContent config signed.pubkey signed.createdAt params).get "type"
        = .ok (.str EscrowEventKind.create.typeText) := rfl
    rw [decodeContent, ok_bind, htype, ok_bind, if_neg (by simp [JsValue.isText]), validatePayload,
      ok_bind]
    cases validateCreatePayload (childContent config signed.pubkey signed.createdAt params) <;> rfl
  rw [parseEscrowEvent, hkind]
  dsimp only
  rw [htag, truthyKey_some hid]
  have hlaw : chamaCreateError host
      (readCreate (childContent config signed.pubkey signed.createdAt params)) escrowId
      signed.pubkey signed.createdAt none none none
      (eventIsSim { signed with tags := childTags escrowId params }) = .ok none :=
    chamaCreateError_childContent hcategory _ _ _ _ _ _ _
  simp only [bind_eq_ok, guardErr_eq_ok, under_eq_ok, pure_eq_ok, js_eq_ok, guardProblem_eq_ok,
    parsePayload, hdecode]
  constructor
  · rintro ⟨_, -, payload, hpayload, law, -, _, -, rfl⟩
    split_ifs at hpayload with hvalid
    obtain rfl := Except.ok.inj hpayload
    exact ⟨hvalid, rfl⟩
  · rintro ⟨hvalid, rfl⟩
    refine ⟨(), by simp [hcreator], _, by rw [if_pos hvalid], none, ?_, (), rfl, rfl⟩
    rw [parsedLaw, bind_eq_ok]
    exact ⟨none, hlaw, rfl⟩

/-! ### The order -/

theorem units_finite (hsound : SoundParams params) : params.claimedQuantity.isFinite = true := by
  have hinteger := hsound.units.1
  cases hvalue : params.claimedQuantity with
  | fin q => rfl
  | _ => rw [hvalue] at hinteger; cases hinteger

theorem handleCreate_purchase (hsound : SoundParams params) (hprices : FinitePrices params)
    (hcreator : creatorMatchesEscrowId escrowId signed.pubkey = true) :
    (∃ child, handleCreate host (purchaseEvent config escrowId signed params)
        (readCreate (childContent config signed.pubkey signed.createdAt params)) = .ok child) ↔
      params.mintUrl ≠ "" := by
  constructor
  · rintro ⟨child, hchild⟩ hmint
    cases (handleCreate_written hchild).funded hmint
  · intro hmint
    have hamount : (readCreate
        (childContent config signed.pubkey signed.createdAt params)).amountMsats =
          params.amountMsats := by
      change (wireNumber params.amountMsats).number?.getD .nan = _
      rw [wireNumber_of_finite hprices.amount]
      rfl
    have hexpiry : (readCreate
        (childContent config signed.pubkey signed.createdAt params)).expirySeconds =
          config.defaultExpirySeconds := by
      change (wireNumber config.defaultExpirySeconds).number?.getD .nan = _
      rw [wireNumber_of_finite config.expiry_finite]
      rfl
    obtain ⟨methods, hmethods⟩ : ∃ cleaned, normalizePaymentMethods (readCreate
        (childContent config signed.pubkey signed.createdAt params)).paymentMethods =
          .ok cleaned := by
      rw [normalizePaymentMethods_ok_iff]
      change MethodList (params.paymentMethods.elim .undefined fun methods =>
        .arr (methods.map .str))
      cases params.paymentMethods with
      | none => exact Or.inl rfl
      | some methods => exact Or.inr (Or.inr ⟨methods, rfl⟩)
    simp only [handleCreate, bind_eq_ok, pure_eq_ok, guardErr_eq_ok, guardNone_eq_ok, js_eq_ok]
    refine ⟨_, none, chamaCreateError_childContent hsound.category _ _ _ _ _ _ _, (), rfl, (), ?_,
      (), ?_, (), ?_, (), ?_, none, rfl, (), ?_, _, rfl, methods, hmethods, rfl⟩
    · change ¬ (!creatorMatchesEscrowId escrowId signed.pubkey) = true
      rw [hcreator]
      exact Bool.false_ne_true
    · rw [hamount, not_or]
      exact ⟨hsound.description, fun hle => JsNumber.not_lt_of_le hle hprices.pos⟩
    · exact fun hempty => hmint hempty.1
    · rw [hexpiry]
      exact fun hle => JsNumber.not_lt_of_le hle config.expiry_pos
    · exact Bool.false_ne_true

/-- The CREATE of a purchase as the reducer reads it. -/
structure OrderOf (listing : EscrowState) (q : JsNumber) (child : EscrowState) : Prop where
  parent : child.parent = some listing.id
  category : child.category = listing.category
  policy : child.chamaPolicy = none
  tranche : child.trancheChild = none
  amount : child.amountMsats = listing.amountMsats * q
  mintUrl : child.mintUrl = listing.mintUrl
  pool : child.communityArbiters = listing.communityArbiters.orFalsy (.arr [])
  seller : child.participants.seller = truthyKey listing.participants.seller
  units : childClaim child = q

theorem childClaim_of_units {s : EscrowState} (hq : s.claimedQuantity = some q)
    (hunits : q.isInteger = true ∧ 0 < q) : childClaim s = q := by
  have hcheck : (q.isInteger && decide (0 < q)) = true := by
    rw [hunits.1, decide_eq_true hunits.2]
    rfl
  rw [childClaim, hq, Option.filter_some, if_pos hcheck, Option.getD_some]

theorem orderOf_created (hparams : PurchaseParams parent q params)
    (hcategory : parent.category = "marketplace") (hprices : FinitePrices params)
    (h : handleCreate host (purchaseEvent config escrowId signed params)
      (readCreate (childContent config signed.pubkey signed.createdAt params)) = .ok child) :
    OrderOf parent q child := by
  have hborn := handleCreate_newborn rfl h
  have hwritten := handleCreate_written h
  have hseats : child.participants.seller = some params.sellerPubkey := by
    rw [hwritten.participants rfl]
    rfl
  have hquantity : child.claimedQuantity = some q := by
    rw [hwritten.claimedQuantity, ← hparams.claimedQuantity]
    change (wireNumber params.claimedQuantity).number? = _
    rw [wireNumber_of_finite (units_finite hparams.sound)]
    rfl
  have hamount : child.amountMsats = params.amountMsats := by
    rw [hborn.amountMsats]
    change (wireNumber params.amountMsats).number?.getD .nan = _
    rw [wireNumber_of_finite hprices.amount]
    rfl
  exact {
    parent := hwritten.parent.trans (congrArg some hparams.parent)
    category := hborn.category.trans (hparams.sound.category.trans hcategory.symm)
    policy := hborn.chamaPolicy
    tranche := hborn.trancheChild
    amount := hamount.trans hparams.amountMsats
    mintUrl := hwritten.mintUrl.trans hparams.mintUrl
    pool := hwritten.pool.trans (congrArg (JsValue.orFalsy · (.arr [])) hparams.pool)
    seller := hseats.trans hparams.seller.symm
    units := childClaim_of_units hquantity (hparams.claimedQuantity ▸ hparams.sound.units) }

theorem OrderOf.poolText (h : OrderOf parent q child) {text : String}
    (htext : poolText parent.communityArbiters = .ok text) :
    poolText child.communityArbiters = .ok text := by
  have hsame : parent.communityArbiters.orFalsy (.arr []) = parent.communityArbiters := by
    cases hpool : parent.communityArbiters with
    | arr keys => rfl
    | _ =>
      rw [hpool] at htext
      cases htext
  rw [h.pool, hsame]
  exact htext

theorem OrderOf.mismatches (h : OrderOf parent q child)
    (hseller : (truthyKey parent.participants.seller).isSome)
    (hfinite : (parent.amountMsats * q).isFinite = true) :
    storefrontChildMismatches parent child = .ok [] ↔
      ∃ text, ChamaEscrow.poolText parent.communityArbiters = .ok text := by
  have hjudged : judgedElsewhere parent child = false := by
    rw [judgedElsewhere, h.policy, h.tranche]
    rfl
  have hopen : ¬ (child.parent ≠ some parent.id ∨ judgedElsewhere parent child = true) := by
    rw [hjudged]
    exact not_or.mpr ⟨not_not.mpr h.parent, Bool.false_ne_true⟩
  rw [storefrontChildMismatches, if_neg hopen]
  simp only [bind_eq_ok]
  constructor
  · rintro ⟨childPool, -, text, htext, -⟩
    exact ⟨text, htext⟩
  · rintro ⟨text, htext⟩
    refine ⟨text, h.poolText htext, text, htext, pure_eq_ok.mpr ?_⟩
    have hprice : child.amountMsats.strictEq (parent.amountMsats * childClaim child) = true := by
      rw [h.units, h.amount]
      cases hvalue : parent.amountMsats * q with
      | fin value => simp [JsNumber.strictEq]
      | _ =>
        rw [hvalue] at hfinite
        cases hfinite
    obtain ⟨seller, hsome⟩ := Option.isSome_iff_exists.mp hseller
    simp only [h.policy, h.tranche, h.category, hprice, h.mintUrl, h.seller, hsome]
    simp

/-! ### Agreement -/

/-- The condition on a listing and a number of units: a marketplace listing with a seller, a mint
and a pool that is a list of texts, whose prices for so many units are still numbers. -/
structure Orderable (listing : EscrowState) (q : JsNumber) : Prop where
  category : listing.category = "marketplace"
  seller : (truthyKey listing.participants.seller).isSome
  mint : listing.mintUrl ≠ ""
  amount : (listing.amountMsats * q).isFinite = true
  fiat : ∀ n, (createField listing CreatePayload.fiatAmount).number? = some n →
    (n * q).isFinite = true
  pool : ∃ text, poolText listing.communityArbiters = .ok text

/-- The purchase is accepted, its terms are the listing's, and it claims exactly its units from
then on. -/
def Sells (host : Host) (config : CreateConfig) (listing : EscrowState) (q : JsNumber)
    (escrowId : String) (signed : NostrEvent) : Prop :=
  ∃ child, purchaseFromListing host config listing q escrowId signed = .ok child ∧
    storefrontChildMismatches listing child = .ok [] ∧
    ∀ later, Reachable (applyToState host) (fun s => s = child) later → childClaim later = q

theorem purchaseFromListing_eq_ok (hid : escrowId ≠ "")
    (hcreator : creatorMatchesEscrowId escrowId signed.pubkey = true) :
    purchaseFromListing host config parent q escrowId signed = .ok child ↔
      ∃ params, buildChildCreateParams parent q = .ok params ∧
        validateCreatePayload (childContent config signed.pubkey signed.createdAt params) = true ∧
        handleCreate host (purchaseEvent config escrowId signed params)
          (readCreate (childContent config signed.pubkey signed.createdAt params))
            = .ok child := by
  simp only [purchaseFromListing, bind_eq_ok, js_eq_ok]
  refine exists_congr fun params => and_congr_right fun hbuild => ?_
  obtain ⟨-, -, hcategory⟩ := seller_of_build hbuild
  simp only [parse_purchase hid hcreator hcategory, applyEvent_none]
  constructor
  · rintro ⟨_, ⟨hvalid, rfl⟩, p, hp, hchild⟩
    obtain rfl := EscrowPayload.create.inj hp
    exact ⟨hvalid, hchild⟩
  · rintro ⟨hvalid, hchild⟩
    exact ⟨_, ⟨hvalid, rfl⟩, _, rfl, hchild⟩

theorem pos_of_scaled {amount : JsNumber} (h : AmountLaw amount)
    (hunits : q.isInteger = true ∧ 0 < q) : 0 < amount * q := by
  obtain ⟨hinteger, hpos⟩ := hunits
  cases q with
  | fin r =>
    rw [JsNumber.zero_eq_fin, JsNumber.fin_lt_fin] at hpos
    have hden : r.den = 1 := of_decide_eq_true hinteger
    have hone : 1 ≤ r := by
      have hnum : (r.num : ℚ) = r := Rat.den_eq_one_iff r |>.mp hden
      rw [← hnum] at hpos ⊢
      exact_mod_cast hpos
    cases amount with
    | fin a =>
      have ha := h.pos
      rw [JsNumber.zero_eq_fin, JsNumber.fin_lt_fin] at ha
      have hle : JsNumber.fin a ≤ JsNumber.ofRat (a * r) :=
        JsNumber.fin_le_ofRat h.double (le_mul_of_one_le_right ha.le hone)
      exact JsNumber.lt_of_lt_of_le h.pos hle
    | posInf =>
      have hinf : JsNumber.posInf * .fin r = .posInf := if_pos hpos
      rw [hinf]
      exact h.pos
    | nan => cases h.pos
    | negInf => cases h.pos
  | _ => cases hinteger

/-- The writer, the reducer and the checker agree on a purchase if and only if the listing is
orderable. -/
theorem purchase_agrees {host : Host} {config : CreateConfig} {listing : EscrowState}
    {q : JsNumber} {escrowId : String} {signed : NostrEvent} (hlisting : ParsedRuns host listing)
    (hstock : isParentStorefront listing = true) (hunits : q.isInteger = true ∧ 0 < q)
    (hid : escrowId ≠ "") (hcreator : creatorMatchesEscrowId escrowId signed.pubkey = true)
    (hnow : signed.createdAt.isFinite = true) :
    Sells host config listing q escrowId signed ↔ Orderable listing q := by
  have hsound := SoundListing.reached hlisting
  have hroot : listing.parent = none := by
    rw [isParentStorefront, Bool.and_eq_true] at hstock
    exact Option.isNone_iff_eq_none.mp hstock.2
  constructor
  · rintro ⟨child, hpurchase, hmatch, -⟩
    obtain ⟨params, hbuild, hvalid, hchild⟩ := (purchaseFromListing_eq_ok hid hcreator).mp hpurchase
    obtain ⟨hcategory, hseller, -⟩ := seller_of_build hbuild
    obtain ⟨_, hsame, hparams⟩ := exists_params hsound hunits hroot hcategory hseller
    obtain rfl := Except.ok.inj (hbuild.symm.trans hsame)
    have hprices := finitePrices_of_valid hvalid
    have hamount := hparams.amountMsats ▸ hprices.amount
    have horder := orderOf_created hparams hcategory hprices hchild
    have hmint := (handleCreate_purchase hparams.sound hprices hcreator).mp ⟨child, hchild⟩
    refine ⟨hcategory, hseller, hparams.mintUrl ▸ hmint, hamount, fun n hn => ?_,
      (horder.mismatches hseller hamount).mp hmatch⟩
    exact hprices.fiat _ (by rw [hparams.fiatAmount, hn, Option.map_some])
  · intro h
    obtain ⟨params, hbuild, hparams⟩ := exists_params hsound hunits hroot h.category h.seller
    have hprices : FinitePrices params := by
      refine ⟨hparams.amountMsats ▸ h.amount, ?_, fun n hn => ?_⟩
      · rw [hparams.amountMsats]
        exact pos_of_scaled (FeeLaw.reached hlisting).amount hunits
      · rw [hparams.fiatAmount] at hn
        obtain ⟨unit, hunit, rfl⟩ := Option.map_eq_some_iff.mp hn
        exact h.fiat unit hunit
    obtain ⟨child, hchild⟩ := (handleCreate_purchase hparams.sound hprices hcreator).mpr
      (hparams.mintUrl ▸ h.mint)
    have horder := orderOf_created hparams h.category hprices hchild
    refine ⟨child, (purchaseFromListing_eq_ok hid hcreator).mpr ⟨params, hbuild,
      valid_childContent hparams.sound hprices hnow, hchild⟩,
      (horder.mismatches h.seller h.amount).mpr h.pool, fun later hlater => ?_⟩
    -- What a trade claims is a term of it.
    refine Reachable.invariant (I := fun s : EscrowState => childClaim s = q)
      (fun s (hs : s = child) => hs ▸ horder.units) (fun s e s' hs he => ?_) hlater
    rw [childClaim, congrArg TradeTerms.claimedQuantity (applyToState_stepped he).terms]
    exact hs

/-! ### A sample shop -/

def shopContent (rail : List (String × JsValue)) : JsValue := .obj (rail ++ [
  ("type", .str "escrow:create"),
  ("description", .str "beans"),
  ("amountMsats", .num 1000),
  ("category", .str "marketplace"),
  ("platformFeeBps", .num 0),
  ("platformFeePubkey", .str (hexKey 'd')),
  ("expirySeconds", .num 3600),
  ("communityArbiters", .arr [.str (hexKey 'c')]),
  ("stock", .num 2),
  ("createdAt", .num 1800000000)])

def parsedShop (rail : List (String × JsValue)) : Option EscrowState :=
  match parseEscrowEvent silentHost greedyCreate EscrowEventKind.create.number
    (.ok (shopContent rail)) {} with
  | .ok create =>
    match create.payload with
    | .create p => if p.amountMsats.isDouble then liveTrade silentHost create [] else none
    | _ => none
  | .error _ => none

theorem parsedShop_reached {rail : List (String × JsValue)} (h : parsedShop rail = some s) :
    ParsedRuns silentHost s := by
  unfold parsedShop at h
  split at h
  · rename_i create hparse
    split at h
    · rename_i p hp
      split_ifs at h with hdouble
      exact parsedRuns_of_liveTrade ⟨_, _, _, _, hparse⟩ hp hdouble h
    · cases h
  · cases h

def ecashRail : List (String × JsValue) := [("mintUrl", .str "https://mint")]

def onchainRail : List (String × JsValue) :=
  [("mintUrl", .str ""), ("escrowMode", .str "onchain"), ("onchainNetwork", .str "mainnet"),
    ("escrowXonly", .str (hexKey 'a'))]

def plainConfig : CreateConfig where
  defaultPlatformFeeBps := 0
  platformFeePubkey := hexKey 'd'
  defaultExpirySeconds := 86400
  fee_finite := by decide
  expiry_finite := by decide
  expiry_pos := by decide

theorem sampleBuyer_ne : hexKey 'b' ≠ "" := hexKey_ne 'b'

def sampleBuyer : NostrEvent where
  id := hexKey '7'
  pubkey := hexKey 'b'
  createdAt := 1800000040
  tags := []
  id_ne := hexKey_ne '7'
  pubkey_ne := sampleBuyer_ne
  createdAt_ne := JsNumber.ofInt_ne_nan 1800000040

/-- An ecash listing sells one of its two units. -/
theorem ecash_shop_sells : ∃ listing, ParsedRuns silentHost listing ∧
    isParentStorefront listing = true ∧ Sells silentHost plainConfig listing 1 "sm_order"
      sampleBuyer := by
  have hrun : ((parsedShop ecashRail).any fun listing =>
      isParentStorefront listing && listing.category = "marketplace"
        && (truthyKey listing.participants.seller).isSome && listing.mintUrl ≠ ""
        && (listing.amountMsats * 1).isFinite
        && (createField listing CreatePayload.fiatAmount).number? = none
        && (poolText listing.communityArbiters).toOption.isSome) = true := by
    decide +kernel
  obtain ⟨listing, hlisting, h⟩ := (Option.any_eq_true _ _).mp hrun
  simp only [Bool.and_eq_true, decide_eq_true_eq] at h
  obtain ⟨⟨⟨⟨⟨⟨hstock, hcategory⟩, hseller⟩, hmint⟩, hamount⟩, hfiat⟩, hpool⟩ := h
  obtain ⟨text, htext⟩ := Option.isSome_iff_exists.mp hpool
  refine ⟨listing, parsedShop_reached hlisting, hstock, ?_⟩
  refine (purchase_agrees (parsedShop_reached hlisting) hstock (by decide) (by decide)
    (by decide +kernel) (by decide)).mpr ⟨hcategory, hseller, hmint, hamount, fun n hn => ?_, text,
      toOption_eq_some.mp htext⟩
  rw [hfiat] at hn
  cases hn

/-- An on-chain listing of two units sells none: the order does not say that it is on chain. -/
theorem onchain_shop_rejects : ∃ listing, ParsedRuns silentHost listing ∧
    isParentStorefront listing = true ∧
    (remainingStock listing [] 1800000040).toOption = some 2 ∧
    ¬ Sells silentHost plainConfig listing 1 "sm_order" sampleBuyer := by
  have hrun : ((parsedShop onchainRail).any fun listing =>
      isParentStorefront listing
        && (remainingStock listing [] 1800000040).toOption = some 2
        && (match purchaseFromListing silentHost plainConfig listing 1 "sm_order" sampleBuyer with
          | .error (.reject problem) => problem = ⟨.invalidCreate,
            "CREATE requires a mint URL / federation invite", some (hexKey '7')⟩
          | _ => false)) = true := by
    decide +kernel
  obtain ⟨listing, hlisting, h⟩ := (Option.any_eq_true _ _).mp hrun
  simp only [Bool.and_eq_true, decide_eq_true_eq] at h
  obtain ⟨⟨hstock, hremaining⟩, hrejected⟩ := h
  refine ⟨listing, parsedShop_reached hlisting, hstock, hremaining, ?_⟩
  rintro ⟨child, hchild, -⟩
  rw [hchild] at hrejected
  cases hrejected

end ChamaEscrow
