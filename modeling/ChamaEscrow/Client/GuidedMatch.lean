import ChamaEscrow.Engine.State
import ChamaEscrow.Library.Grouped
import ChamaEscrow.Library.StableSort
import Mathlib.Algebra.Order.Floor.Ring
import Mathlib.Algebra.Order.Ring.Rat

/-!
# The order of guided matches

`guided/match-listings.ts`: listings are matched against an intent, scored, and sorted by their
total, by their unit price where two quotes are in one currency, and by their id.  A quote in
another currency between two in one currency breaks that order: it can come before the cheaper one
and after the dearer one by its id (`Crossing`).  `guided_order_iff` says that this, or ids that
`localeCompare` does not tell apart, is when the matches depend on the order of the listings.

Amounts and prices are exact rationals, and what a listing is refused for on its own account
(`joinRejection`) is any rule.
-/

namespace ChamaEscrow

open Js Library

/-- `localeCompare`, which may not tell two texts apart. -/
structure Collation where
  le : String → String → Bool
  total : ∀ a b, le a b = true ∨ le b a = true
  trans : ∀ a b c, le a b = true → le b c = true → le a c = true

def Collation.localeCompare (collation : Collation) (a b : String) : ℚ :=
  if collation.le a b then (if collation.le b a then 0 else -1) else 1

inductive GuidedMatchRejectionCode
  | unsupportedDirection
  | notP2pListing
  | notOpen
  | childOrder
  | expired
  | selfListing
  | noArbiterPool
  | noSeller
  | reserved
  | outOfStock
  | communityMismatch
  | federationMismatch
  | paymentRailMismatch
  | amountMismatch
  | fiatQuoteRequired
  | fiatCurrencyMismatch
  | overMaxFiat

inductive GuidedDirection
  | buySats
  | sellSats
  deriving DecidableEq

inductive GuidedMatchReason
  | availableNow
  | exactAmount
  | amountInRange
  | compatiblePaymentRail
  | sameCommunity
  | sameFederation
  | lowestFiatQuote
  | positiveTradeHistory
  deriving DecidableEq

structure GuidedTradeIntent where
  direction : GuidedDirection
  amountSats : ℕ
  paymentRails : List String
  community : Option String := none
  mintUrl : Option String := none
  fiatCurrency : Option String := none
  maxFiatAmount : Option ℚ := none
  amountSats_pos : 0 < amountSats := by decide

structure GuidedMenuItem where
  id : String
  amountMsats : ℚ
  kind : Option MenuItemKind := none
  minAmountMsats : Option ℚ := none
  maxAmountMsats : Option ℚ := none
  fiatAmount : Option ℚ := none
  fiatCurrency : Option String := none

structure GuidedListing where
  id : String
  category : String
  escrowMode : EscrowMode
  amountMsats : ℚ
  paymentMethods : List String
  seller : String
  items : List GuidedMenuItem := []
  fiatAmount : Option ℚ := none
  fiatCurrency : Option String := none

structure AggregateRatings where
  count : ℚ
  positive : ℚ
  negative : ℚ

structure GuidedListingInput where
  listing : GuidedListing
  ratings : Option AggregateRatings := none
  availableUnits : Option ℚ := none

structure FiatQuote where
  amount : ℚ
  currency : String

/-- What an eligible listing and a candidate have in common. -/
structure GuidedOffer where
  listing : GuidedListing
  sellerPubkey : String
  amountSats : ℕ
  paymentRail : String
  sourceMenuItem : Option GuidedMenuItem
  fiatQuote : Option FiatQuote
  ratings : Option AggregateRatings
  amountSats_pos : 0 < amountSats

structure Eligible extends GuidedOffer where
  amountReason : GuidedMatchReason

/-- What the checks of a listing find. -/
structure EligibleTerms where
  paymentRail : String
  sourceMenuItem : Option GuidedMenuItem
  fiatQuote : Option FiatQuote
  amountReason : GuidedMatchReason

structure GuidedMatchScore where
  availability : ℤ
  amountFit : ℤ
  paymentRail : ℤ
  community : ℤ
  federation : ℤ
  price : ℤ
  reputation : ℤ
  total : ℤ

structure GuidedMatchCandidate extends GuidedOffer where
  reasons : List GuidedMatchReason
  score : GuidedMatchScore

/-! ### Eligible listings -/

def isCurrencyCode (s : String) : Bool := s.toList.length = 3 && s.toList.all Char.isAlpha

def fiatQuoteFor (item : Option GuidedMenuItem) (listing : GuidedListing) : Option FiatQuote :=
  let amount := (item.bind GuidedMenuItem.fiatAmount).or listing.fiatAmount
  let currency := (item.bind GuidedMenuItem.fiatCurrency).or listing.fiatCurrency
  match amount, currency with
  | some amount, some currency =>
    if 0 < amount ∧ isCurrencyCode currency = true then
      some { amount, currency := String.ofList (currency.toList.map Char.toUpper) }
    else none
  | _, _ => none

def quotedFirst (collation : Collation) (a b : GuidedMenuItem) : Bool :=
  match a.fiatAmount, b.fiatAmount with
  | some p, some q => p < q || (p = q && collation.le a.id b.id)
  | some _, none => true
  | none, some _ => false
  | none, none => collation.le a.id b.id

def matchingMenuItem (collation : Collation) (items : List GuidedMenuItem) (amountMsats : ℚ) :
    Option GuidedMenuItem :=
  let matching := items.filter fun item =>
    match item.kind with
    | some .bill => item.amountMsats = amountMsats
    | some .exchangeBracket =>
      item.minAmountMsats.getD item.amountMsats ≤ amountMsats
        && amountMsats ≤ item.maxAmountMsats.getD item.amountMsats
    | _ => false
  -- This comparator orders every list, so every sort is the stable one.
  (matching.mergeSort (quotedFirst collation)).head?

section Matching

variable (collation : Collation)
  (joinRejection : GuidedListingInput → Option GuidedMatchRejectionCode)

def eligibleTerms (intent : GuidedTradeIntent) (input : GuidedListingInput) :
    Except GuidedMatchRejectionCode EligibleTerms := do
  let listing := input.listing
  let amountMsats : ℚ := intent.amountSats * 1000
  if listing.category ≠ "p2p-trade" ∧ listing.category ≠ "bill-pay" then throw .notP2pListing
  if let some code := joinRejection input then throw code
  let listingRails :=
    (listing.paymentMethods.map fun rail => toLowerCase (trim rail)).filter (· ≠ "")
  let some paymentRail := intent.paymentRails.find? (listingRails.contains ·)
    | throw .paymentRailMismatch
  let mut sourceMenuItem := none
  let mut amountReason := GuidedMatchReason.exactAmount
  if listing.items ≠ [] then
    let some item := matchingMenuItem collation listing.items amountMsats
      | throw .amountMismatch
    sourceMenuItem := some item
    if item.minAmountMsats.getD item.amountMsats ≠ amountMsats
        ∨ item.maxAmountMsats.getD item.amountMsats ≠ amountMsats then
      amountReason := .amountInRange
  else if listing.amountMsats ≠ amountMsats then throw .amountMismatch
  let fiatQuote := fiatQuoteFor sourceMenuItem listing
  if let some maxFiatAmount := intent.maxFiatAmount then
    let some quote := fiatQuote | throw .fiatQuoteRequired
    if intent.fiatCurrency ≠ some quote.currency then throw .fiatCurrencyMismatch
    if maxFiatAmount < quote.amount then throw .overMaxFiat
  return { paymentRail, sourceMenuItem, fiatQuote, amountReason }

def eligibility (intent : GuidedTradeIntent) (input : GuidedListingInput) :
    Except GuidedMatchRejectionCode Eligible :=
  (eligibleTerms collation joinRejection intent input).map fun terms =>
    { terms with
      listing := input.listing
      sellerPubkey := input.listing.seller
      amountSats := intent.amountSats
      ratings := input.ratings
      amountSats_pos := intent.amountSats_pos }

def eligibleListings (intent : GuidedTradeIntent) (inputs : List GuidedListingInput) :
    List Eligible :=
  inputs.filterMap fun input => (eligibility collation joinRejection intent input).toOption

end Matching

/-! ### Scores -/

def mathRound (x : ℚ) : ℤ := ⌊x + 1 / 2⌋

def reputationScore : Option AggregateRatings → ℤ
  | none => 0
  | some ratings =>
    if ratings.count ≤ 0 then 0
    else
      let verifiedCount := max 0 (min ratings.count (ratings.positive + ratings.negative))
      if verifiedCount ≤ 0 then 0
      else mathRound (200 * (ratings.positive / verifiedCount) * (min verifiedCount 20 / 20))

def quotedOffers (offers : List GuidedOffer) : List (GuidedOffer × FiatQuote) :=
  offers.filterMap fun o => o.fiatQuote.map fun quote => (o, quote)

def unitPrice (o : GuidedOffer × FiatQuote) : ℚ := o.2.amount / o.1.amountSats

def groupScore (group : List (GuidedOffer × FiatQuote)) (o : GuidedOffer × FiatQuote) : ℤ :=
  let prices := group.map unitPrice
  let low := prices.min?.getD 0
  let high := prices.max?.getD 0
  if high = low then 300 else mathRound (300 * (high - unitPrice o) / (high - low))

def priceScores (offers : List GuidedOffer) : OrderedMap String ℤ :=
  let groups := OrderedMap.group (fun o : GuidedOffer × FiatQuote => o.2.currency)
    (quotedOffers offers)
  OrderedMap.empty.setAll <| groups.values.flatMap fun group =>
    group.map fun o => (o.1.listing.id, groupScore group o)

def candidateScore (candidate : Eligible) (intent : GuidedTradeIntent) (price : ℤ) :
    GuidedMatchScore :=
  let amountFit := if candidate.amountReason = .exactAmount then 150 else 100
  let community := if (truthyKey intent.community).isSome then 75 else 0
  let federation :=
    if (truthyKey intent.mintUrl).isSome ∧ candidate.listing.escrowMode ≠ .onchain then 75 else 0
  let reputation := reputationScore candidate.ratings
  { availability := 100
    amountFit
    paymentRail := 100
    community
    federation
    price
    reputation
    total := 100 + amountFit + 100 + community + federation + price + reputation }

def scoredCandidate (intent : GuidedTradeIntent) (prices : OrderedMap String ℤ)
    (candidate : Eligible) : GuidedMatchCandidate :=
  let score := candidateScore candidate intent ((prices.get candidate.listing.id).getD 0)
  { candidate with
    reasons := [.availableNow, candidate.amountReason, .compatiblePaymentRail]
      ++ (if (truthyKey intent.community).isSome then [.sameCommunity] else [])
      ++ (if (truthyKey intent.mintUrl).isSome ∧ candidate.listing.escrowMode ≠ .onchain
          then [.sameFederation] else [])
      ++ (if score.price = 300 ∧ candidate.fiatQuote.isSome then [.lowestFiatQuote] else [])
      ++ (if 0 < score.reputation then [.positiveTradeHistory] else [])
    score }

/-- The candidate of `rankGuidedCandidates`, with the scores that depend on the others. -/
def rescoredCandidate (prices : OrderedMap String ℤ) (candidate : GuidedMatchCandidate) :
    GuidedMatchCandidate :=
  let old := candidate.score
  let price := (prices.get candidate.listing.id).getD 0
  let reputation := reputationScore candidate.ratings
  { candidate with
    reasons := (candidate.reasons.filter fun reason =>
        reason ≠ .lowestFiatQuote && reason ≠ .positiveTradeHistory)
      ++ (if price = 300 ∧ candidate.fiatQuote.isSome then [.lowestFiatQuote] else [])
      ++ (if 0 < reputation then [.positiveTradeHistory] else [])
    score := { old with
      price
      reputation
      total := old.total - old.price - old.reputation + price + reputation } }

/-! ### The order -/

/-- The difference of the unit prices of two quotes in one currency.  Without quotes it is `NaN`,
which decides nothing. -/
def priceDifference (a b : GuidedMatchCandidate) : ℚ :=
  match a.fiatQuote, b.fiatQuote with
  | some p, some q =>
    if p.currency = q.currency then p.amount / a.amountSats - q.amount / b.amountSats else 0
  | _, _ => 0

def compareCandidates (collation : Collation) (a b : GuidedMatchCandidate) : ℚ :=
  if b.score.total - a.score.total ≠ 0 then (b.score.total - a.score.total : ℤ)
  else if priceDifference a b ≠ 0 then priceDifference a b
  else collation.localeCompare a.listing.id b.listing.id

def matchesFirst (collation : Collation) (a b : GuidedMatchCandidate) : Bool :=
  compareCandidates collation a b ≤ 0

/-- `Math.max(0, Math.min(options.limit ?? 3, 20))`, as `slice` takes it. -/
def matchLimit (limit : Option ℚ) : ℕ := ⌊max 0 (min (limit.getD 3) 20)⌋.toNat

section Matching

variable (engine : StableSort) (collation : Collation)
  (joinRejection : GuidedListingInput → Option GuidedMatchRejectionCode)

structure GuidedMatchResult where
  candidates : List GuidedMatchCandidate
  rejected : List (String × GuidedMatchRejectionCode)

/-- The candidates of `matchGuidedListings` before they are sorted. -/
def scoredListings (intent : GuidedTradeIntent) (inputs : List GuidedListingInput) :
    List GuidedMatchCandidate :=
  let eligible := eligibleListings collation joinRejection intent inputs
  eligible.map (scoredCandidate intent (priceScores (eligible.map Eligible.toGuidedOffer)))

def matchGuidedListings (intent : GuidedTradeIntent) (inputs : List GuidedListingInput)
    (limit : Option ℚ) : GuidedMatchResult :=
  if intent.direction ≠ .buySats then
    { candidates := []
      rejected := inputs.map fun input => (input.listing.id, .unsupportedDirection) }
  else
    { candidates := (engine.sort (matchesFirst collation)
        (scoredListings collation joinRejection intent inputs)).take (matchLimit limit)
      rejected := inputs.filterMap fun input =>
        match eligibility collation joinRejection intent input with
        | .ok _ => none
        | .error code => some (input.listing.id, code) }

/-- The candidates of `rankGuidedCandidates` before they are sorted. -/
def rescored (candidates : List GuidedMatchCandidate) : List GuidedMatchCandidate :=
  candidates.map
    (rescoredCandidate (priceScores (candidates.map GuidedMatchCandidate.toGuidedOffer)))

def rankGuidedCandidates (candidates : List GuidedMatchCandidate) : List GuidedMatchCandidate :=
  engine.sort (matchesFirst collation) (rescored candidates)

end Matching

/-! ### Scores do not depend on the order -/

section Scores

variable {offers offers' : List GuidedOffer}

theorem mem_quotedOffers {x : GuidedOffer × FiatQuote} :
    x ∈ quotedOffers offers ↔ x.1 ∈ offers ∧ x.1.fiatQuote = some x.2 := by
  unfold quotedOffers
  rw [List.mem_filterMap]
  constructor
  · rintro ⟨o, ho, hx⟩
    obtain ⟨quote, hquote, rfl⟩ := Option.map_eq_some_iff.mp hx
    exact ⟨ho, hquote⟩
  · rintro ⟨ho, hquote⟩
    exact ⟨x.1, ho, by rw [hquote]; rfl⟩

def priceScore (offers : List GuidedOffer) (o : GuidedOffer) : Option ℤ :=
  o.fiatQuote.map fun quote =>
    groupScore ((quotedOffers offers).filter fun x => x.2.currency = quote.currency) (o, quote)

theorem get_priceScores (hids : (offers.map (·.listing.id)).Nodup) {o : GuidedOffer}
    (ho : o ∈ offers) : (priceScores offers).get o.listing.id = priceScore offers o := by
  unfold priceScores
  set groups := OrderedMap.group (fun o : GuidedOffer × FiatQuote => o.2.currency)
    (quotedOffers offers) with hgroups
  set scores := groups.values.flatMap fun group =>
    group.map fun o => (o.1.listing.id, groupScore group o) with hscores
  -- The scores of an id are those of its offer, in the group of its currency.
  have hscore : ∀ score, (o.listing.id, score) ∈ scores → priceScore offers o = some score := by
    intro score hmem
    obtain ⟨group, hgroup, hmem⟩ := List.mem_flatMap.mp hmem
    obtain ⟨x, hx, heq⟩ := List.mem_map.mp hmem
    obtain ⟨hid, rfl⟩ := Prod.mk.inj heq
    obtain ⟨⟨currency, group⟩, hentry, rfl⟩ := List.mem_map.mp hgroup
    have hget := (OrderedMap.get_group.mp ((OrderedMap.get_eq_some_iff ..).mpr hentry)).1
    dsimp only at hget hx ⊢
    rw [hget] at hx ⊢
    obtain ⟨hquoted, hcurrency⟩ := List.mem_filter.mp hx
    obtain ⟨hoffer, hquote⟩ := mem_quotedOffers.mp hquoted
    obtain rfl : x.1 = o := List.inj_on_of_nodup_map hids hoffer ho hid
    rw [priceScore, hquote, Option.map_some, of_decide_eq_true hcurrency]
  cases hquote : o.fiatQuote with
  | none =>
    have hnone : priceScore offers o = none := by rw [priceScore, hquote]; rfl
    rw [hnone]
    by_contra hsome
    obtain ⟨score, hget⟩ := Option.ne_none_iff_exists'.mp hsome
    rcases OrderedMap.get_setAll_cases hget with hmem | hempty
    · rw [hscore score hmem] at hnone
      cases hnone
    · cases hempty
  | some quote =>
    have hx : (o, quote) ∈ quotedOffers offers := mem_quotedOffers.mpr ⟨ho, hquote⟩
    obtain ⟨group, hgroup, hin⟩ : ∃ group, groups.get quote.currency = some group ∧
        (o, quote) ∈ group := by
      have hin : (o, quote) ∈ (quotedOffers offers).filter fun x => x.2.currency = quote.currency :=
        List.mem_filter.mpr ⟨hx, decide_eq_true rfl⟩
      exact ⟨_, OrderedMap.get_group.mpr ⟨rfl, List.ne_nil_of_mem hin⟩, hin⟩
    have hkey : o.listing.id ∈ scores.map Prod.fst := by
      refine List.mem_map.mpr ⟨(o.listing.id, groupScore group (o, quote)), ?_, rfl⟩
      have hvalue : group ∈ groups.values :=
        List.mem_map.mpr ⟨_, (OrderedMap.get_eq_some_iff ..).mp hgroup, rfl⟩
      exact List.mem_flatMap.mpr ⟨group, hvalue, List.mem_map.mpr ⟨(o, quote), hin, rfl⟩⟩
    obtain ⟨score, hget⟩ := OrderedMap.exists_get_setAll (m := OrderedMap.empty) (Or.inl hkey)
    rcases OrderedMap.get_setAll_cases hget with hmem | hempty
    · rw [hget, hscore score hmem]
    · cases hempty

theorem extreme_perm {f : List ℚ → Option ℚ} {le : ℚ → ℚ → Prop}
    (hnone : ∀ {l}, f l = none ↔ l = [])
    (hsome : ∀ {l a}, f l = some a ↔ a ∈ l ∧ ∀ b ∈ l, le a b) {l l' : List ℚ} (h : l'.Perm l) :
    f l' = f l := by
  cases hextreme : f l with
  | none =>
    rw [hnone] at hextreme ⊢
    rw [hextreme] at h
    exact h.eq_nil
  | some a =>
    rw [hsome] at hextreme ⊢
    exact ⟨h.symm.subset hextreme.1, fun b hb => hextreme.2 b (h.subset hb)⟩

theorem priceScore_perm (h : offers'.Perm offers) (o : GuidedOffer) :
    priceScore offers' o = priceScore offers o := by
  unfold priceScore groupScore
  congr 1
  funext quote
  have hgroup := ((h.filterMap fun o => o.fiatQuote.map fun quote => (o, quote)).filter
    fun x => x.2.currency = quote.currency).map unitPrice
  dsimp only [quotedOffers]
  rw [extreme_perm List.min?_eq_none_iff List.min?_eq_some_iff hgroup,
    extreme_perm List.max?_eq_none_iff List.max?_eq_some_iff hgroup]

end Scores

theorem map_priced {α β : Type} {toOffer : α → GuidedOffer} {f : OrderedMap String ℤ → α → β}
    (hf : ∀ prices prices' a,
      prices.get (toOffer a).listing.id = prices'.get (toOffer a).listing.id →
        f prices a = f prices' a)
    {l l' : List α} (hids : (l.map fun a => (toOffer a).listing.id).Nodup) (hperm : l'.Perm l) :
    l'.map (f (priceScores (l'.map toOffer))) = l'.map (f (priceScores (l.map toOffer))) := by
  have hoffers := hperm.map toOffer
  have hnodup : ((l.map toOffer).map (·.listing.id)).Nodup := by rwa [List.map_map]
  have hnodup' : ((l'.map toOffer).map (·.listing.id)).Nodup :=
    (hoffers.map (·.listing.id)).nodup_iff.mpr hnodup
  apply List.map_congr_left
  intro a ha
  apply hf
  rw [get_priceScores hnodup' (List.mem_map_of_mem ha),
    get_priceScores hnodup (List.mem_map_of_mem (hperm.subset ha)), priceScore_perm hoffers]

/-! ### When the comparator orders the candidates -/

section Order

variable {collation : Collation}

theorem localeCompare_nonpos {a b : String} :
    collation.localeCompare a b ≤ 0 ↔ collation.le a b = true := by
  unfold Collation.localeCompare
  cases collation.le a b with
  | true => cases collation.le b a <;> simp
  | false => simp

theorem priceDifference_neg (a b : GuidedMatchCandidate) :
    priceDifference b a = -priceDifference a b := by
  unfold priceDifference
  cases a.fiatQuote with
  | none => cases b.fiatQuote <;> simp
  | some p =>
    cases b.fiatQuote with
    | none => simp
    | some q =>
      dsimp only
      by_cases hcurrency : p.currency = q.currency
      · rw [if_pos hcurrency, if_pos hcurrency.symm]
        ring
      · rw [if_neg hcurrency, if_neg fun h => hcurrency h.symm, neg_zero]

theorem priceDifference_trans (a b c : GuidedMatchCandidate) :
    priceDifference a c = priceDifference a b + priceDifference b c ∨
      (priceDifference a b = 0 ∧ priceDifference b c = 0) ∨
      (priceDifference a b = 0 ∧ priceDifference a c = 0) ∨
      (priceDifference b c = 0 ∧ priceDifference a c = 0) := by
  unfold priceDifference
  rcases a.fiatQuote with - | p <;> rcases b.fiatQuote with - | q <;>
    rcases c.fiatQuote with - | r <;> try simp
  by_cases hpq : p.currency = q.currency
  · rw [if_pos hpq, hpq]
    by_cases hqr : q.currency = r.currency
    · simp [hqr]
    · simp [hqr]
  · by_cases hqr : q.currency = r.currency
    · have hpr : p.currency ≠ r.currency := fun h => hpq (h.trans hqr.symm)
      simp [hpq, hpr]
    · simp [hpq, hqr]

theorem matchesFirst_iff {a b : GuidedMatchCandidate} : matchesFirst collation a b = true ↔
    b.score.total < a.score.total ∨ (a.score.total = b.score.total ∧
      (priceDifference a b < 0 ∨
        (priceDifference a b = 0 ∧ collation.le a.listing.id b.listing.id = true))) := by
  unfold matchesFirst compareCandidates
  rw [decide_eq_true_eq]
  by_cases htotal : b.score.total - a.score.total = 0
  · rw [if_neg (not_not.mpr htotal)]
    have heq : a.score.total = b.score.total := by omega
    by_cases hprice : priceDifference a b = 0
    · rw [if_neg (not_not.mpr hprice), localeCompare_nonpos]
      simp [heq, hprice]
    · rw [if_pos hprice, le_iff_lt_or_eq]
      simp [heq, hprice]
  · rw [if_pos htotal, Int.cast_nonpos]
    omega

theorem matchesFirst_total (a b : GuidedMatchCandidate) :
    matchesFirst collation a b = true ∨ matchesFirst collation b a = true := by
  simp only [matchesFirst_iff, priceDifference_neg a b]
  rcases lt_trichotomy a.score.total b.score.total with hlt | heq | hgt
  · exact Or.inr (Or.inl hlt)
  · rcases lt_trichotomy (priceDifference a b) 0 with hneg | hzero | hpos
    · exact Or.inl (Or.inr ⟨heq, Or.inl hneg⟩)
    · rcases collation.total a.listing.id b.listing.id with hle | hle
      · exact Or.inl (Or.inr ⟨heq, Or.inr ⟨hzero, hle⟩⟩)
      · exact Or.inr (Or.inr ⟨heq.symm, Or.inr ⟨by rw [hzero, neg_zero], hle⟩⟩)
    · exact Or.inr (Or.inr ⟨heq.symm, Or.inl (by linarith)⟩)
  · exact Or.inl (Or.inl hgt)

/-- Of three candidates with one total, two are priced in one currency and the third is not, and
its id is after that of the dearer and before that of the cheaper one. -/
def Crossing (collation : Collation) (l : List GuidedMatchCandidate) : Prop :=
  ∃ cheap ∈ l, ∃ other ∈ l, ∃ dear ∈ l,
    cheap.score.total = other.score.total ∧ dear.score.total = other.score.total ∧
    priceDifference cheap dear < 0 ∧
    priceDifference cheap other = 0 ∧ priceDifference dear other = 0 ∧
    collation.le dear.listing.id other.listing.id = true ∧
    collation.le other.listing.id cheap.listing.id = true

theorem matchesFirst_trans {l : List GuidedMatchCandidate} (hcross : ¬ Crossing collation l)
    {a b c : GuidedMatchCandidate} (ha : a ∈ l) (hb : b ∈ l) (hc : c ∈ l)
    (hab : matchesFirst collation a b = true) (hbc : matchesFirst collation b c = true) :
    matchesFirst collation a c = true := by
  rw [matchesFirst_iff] at hab hbc
  rcases hab with hab | ⟨htab, hab⟩
  · rw [matchesFirst_iff]
    rcases hbc with hbc | ⟨htbc, -⟩
    · exact Or.inl (hbc.trans hab)
    · exact Or.inl (htbc ▸ hab)
  rcases hbc with hbc | ⟨htbc, hbc⟩
  · rw [matchesFirst_iff]
    exact Or.inl (htab ▸ hbc)
  by_contra hnot
  -- The candidates are `c` before `a`, of one total.
  have hca := (matchesFirst_total a c).resolve_left hnot
  rw [matchesFirst_iff] at hnot hca
  have hpca : priceDifference c a < 0 ∨
      (priceDifference c a = 0 ∧ collation.le c.listing.id a.listing.id = true) := by
    rcases hca with hlt | ⟨-, h⟩
    · omega
    · exact h
  have hids : priceDifference a c = 0 → collation.le a.listing.id c.listing.id ≠ true :=
    fun hzero hle => hnot (Or.inr ⟨htab.trans htbc, Or.inr ⟨hzero, hle⟩⟩)
  have hnab := priceDifference_neg a b
  have hnbc := priceDifference_neg b c
  have hnca := priceDifference_neg a c
  have htrans := collation.trans a.listing.id b.listing.id c.listing.id
  rcases priceDifference_trans a b c with hsum | ⟨hab0, hbc0⟩ | ⟨hab0, hac0⟩ | ⟨hbc0, hac0⟩
  · -- The prices decide all three, or none.
    rcases hab with hab | ⟨hab, hle⟩ <;> rcases hbc with hbc | ⟨hbc, hle'⟩ <;>
      rcases hpca with hca | ⟨hca, -⟩ <;> try linarith
    exact hids (by linarith) (htrans hle hle')
  · have hle := (hab.resolve_left (by linarith)).2
    have hle' := (hbc.resolve_left (by linarith)).2
    rcases hpca with hneg | ⟨hzero, -⟩
    · exact hcross ⟨c, hc, b, hb, a, ha, htbc.symm, htab, hneg, by linarith, hab0, hle, hle'⟩
    · exact hids (by linarith) (htrans hle hle')
  · have hle := (hab.resolve_left (by linarith)).2
    have hle' := (hpca.resolve_left (by linarith)).2
    rcases hbc with hneg | ⟨-, hbc⟩
    · exact hcross ⟨b, hb, a, ha, c, hc, htab.symm, (htab.trans htbc).symm, hneg, by linarith,
        by linarith, hle', hle⟩
    · exact hids hac0 (htrans hle hbc)
  · have hle := (hbc.resolve_left (by linarith)).2
    have hle' := (hpca.resolve_left (by linarith)).2
    rcases hab with hneg | ⟨-, hab⟩
    · exact hcross ⟨a, ha, c, hc, b, hb, htab.trans htbc, htbc, hneg, hac0, hbc0, hle, hle'⟩
    · exact hids hac0 (htrans hab hle)

theorem consistentOn_iff (l : List GuidedMatchCandidate) :
    ConsistentOn (matchesFirst collation) l ↔ ¬ Crossing collation l := by
  constructor
  · rintro h ⟨cheap, hcheap, other, hother, dear, hdear, htotal, htotal', hprice, hzero, hzero',
      hle, hle'⟩
    have hneg := priceDifference_neg cheap other
    have hfirst : matchesFirst collation dear cheap = true :=
      h.trans dear hdear other hother cheap hcheap
        (matchesFirst_iff.mpr (Or.inr ⟨htotal', Or.inr ⟨hzero', hle⟩⟩))
        (matchesFirst_iff.mpr (Or.inr ⟨htotal.symm, Or.inr ⟨by linarith, hle'⟩⟩))
    have hneg' := priceDifference_neg cheap dear
    rcases matchesFirst_iff.mp hfirst with hlt | ⟨-, hlt | ⟨hzero, -⟩⟩
    · omega
    · linarith
    · linarith
  · intro hcross
    exact ⟨fun a _ b _ => matchesFirst_total a b,
      fun a ha b hb c hc hab hbc => matchesFirst_trans hcross ha hb hc hab hbc⟩

/-- The comparator settles the first `n` of the candidates. -/
def Settled (collation : Collation) (l : List GuidedMatchCandidate) (n : ℕ) : Prop :=
  n = 0 ∨ (¬ Crossing collation l ∧ ∀ a ∈ l, ∀ b ∈ l, a ≠ b → matchesFirst collation a b = true →
    matchesFirst collation b a = true → n ≤ l.countP fun c => !matchesFirst collation a c)

theorem settled_iff (l : List GuidedMatchCandidate) (n : ℕ) :
    Settled collation l n ↔ OrderFree (matchesFirst collation) l n := by
  unfold Settled OrderFree
  rw [consistentOn_iff]

end Order

/-! ### The order of the matches -/

section Main

variable {collation : Collation}
  {joinRejection : GuidedListingInput → Option GuidedMatchRejectionCode}
  {intent : GuidedTradeIntent} {inputs inputs' : List GuidedListingInput}

theorem listing_of_eligibility {input : GuidedListingInput} {e : Eligible}
    (h : (eligibility collation joinRejection intent input).toOption = some e) :
    e.listing = input.listing := by
  unfold eligibility at h
  cases hterms : eligibleTerms collation joinRejection intent input with
  | error code =>
    rw [hterms] at h
    cases h
  | ok terms =>
    rw [hterms] at h
    rw [← Option.some.inj h]

theorem nodup_eligibleListings (hids : (inputs.map (·.listing.id)).Nodup) :
    ((eligibleListings collation joinRejection intent inputs).map (·.listing.id)).Nodup := by
  unfold eligibleListings
  rw [List.Nodup, List.pairwise_map] at hids ⊢
  refine List.Pairwise.filterMap _ (fun a a' hne b hb b' hb' => ?_) hids
  rw [listing_of_eligibility hb, listing_of_eligibility hb']
  exact hne

theorem nodup_scoredListings (hids : (inputs.map (·.listing.id)).Nodup) :
    (scoredListings collation joinRejection intent inputs).Nodup := by
  apply List.Nodup.of_map fun c : GuidedMatchCandidate => c.listing.id
  have h : ((eligibleListings collation joinRejection intent inputs).map (·.listing.id)).Nodup :=
    nodup_eligibleListings hids
  rw [scoredListings, List.map_map]
  exact h

theorem scoredListings_eq (hids : (inputs.map (·.listing.id)).Nodup)
    (hperm : inputs'.Perm inputs) :
    scoredListings collation joinRejection intent inputs' = inputs'.filterMap fun input =>
      (eligibility collation joinRejection intent input).toOption.map (scoredCandidate intent
        (priceScores ((eligibleListings collation joinRejection intent inputs).map
          Eligible.toGuidedOffer))) := by
  rw [← List.map_filterMap]
  refine map_priced (fun prices prices' a h => ?_) (nodup_eligibleListings hids)
    (hperm.filterMap _)
  unfold scoredCandidate
  rw [h]

theorem rescored_eq {cs cs' : List GuidedMatchCandidate} (hids : (cs.map (·.listing.id)).Nodup)
    (hperm : cs'.Perm cs) :
    rescored cs' = cs'.filterMap fun c => some (rescoredCandidate
      (priceScores (cs.map GuidedMatchCandidate.toGuidedOffer)) c) := by
  rw [List.filterMap_eq_map']
  refine map_priced (fun prices prices' a h => ?_) hids hperm
  unfold rescoredCandidate
  rw [h]

end Main

/-- For any listings and any candidates with distinct ids, the matches and the ranking are the same
for every order, whatever function sorts them, exactly if the comparator settles them. -/
theorem guided_order_iff (collation : Collation)
    (joinRejection : GuidedListingInput → Option GuidedMatchRejectionCode) :
    (∀ (intent : GuidedTradeIntent) (limit : Option ℚ) (inputs : List GuidedListingInput),
      (inputs.map (·.listing.id)).Nodup →
      ((∀ (engine : StableSort) (inputs' : List GuidedListingInput), inputs'.Perm inputs →
        (matchGuidedListings engine collation joinRejection intent inputs' limit).candidates
          = (matchGuidedListings engine collation joinRejection intent inputs limit).candidates) ↔
        intent.direction ≠ .buySats ∨
          Settled collation (scoredListings collation joinRejection intent inputs)
            (matchLimit limit))) ∧
    ∀ cs : List GuidedMatchCandidate, (cs.map (·.listing.id)).Nodup →
      ((∀ (engine : StableSort) (cs' : List GuidedMatchCandidate), cs'.Perm cs →
        rankGuidedCandidates engine collation cs' = rankGuidedCandidates engine collation cs) ↔
        Settled collation (rescored cs) cs.length) := by
  constructor
  · intro intent limit inputs hids
    by_cases hdirection : intent.direction ≠ .buySats
    · simp [matchGuidedListings, hdirection]
    have hself : scoredListings collation joinRejection intent inputs = _ :=
      scoredListings_eq hids (List.Perm.refl inputs)
    have hnodup : (scoredListings collation joinRejection intent inputs).Nodup :=
      nodup_scoredListings hids
    simp only [matchGuidedListings, if_neg hdirection]
    rw [or_iff_right hdirection, settled_iff, hself]
    rw [hself] at hnodup
    rw [← take_sort_filterMap_iff hnodup matchesFirst_total]
    refine forall_congr' fun engine => forall_congr' fun inputs' => forall_congr' fun hperm => ?_
    rw [scoredListings_eq hids hperm]
  · intro cs hids
    have hself := rescored_eq hids (List.Perm.refl cs)
    have hlength : ∀ l : List GuidedMatchCandidate, (rescored l).length = l.length :=
      fun l => List.length_map _
    have hnodup : (rescored cs).Nodup := by
      apply List.Nodup.of_map fun c : GuidedMatchCandidate => c.listing.id
      rw [rescored, List.map_map]
      exact hids
    rw [settled_iff, hself]
    rw [hself] at hnodup
    rw [← take_sort_filterMap_iff hnodup matchesFirst_total]
    refine forall_congr' fun engine => forall_congr' fun cs' => forall_congr' fun hperm => ?_
    -- A ranking takes all candidates.
    have htake : ∀ l : List GuidedMatchCandidate, l.length = cs.length →
        (engine.sort (matchesFirst collation) (rescored l)).take cs.length
          = rankGuidedCandidates engine collation l := by
      intro l hl
      apply List.take_of_length_le
      rw [(engine.perm ..).length_eq, hlength, hl]
    rw [← rescored_eq hids hperm, ← hself, htake cs' hperm.length_eq, htake cs rfl]

/-! ### A crossing -/

def mergeEngine : StableSort where
  sort le l := l.mergeSort le
  perm le l := List.mergeSort_perm l le
  sort_eq _ := rfl

def byCodeUnit : Collation where
  le a b := a ≤ b
  total a b := by simpa using String.le_total a b
  trans a b c hab hbc := by
    simp only [decide_eq_true_eq] at hab hbc ⊢
    exact String.le_trans hab hbc

def buyIntent : GuidedTradeIntent where
  direction := .buySats
  amountSats := 1000
  paymentRails := ["cash"]
  community := some "nairobi"

def sampleOffer (id : String) (dollars : Option ℚ) : GuidedListingInput where
  listing :=
    { id, category := "p2p-trade", escrowMode := .ecash, amountMsats := 1000000,
      paymentMethods := ["cash"], seller := "seller", fiatAmount := dollars,
      fiatCurrency := some "USD" }

/-- Four elements that a merge leaves where they are, though the last may come before the first. -/
def staysMerged {α : Type} (le : α → α → Bool) : List α → Bool
  | [a, b, c, d] => le a b && le c d && le a c && le b c
  | _ => false

theorem mergeSort_of_staysMerged {α : Type} {le : α → α → Bool} {l : List α}
    (h : staysMerged le l = true) : l.mergeSort le = l := by
  obtain ⟨a, b, c, d, rfl⟩ : ∃ a b c d, l = [a, b, c, d] := by
    rcases l with - | ⟨a, - | ⟨b, - | ⟨c, - | ⟨d, - | ⟨e, l⟩⟩⟩⟩⟩
    case cons.cons.cons.cons.nil => exact ⟨a, b, c, d, rfl⟩
    all_goals cases h
  simp only [staysMerged, Bool.and_eq_true] at h
  obtain ⟨⟨⟨hab, hcd⟩, hac⟩, hbc⟩ := h
  simp [List.mergeSort, List.MergeSort.Internal.splitInTwo, hab, hcd, hac, hbc]

/-- Three matches that all score the same but for the price, which orders two of them. -/
theorem guided_order_crosses :
    let cheapest := sampleOffer "d" (some 1)
    let cheap := sampleOffer "c" (some 2000)
    let other := sampleOffer "b" none
    let dear := sampleOffer "a" (some 2001)
    let ranked := fun inputs => (matchGuidedListings mergeEngine byCodeUnit (fun _ => none)
      buyIntent inputs (some 4)).candidates.map (·.listing.id)
    [cheapest, dear, other, cheap].Perm [cheapest, cheap, dear, other] ∧
      ranked [cheapest, cheap, dear, other] = ["d", "c", "a", "b"] ∧
      ranked [cheapest, dear, other, cheap] = ["d", "a", "b", "c"] := by
  intro cheapest cheap other dear ranked
  have hperm := @List.perm_append_comm _ [dear, other] [cheap]
  have hkept : ∀ inputs, staysMerged (matchesFirst byCodeUnit)
      (scoredListings byCodeUnit (fun _ => none) buyIntent inputs) = true →
      ranked inputs = ((scoredListings byCodeUnit (fun _ => none) buyIntent inputs).take 4).map
        (·.listing.id) := by
    intro inputs h
    have hsort : mergeEngine.sort (matchesFirst byCodeUnit)
        (scoredListings byCodeUnit (fun _ => none) buyIntent inputs) = _ :=
      mergeSort_of_staysMerged h
    have hlimit : matchLimit (some 4) = 4 := by decide +kernel
    simp only [ranked, matchGuidedListings]
    rw [if_neg (by decide), hsort, hlimit]
  refine ⟨hperm.cons cheapest, ?_, ?_⟩
  · rw [hkept _ (by decide +kernel)]
    decide +kernel
  · rw [hkept _ (by decide +kernel)]
    decide +kernel

theorem guided_order_iff_sample :
    let inputs := [sampleOffer "c" (some 2000), sampleOffer "b" none, sampleOffer "a" (some 2001)]
    (∀ (engine : StableSort) (inputs' : List GuidedListingInput), inputs'.Perm inputs →
      (matchGuidedListings engine byCodeUnit (fun _ => none) buyIntent inputs' none).candidates
        = (matchGuidedListings engine byCodeUnit (fun _ => none) buyIntent inputs
          none).candidates) ↔
      buyIntent.direction ≠ .buySats ∨
        Settled byCodeUnit (scoredListings byCodeUnit (fun _ => none) buyIntent inputs)
          (matchLimit none) :=
  (guided_order_iff byCodeUnit fun _ => none).1 buyIntent none _ (by decide)

end ChamaEscrow
