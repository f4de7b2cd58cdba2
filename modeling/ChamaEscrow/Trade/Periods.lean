import ChamaEscrow.Trade.Fees

/-!
# The accounts of a subscription

A subscription is agreed before the LOCK and paid out after it: its SUBSCRIBE fixes the number of
periods and the amount of each, a LOCK may still change the amount of the trade, and the releases
name their periods one by one.

`Books` says what one accepted event does to the accounts, `PeriodLaw` is the invariant.  Three
kinds of events break it, and `Miscounts` collects them: a release counted between two periods, a
LOCK that funds less than the subscription pays out, and a SUBSCRIBE whose amounts do not add up
without rounding.  `subscription_accounts` is the result for the runs without such an event.
-/

namespace ChamaEscrow

open Js Library

variable {host : Host} {s s' : EscrowState} {e : ParsedEscrowEvent}

/-! ### Releases in the chain -/

def releaseIndex? (e : ParsedEscrowEvent) : Option JsNumber :=
  match e.payload with
  | .periodRelease p => some p.periodIndex
  | _ => none

theorem releaseIndex?_eq_none (he : e.kind ≠ .periodRelease) : releaseIndex? e = none := by
  unfold releaseIndex?
  split
  · rename_i p hp
    exact absurd (by rw [ParsedEscrowEvent.kind, hp, EscrowPayload.kind]) he
  · rfl

def releasedIndices (s : EscrowState) : List JsNumber := s.eventChain.filterMap releaseIndex?

theorem releasedIndices_append (h : s'.eventChain = s.eventChain ++ [e]) :
    releasedIndices s' = releasedIndices s ++ (releaseIndex? e).toList := by
  unfold releasedIndices
  rw [h, List.filterMap_append]
  cases hindex : releaseIndex? e <;> simp [hindex]

theorem releasedIndices_of_ne (h : s'.eventChain = s.eventChain ∨
    s'.eventChain = s.eventChain ++ [e]) (he : releaseIndex? e = none) :
    releasedIndices s' = releasedIndices s := by
  rcases h with h | h
  · rw [releasedIndices, h, releasedIndices]
  · rw [releasedIndices_append h, he]
    exact List.append_nil _

/-! ### Sums -/

def periodSum (amount : JsNumber) : ℕ → JsNumber
  | 0 => 0
  | n + 1 => periodSum amount n + amount

/-- Adding up to `n` equal amounts one by one gives their product each time. -/
def SumsExactly (amount : JsNumber) (n : ℕ) : Prop :=
  ∀ k ≤ n, periodSum amount k = .ofInt k * amount

instance (amount : JsNumber) (n : ℕ) : Decidable (SumsExactly amount n) :=
  inferInstanceAs (Decidable (∀ k ≤ n, periodSum amount k = .ofInt k * amount))

/-! ### One event -/

/-- What an accepted event does to the accounts of a subscription. -/
inductive Books (s : EscrowState) (e : ParsedEscrowEvent) (s' : EscrowState) : Prop
  | kept (subscription : s'.subscription = s.subscription ∨
        s'.subscription = s.subscription.map SubscriptionMeta.copy)
      (amount : s'.amountMsats = s.amountMsats)
      (releases : releasedIndices s' = releasedIndices s)
  | locked (p : LockPayload) (payload : e.payload = .lock p) (status : s.status = .created)
      (order : lockOrderGate s e p = .ok s'.amountMsats)
      (amounts : lockAmountGate e p s'.amountMsats = .ok ())
      (subscription : s'.subscription = s.subscription.map SubscriptionMeta.copy)
      (releases : releasedIndices s' = releasedIndices s)
  | subscribed (p : SubscribePayload) (n : ℕ) (sub : SubscriptionMeta)
      (payload : e.payload = .subscribe p) (status : s.status = .created)
      (length : arrayLength p.totalPeriods = .ok n)
      (total : (p.totalPeriods * p.periodAmountMsats).strictEq s.amountMsats = true)
      (fresh : s.subscription = none) (subscription : s'.subscription = some sub)
      (terms : sub.totalPeriods = p.totalPeriods ∧ sub.periodAmountMsats = p.periodAmountMsats)
      (periods : sub.periodStatuses.periods = List.replicate n .pending)
      (start : sub.releasedCount = 0 ∧ sub.totalReleasedMsats = 0)
      (amount : s'.amountMsats = s.amountMsats)
      (releases : releasedIndices s' = releasedIndices s)
  | released (p : PeriodReleasePayload) (sub : SubscriptionMeta)
      (payload : e.payload = .periodRelease p) (status : s.status = .locked)
      (due : isPastDeadline s e = false) (fresh : s.hasEvent e.id = false)
      (subscribed : s.subscription = some sub) (valid : periodError sub p = none)
      (agreed : p.amountMsats = sub.periodAmountMsats)
      (subscription : s'.subscription = some (sub.copy.release p))
      (completed : sub.totalPeriods ≤ .ofInt (sub.copy.release p).releasedCount →
        s'.status = .completed)
      (amount : s'.amountMsats = s.amountMsats)
      (releases : releasedIndices s' = releasedIndices s ++ [p.periodIndex])

theorem Books.of_copy {next : EscrowState} (clone : IsCopy s next)
    (hsubscription : s'.subscription = next.subscription)
    (hamount : s'.amountMsats = next.amountMsats)
    (hchain : s'.eventChain = s.eventChain ∨ s'.eventChain = s.eventChain ++ [e])
    (he : releaseIndex? e = none) : Books s e s' :=
  .kept (Or.inr (hsubscription.trans clone.subscription)) (hamount.trans clone.amountMsats)
    (releasedIndices_of_ne hchain he)

theorem total_of_handleSubscribe {p : SubscribePayload} (h : handleSubscribe s e p = .ok s') :
    (p.totalPeriods * p.periodAmountMsats).strictEq s.amountMsats = true := by
  simp only [handleSubscribe, bind_eq_ok, guardErr_eq_ok] at h
  obtain ⟨-, -, -, -, -, -, -, -, -, htotal, -⟩ := h
  simpa using htotal

variable {sub : SubscriptionMeta}

variable {p : PeriodReleasePayload}

theorem amount_of_handlePeriodRelease
    (hsub : s.subscription = some sub) (h : handlePeriodRelease s e p = .ok s') :
    p.amountMsats = sub.periodAmountMsats := by
  simp only [handlePeriodRelease, hsub, bind_eq_ok, guardErr_eq_ok] at h
  obtain ⟨-, -, -, -, -, -, -, hamount, -⟩ := h
  simp only [JsNumber.strictEq, Bool.not_eq_true', Bool.and_eq_false_iff, decide_eq_false_iff_not,
    not_or, not_not] at hamount
  exact hamount.2

theorem Handled.books (hdispatch : dispatch host s e = .ok s')
    (hfresh : s.hasEvent e.id = false) (hdue : isPastDeadline s e = false ∨ s.status = .expired)
    (h : Handled host s e s') : Books s e s' := by
  have hchain := h.eventChain
  cases h
  case planRepeated => exact .kept (Or.inl rfl) rfl rfl
  case subscribed p next periods payload status _ fresh length clone =>
    have hhandler := hdispatch
    rw [dispatch, payload] at hhandler
    exact .subscribed p periods _ payload status length (total_of_handleSubscribe hhandler) fresh rfl
      ⟨rfl, rfl⟩ rfl ⟨rfl, rfl⟩ clone.amountMsats
      (releasedIndices_of_ne hchain (by rw [releaseIndex?, payload]))
  case locked p next role withheld amount entries shares payload _ _ status _ _ _ _ order amounts _ _
      clone =>
    exact .locked p payload status order amounts clone.subscription
      (releasedIndices_of_ne hchain (by rw [releaseIndex?, payload]))
  case voted payload _ _ _ clone count =>
    obtain ⟨votes, acting, rfl⟩ := countVote_eq_ok count
    exact .of_copy clone rfl rfl hchain (by rw [releaseIndex?, payload])
  case periodReleased p sub next payload status subscribed valid _ clone =>
    have hhandler := hdispatch
    rw [dispatch, payload] at hhandler
    have hdue : isPastDeadline s e = false := by simpa [status] using hdue
    refine .released p sub payload status hdue hfresh subscribed valid
      (amount_of_handlePeriodRelease subscribed hhandler) rfl (fun hdone => if_pos hdone)
      clone.amountMsats ?_
    rw [releasedIndices_append clone.push, releaseIndex?, payload]
    rfl
  all_goals
    rename_i clone
    refine .of_copy clone rfl rfl hchain (releaseIndex?_eq_none ?_)
    simp [ParsedEscrowEvent.kind, EscrowPayload.kind, *]

theorem Handled.isConsensus (h : Handled host s e s') : e.payload.kind.isConsensus = true := by
  cases h
  all_goals simp [EscrowPayload.kind, EscrowEventKind.isConsensus, *]

theorem Handled.books_of_kind (h : Handled host s e s')
    (hkind : e.kind = .vote ∨ e.kind = .lockStep) :
    s'.subscription = s.subscription.map SubscriptionMeta.copy ∧
      s'.amountMsats = s.amountMsats ∧ releasedIndices s' = releasedIndices s := by
  have hindex : releaseIndex? e = none :=
    releaseIndex?_eq_none (by rcases hkind with hkind | hkind <;> rw [hkind] <;> decide)
  have hreleases := releasedIndices_of_ne h.eventChain hindex
  cases h
  case voted clone count =>
    obtain ⟨votes, acting, rfl⟩ := countVote_eq_ok count
    exact ⟨clone.subscription, clone.amountMsats, hreleases⟩
  case lockAccepted clone => exact ⟨clone.subscription, clone.amountMsats, hreleases⟩
  case sharesReleased clone => exact ⟨clone.subscription, clone.amountMsats, hreleases⟩
  all_goals simp_all [ParsedEscrowEvent.kind, EscrowPayload.kind]

theorem map_copy_copy (sub : Option SubscriptionMeta) :
    (sub.map SubscriptionMeta.copy).map SubscriptionMeta.copy = sub.map SubscriptionMeta.copy := by
  cases sub <;> rfl

/-- What any accepted event does to the accounts. -/
theorem books_of_step (h : applyToState host s e = .ok s') : Books s e s' := by
  have expired {next : EscrowState} (expires : Expires s e next) :
      next.subscription = s.subscription.map SubscriptionMeta.copy ∧
        next.amountMsats = s.amountMsats ∧ releasedIndices next = releasedIndices s := by
    have hchain := expires.eventChain
    obtain ⟨copy, clone, rfl⟩ := expires.eq
    exact ⟨clone.subscription, clone.amountMsats, congrArg (List.filterMap releaseIndex?) hchain⟩
  cases applyToState_stepped h with
  | echoed => exact .kept (Or.inl rfl) rfl rfl
  | premium _ _ clone =>
    exact .kept (Or.inr clone.subscription) clone.amountMsats
      (congrArg (List.filterMap releaseIndex?) clone.eventChain)
  | settlement _ _ clone =>
    exact .kept (Or.inr clone.subscription) clone.amountMsats
      (congrArg (List.filterMap releaseIndex?) clone.eventChain)
  | expired _ expires =>
    obtain ⟨hsubscription, hamount, hreleases⟩ := expired expires
    exact .kept (Or.inr hsubscription) hamount hreleases
  | handled fresh opened due law handled =>
    have hdispatch : dispatch host s e = .ok s' := by
      rwa [applyToState_dispatch handled.isConsensus law fresh opened due] at h
    exact handled.books hdispatch fresh due
  | lateHandled _ kind expires handled =>
    obtain ⟨hsubscription, hamount, hreleases⟩ := expired expires
    obtain ⟨hsubscription', hamount', hreleases'⟩ := handled.books_of_kind kind
    refine .kept (Or.inr ?_) (hamount'.trans hamount) (hreleases'.trans hreleases)
    rw [hsubscription', hsubscription, map_copy_copy]

/-! ### Events that break the accounts -/

/-- A LOCK that funds less than the subscription it finds pays out. -/
structure Undercuts (s : EscrowState) (e : ParsedEscrowEvent) : Prop where
  status : s.status = .created
  agreed : ∃ p sub amount, e.payload = .lock p ∧ s.subscription = some sub ∧
    lockOrderGate s e p = .ok amount ∧ amount < sub.totalPeriods * sub.periodAmountMsats

/-- A SUBSCRIBE whose period amounts do not add up without rounding. -/
structure RoundsSums (s : EscrowState) (e : ParsedEscrowEvent) : Prop where
  status : s.status = .created
  rounds : ∃ p n, e.payload = .subscribe p ∧ arrayLength p.totalPeriods = .ok n ∧
    ¬ SumsExactly p.periodAmountMsats n

def Miscounts (s : EscrowState) (e : ParsedEscrowEvent) : Prop :=
  CountsBetween s e ∨ Undercuts s e ∨ RoundsSums s e

/-! ### The invariant -/

structure SubscriptionLaw (s : EscrowState) (sub : SubscriptionMeta) : Prop where
  counted : sub.Counted
  exact : SumsExactly sub.periodAmountMsats sub.periodStatuses.periods.length
  paid : sub.totalReleasedMsats = periodSum sub.periodAmountMsats sub.releasedCount
  funded : sub.totalPeriods * sub.periodAmountMsats ≤ s.amountMsats
  positive : ¬ sub.totalPeriods * sub.periodAmountMsats ≤ 0
  once : (releasedIndices s).Nodup
  named : ∀ i : ℕ, .fin i ∈ releasedIndices s ↔ sub.periodStatuses.periods[i]? = some .released
  done : (∀ status ∈ sub.periodStatuses.periods, status = .released) → s.status = .completed

/-- The invariant of the accounts. -/
structure PeriodLaw (s : EscrowState) : Prop where
  positive : ¬ s.amountMsats ≤ 0
  unreleased : s.subscription = none → releasedIndices s = []
  law : ∀ sub, s.subscription = some sub → SubscriptionLaw s sub

theorem SubscriptionLaw.keep {sub sub' : SubscriptionMeta} (h : SubscriptionLaw s sub)
    (hsub : sub' = sub ∨ sub' = sub.copy)
    (hfunded : sub.totalPeriods * sub.periodAmountMsats ≤ s'.amountMsats)
    (hreleases : releasedIndices s' = releasedIndices s)
    (hstatus : s.status = .completed → s'.status = .completed) : SubscriptionLaw s' sub' := by
  have hnamed (i : ℕ) :
      .fin i ∈ releasedIndices s' ↔ sub.periodStatuses.periods[i]? = some .released := by
    rw [hreleases]
    exact h.named i
  have honce : (releasedIndices s').Nodup := hreleases ▸ h.once
  rcases hsub with rfl | rfl
  · exact ⟨h.counted, h.exact, h.paid, hfunded, h.positive, honce, hnamed,
      fun hall => hstatus (h.done hall)⟩
  · exact ⟨h.counted.copy, h.exact, h.paid, hfunded, h.positive, honce, hnamed,
      fun hall => hstatus (h.done hall)⟩

theorem periods_ne_zero {amount pay : JsNumber} (hpositive : ¬ amount ≤ 0)
    (htotal : (.fin (0 : ℕ) * pay).strictEq amount = true) : False := by
  simp only [JsNumber.strictEq, Bool.and_eq_true, decide_eq_true_eq] at htotal
  obtain ⟨hnan, rfl⟩ := htotal
  cases pay with
  | fin q =>
    refine hpositive ?_
    change JsNumber.ofRat ((0 : ℕ) * q) ≤ 0
    rw [Nat.cast_zero, zero_mul]
    decide
  | _ => exact hnan (by decide)

theorem PeriodLaw.subscribe (h : PeriodLaw s) (hC : ¬ RoundsSums s e) {p : SubscribePayload}
    {n : ℕ} (status : s.status = .created)
    (payload : e.payload = .subscribe p) (length : arrayLength p.totalPeriods = .ok n)
    (total : (p.totalPeriods * p.periodAmountMsats).strictEq s.amountMsats = true)
    (fresh : s.subscription = none)
    (terms : sub.totalPeriods = p.totalPeriods ∧ sub.periodAmountMsats = p.periodAmountMsats)
    (periods : sub.periodStatuses.periods = List.replicate n .pending)
    (start : sub.releasedCount = 0 ∧ sub.totalReleasedMsats = 0)
    (amount : s'.amountMsats = s.amountMsats)
    (releases : releasedIndices s' = releasedIndices s) : SubscriptionLaw s' sub := by
  obtain ⟨hperiods, hlt⟩ := arrayLength_eq_ok length
  have hnone : releasedIndices s' = [] := releases.trans (h.unreleased fresh)
  have hagreed : sub.totalPeriods * sub.periodAmountMsats = s.amountMsats := by
    rw [terms.1, terms.2]
    simp only [JsNumber.strictEq, Bool.and_eq_true, decide_eq_true_eq] at total
    exact total.2
  constructor
  case counted =>
    refine ⟨by simpa [periods] using hlt, ?_, by simp [start.1, periods, List.count_replicate]⟩
    rw [periods, List.length_replicate, terms.1, hperiods, JsNumber.ofInt_natCast]
    simp only [JsNumber.maxExact]
    omega
  case exact =>
    rw [periods, List.length_replicate, terms.2]
    by_contra hrounds
    exact hC ⟨status, p, n, payload, length, hrounds⟩
  case paid =>
    rw [start.1, start.2]
    rfl
  case funded =>
    rw [hagreed, amount]
    refine (JsNumber.le_total_of_ne_nan ?_ ?_).elim id id <;>
    · intro hnan
      rw [terms.1, terms.2] at hagreed
      simp [JsNumber.strictEq, hagreed, hnan] at total
  case positive =>
    rw [hagreed]
    exact h.positive
  case once =>
    rw [hnone]
    exact List.nodup_nil
  case named =>
    intro i
    rw [hnone, periods]
    simp [List.getElem?_replicate]
  case done =>
    intro hall
    rw [periods] at hall
    rcases Nat.eq_zero_or_pos n with rfl | hpos
    · rw [hperiods] at total
      exact (periods_ne_zero h.positive total).elim
    · have := hall .pending (List.mem_replicate.mpr ⟨by omega, rfl⟩)
      cases this

theorem SubscriptionLaw.release {i : ℕ}
    (h : SubscriptionLaw s sub) (valid : periodError sub p = none)
    (hi : p.periodIndex.toNat? = some i) (agreed : p.amountMsats = sub.periodAmountMsats)
    (completed : sub.totalPeriods ≤ .ofInt (sub.copy.release p).releasedCount →
      s'.status = .completed) (amount : s'.amountMsats = s.amountMsats)
    (releases : releasedIndices s' = releasedIndices s ++ [p.periodIndex]) :
    SubscriptionLaw s' (sub.copy.release p) := by
  have hcounted := h.counted.release valid hi
  have hperiods := @SubscriptionMeta.release_periods sub _ _ hi
  have hindex : p.periodIndex = .fin i := JsNumber.toNat?_eq_some hi
  have hpending := h.counted.pending valid hi
  have hlt : i < sub.periodStatuses.periods.length := (List.getElem?_eq_some_iff.mp hpending).1
  constructor
  case counted => exact hcounted
  case exact =>
    rw [hperiods, List.length_set]
    exact h.exact
  case paid =>
    change sub.totalReleasedMsats + p.amountMsats = periodSum _ (sub.releasedCount + 1)
    rw [h.paid, agreed]
    rfl
  case funded =>
    rw [amount]
    exact h.funded
  case positive => exact h.positive
  case once =>
    have hnew : p.periodIndex ∉ releasedIndices s := by
      rw [hindex, h.named, hpending]
      decide
    rw [releases]
    exact List.nodup_append.mpr ⟨h.once, List.nodup_singleton _, by
      rintro x hx y hy rfl
      rw [List.mem_singleton] at hy
      exact hnew (hy ▸ hx)⟩
  case named =>
    intro j
    rw [releases, List.mem_append, List.mem_singleton, h.named, hindex, hperiods,
      List.getElem?_set, JsNumber.fin.injEq, Nat.cast_inj]
    by_cases hij : i = j
    · subst hij
      simp [hlt]
    · simp [hij, Ne.symm hij]
  case done =>
    intro hall
    refine completed ?_
    have hcount := List.count_eq_length.mpr fun b hb => (hall b hb).symm
    change (sub.copy.release p).totalPeriods ≤ _
    rw [hcounted.total, hcounted.released, hcount]
    exact (JsNumber.ofInt_le_ofInt hcounted.exact hcounted.exact).mpr le_rfl

theorem PeriodLaw.step (h : PeriodLaw s) (hC : ¬ Miscounts s e)
    (hstep : applyToState host s e = .ok s') : PeriodLaw s' := by
  have hcompleted (hdone : s.status = .completed) : s'.status = .completed := by
    rw [(applyToState_stepped hstep).absorbing (by rw [hdone]; rfl), hdone]
  have hkept {sub' : SubscriptionMeta} (hsub' : s'.subscription = some sub')
      (hsame : s'.subscription = s.subscription ∨
        s'.subscription = s.subscription.map SubscriptionMeta.copy) :
      ∃ sub, s.subscription = some sub ∧ (sub' = sub ∨ sub' = sub.copy) := by
    rcases hsame with hsame | hsame
    · exact ⟨sub', hsame ▸ hsub', Or.inl rfl⟩
    · rw [hsame, Option.map_eq_some_iff] at hsub'
      obtain ⟨sub, hsub, rfl⟩ := hsub'
      exact ⟨sub, hsub, Or.inr rfl⟩
  have hunreleased (hreleases : releasedIndices s' = releasedIndices s)
      (hsame : s'.subscription = s.subscription ∨
        s'.subscription = s.subscription.map SubscriptionMeta.copy)
      (hnone : s'.subscription = none) : releasedIndices s' = [] := by
    refine hreleases.trans (h.unreleased ?_)
    rcases hsame with hsame | hsame
    · rwa [← hsame]
    · rwa [hsame, Option.map_eq_none_iff] at hnone
  cases books_of_step hstep with
  | kept subscription amount releases =>
    refine ⟨by rw [amount]; exact h.positive, hunreleased releases subscription, ?_⟩
    intro sub' hsub'
    obtain ⟨sub, hsub, hcopy⟩ := hkept hsub' subscription
    have hlaw := h.law sub hsub
    exact hlaw.keep hcopy (by rw [amount]; exact hlaw.funded) releases hcompleted
  | locked p payload status order amounts subscription releases =>
    have hnan := ne_nan_of_lockAmountGate amounts
    refine ⟨?_, hunreleased releases (Or.inr subscription), ?_⟩
    · rcases lockOrderGate_amount order with hsame | ⟨-, hpositive⟩
      · rw [hsame]
        exact h.positive
      · exact hpositive
    · intro sub' hsub'
      obtain ⟨sub, hsub, hcopy⟩ := hkept hsub' (Or.inr subscription)
      have hlaw := h.law sub hsub
      refine hlaw.keep hcopy (JsNumber.le_of_not_lt hnan ?_ fun hlt => ?_) releases hcompleted
      · intro htotal
        have hfunded := hlaw.funded
        rw [htotal] at hfunded
        exact Bool.noConfusion hfunded
      · exact hC (Or.inr (Or.inl ⟨status, p, sub, _, payload, hsub, order, hlt⟩))
  | subscribed p n sub payload status length total fresh subscription terms periods start amount
      releases =>
    refine ⟨by rw [amount]; exact h.positive, fun hnone => ?_, fun sub' hsub' => ?_⟩
    · rw [subscription] at hnone
      cases hnone
    · obtain rfl : sub = sub' := by simpa [subscription] using hsub'
      exact h.subscribe (fun hrounds => hC (Or.inr (Or.inr hrounds))) status payload length total
        fresh terms periods start amount releases
  | released p sub payload status due fresh subscribed valid agreed subscription completed amount
      releases =>
    refine ⟨by rw [amount]; exact h.positive, fun hnone => ?_, fun sub' hsub' => ?_⟩
    · rw [subscription] at hnone
      cases hnone
    · obtain rfl : sub.copy.release p = sub' := by simpa [subscription] using hsub'
      cases hi : p.periodIndex.toNat? with
      | none =>
        exact absurd (Or.inl ⟨status, due, fresh, p, sub, payload, subscribed, valid, hi⟩) hC
      | some i =>
        exact (h.law sub subscribed).release valid hi agreed completed amount releases

theorem PeriodLaw.created (h : Created host s) : PeriodLaw s := by
  obtain ⟨e, p, hp, hcreate⟩ := (created_iff host).mp h
  have hborn := handleCreate_newborn hp hcreate
  simp only [handleCreate, bind_eq_ok, guardErr_eq_ok] at hcreate
  obtain ⟨_, -, _, -, _, -, _, hpositive, -⟩ := hcreate
  refine ⟨?_, fun _ => ?_, fun sub hsub => ?_⟩
  · rw [hborn.amountMsats]
    exact (not_or.mp hpositive).2
  · rw [releasedIndices, hborn.eventChain]
    simp [releaseIndex?, hborn.payload]
  · rw [hborn.subscription] at hsub
    cases hsub

theorem SubscriptionLaw.paid_le (h : SubscriptionLaw s sub) :
    sub.totalReleasedMsats = .ofInt sub.releasedCount * sub.periodAmountMsats ∧
      sub.totalReleasedMsats ≤ s.amountMsats := by
  have hle : sub.releasedCount ≤ sub.periodStatuses.periods.length := by
    rw [h.counted.released]
    exact List.count_le_length
  have hproduct : sub.totalReleasedMsats = .ofInt sub.releasedCount * sub.periodAmountMsats :=
    h.paid.trans (h.exact _ hle)
  refine ⟨hproduct, ?_⟩
  have hfunded := h.funded
  have hpositive := h.positive
  have hzero := h.exact 0 (Nat.zero_le _)
  rw [h.counted.total, JsNumber.ofInt_natCast h.counted.exact] at hfunded hpositive
  rw [hproduct, JsNumber.ofInt_natCast (hle.trans h.counted.exact)]
  refine JsNumber.le_trans ?_ hfunded
  cases hpay : sub.periodAmountMsats with
  | fin q =>
    rw [hpay] at hpositive
    have hq : 0 ≤ q := by
      by_contra hneg
      refine hpositive ?_
      change JsNumber.ofRat (_ * q) ≤ JsNumber.ofRat ((0 : ℤ) : ℚ)
      refine JsNumber.ofRat_mono ?_
      rw [Int.cast_zero]
      exact mul_nonpos_of_nonneg_of_nonpos (Nat.cast_nonneg _) (not_le.mp hneg).le
    exact JsNumber.ofRat_mono (mul_le_mul_of_nonneg_right (by exact_mod_cast hle) hq)
  | nan => rw [hpay] at hzero; exact absurd hzero (by decide)
  | posInf => rw [hpay] at hzero; exact absurd hzero (by decide)
  | negInf => rw [hpay] at hzero; exact absurd hzero (by decide)

/-- The accounts of a subscription agree with its periods in every run that counts no release between
two periods, funds no subscription short and agrees on none whose amounts round: as many periods are
counted as are released, what is paid out is their amount and no more than the trade's, no period is
released twice, and the trade is completed when every period is released; a locked trade that is
completed has released its last period. -/
theorem subscription_accounts (host : Host) :
    (∀ s sub, RunsUnder host (fun s e => ¬ Miscounts s e) s → s.subscription = some sub →
      sub.releasedCount = sub.periodStatuses.periods.count .released ∧
        .ofInt sub.releasedCount ≤ sub.totalPeriods ∧
        sub.totalReleasedMsats = .ofInt sub.releasedCount * sub.periodAmountMsats ∧
        sub.totalReleasedMsats ≤ s.amountMsats ∧
        (releasedIndices s).Nodup ∧
        (∀ i : ℕ, .fin i ∈ releasedIndices s ↔
          sub.periodStatuses.periods[i]? = some .released) ∧
        ((∀ status ∈ sub.periodStatuses.periods, status = .released) → s.status = .completed)) ∧
      ∀ s e s', RunsUnder host (fun s e => ¬ Miscounts s e) s → ¬ Miscounts s e →
        applyToState host s e = .ok s' → s.status = .locked → s'.status = .completed →
          ReleasesLast s e s' := by
  have hrun {s : EscrowState} (h : RunsUnder host (fun s e => ¬ Miscounts s e) s) : PeriodLaw s :=
    Run.invariant (fun _ => PeriodLaw.created) (fun s e s' hC hs hstep => hs.step hC hstep) h
  constructor
  · intro s sub h hsub
    have hlaw := (hrun h).law sub hsub
    have hle : sub.releasedCount ≤ sub.periodStatuses.periods.length := by
      rw [hlaw.counted.released]
      exact List.count_le_length
    refine ⟨hlaw.counted.released, ?_, hlaw.paid_le.1, hlaw.paid_le.2, hlaw.once, hlaw.named,
      hlaw.done⟩
    rw [hlaw.counted.total]
    exact (JsNumber.ofInt_le_ofInt (hle.trans hlaw.counted.exact) hlaw.counted.exact).mpr hle
  · intro s e s' h hC hstep hlocked hdone
    have hcounted : CountedPeriods s := fun sub hsub => ((hrun h).law sub hsub).counted
    exact (applyToState_stepped hstep).moves.releasesLast hcounted (fun hbetween =>
      hC (Or.inl hbetween)) hlocked hdone

/-! ### Sample accounts -/

/-- A release at one half is counted, and no period is released for it. -/
theorem half_period_counted :
    ∃ s sub, Reached silentHost s ∧ s.subscription = some sub ∧
      sub.releasedCount ≠ sub.periodStatuses.periods.count .released := by
  have hrun : (liveTrade silentHost sampleCreate (subscribedEvents (.fin (1 / 2)))).any
      (fun s => s.subscription.any fun sub =>
        sub.releasedCount ≠ sub.periodStatuses.periods.count .released) = true := by
    decide +kernel
  obtain ⟨s, hs, h⟩ := (Option.any_eq_true _ _).mp hrun
  obtain ⟨sub, hsub, hcount⟩ := (Option.any_eq_true _ _).mp h
  exact ⟨s, sub, liveTrade_reached silentHost hs, hsub, of_decide_eq_true hcount⟩

def keepsAccounts (s : EscrowState) (e : ParsedEscrowEvent) : Bool :=
  match e.payload with
  | .periodRelease p => p.periodIndex.toNat?.isSome
  | .lock p => s.subscription.all fun sub =>
    match lockOrderGate s e p with
    | .ok amount => !decide (amount < sub.totalPeriods * sub.periodAmountMsats)
    | .error _ => true
  | .subscribe p =>
    match arrayLength p.totalPeriods with
    | .ok n => decide (SumsExactly p.periodAmountMsats n)
    | .error _ => true
  | _ => true

theorem not_miscounts_of_keepsAccounts (h : keepsAccounts s e = true) : ¬ Miscounts s e := by
  rintro (hbetween | hundercuts | hrounds)
  · obtain ⟨p, sub, hp, -, -, hindex⟩ := hbetween.between
    simp [keepsAccounts, hp, hindex] at h
  · obtain ⟨p, sub, amount, hp, hsub, horder, hlt⟩ := hundercuts.agreed
    simp [keepsAccounts, hp, hsub, horder, hlt] at h
  · obtain ⟨p, n, hp, hlength, hexact⟩ := hrounds.rounds
    simp [keepsAccounts, hp, hlength, hexact] at h

/-- The first of two periods is released and paid, the second completes the trade. -/
theorem subscription_accounts_sample : ∃ s sub s',
    s.subscription = some sub ∧ sub.releasedCount = 1 ∧
      sub.totalReleasedMsats = .ofInt sub.releasedCount * sub.periodAmountMsats ∧
      sub.totalReleasedMsats ≤ s.amountMsats ∧ ReleasesLast s (sampleRelease '7' 1) s' := by
  have hcreate : ∃ s₀, Created silentHost s₀ ∧
      ((subscribedEvents 0).foldlM (checked (applyToState silentHost) keepsAccounts) s₀).any
        (fun s => s.status = .locked && keepsAccounts s (sampleRelease '7' 1) &&
          (s.subscription.any fun sub => sub.releasedCount = 1) &&
          (applyToState silentHost s (sampleRelease '7' 1)).toOption.any fun s' =>
            s'.status = .completed) = true := by
    have hrun : ((applyEvent silentHost none sampleCreate).toOption.any fun s₀ =>
        ((subscribedEvents 0).foldlM (checked (applyToState silentHost) keepsAccounts) s₀).any
          (fun s => s.status = .locked && keepsAccounts s (sampleRelease '7' 1) &&
            (s.subscription.any fun sub => sub.releasedCount = 1) &&
            (applyToState silentHost s (sampleRelease '7' 1)).toOption.any fun s' =>
              s'.status = .completed)) = true := by
      decide +kernel
    obtain ⟨s₀, hs₀, hrun⟩ := exists_ok_of_any hrun
    exact ⟨s₀, ⟨_, hs₀⟩, hrun⟩
  obtain ⟨s₀, hs₀, hrun⟩ := hcreate
  have hexists : ∃ s, RunsUnder silentHost (fun s e => ¬ Miscounts s e) s ∧ _ = true :=
    Run.exists_of_checked hs₀ keepsAccounts (fun _ _ => not_miscounts_of_keepsAccounts) _ hrun
  obtain ⟨s, hs, h⟩ := hexists
  simp only [Bool.and_eq_true, decide_eq_true_eq] at h
  obtain ⟨⟨⟨hlocked, hkeeps⟩, hcounted⟩, hstep⟩ := h
  obtain ⟨sub, hsub, hone⟩ := (Option.any_eq_true _ _).mp hcounted
  obtain ⟨s', happly, hstep⟩ := exists_ok_of_any hstep
  have haccounts := (subscription_accounts silentHost).1 s sub hs hsub
  exact ⟨s, sub, s', hsub, of_decide_eq_true hone, haccounts.2.2.1, haccounts.2.2.2.1,
    (subscription_accounts silentHost).2 s _ s' hs (not_miscounts_of_keepsAccounts hkeeps) happly
      hlocked (of_decide_eq_true hstep)⟩

end ChamaEscrow
