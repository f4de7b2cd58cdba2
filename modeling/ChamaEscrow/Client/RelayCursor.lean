import ChamaEscrow.Client.RawEvents
import ChamaEscrow.Js.Rounding

/-!
# Relay subscriptions and their cursors

The part of `relay-manager.ts` that keeps a subscription alive over dropped connections: every relay
has its own copy of each filter (`subscribe`), each event it delivers moves the `since` of that copy
(`handleRelayMessage`), and a connection that opens again sends the copies as they then are
(`connectRelay`).  A relay is modelled with what it holds, what it was asked on the connection that
is up, and what it has delivered; its answer to a filter is any order of the events that match.

* `resumes_without_gap`: as long as no delivered event moves a cursor past the clock or past an
  event that the relay still owes, and none is published behind a cursor, the filter that is sent
  again matches everything that is owed.
* `resumed_past_stored_event`: a relay that answers newest first and drops after one event is never
  asked for the older ones.
-/

namespace ChamaEscrow

open Js Library

namespace Relay

/-! ### Filters -/

/-- `NostrFilter`, whose three tag filters are named by their tag and whose `until` is
`untilTime`. -/
structure NostrFilter where
  ids : Option (List String) := none
  kinds : Option (List ℕ) := none
  authors : Option (List String) := none
  tags : List (String × List String) := []
  since : Option JsNumber := none
  untilTime : Option JsNumber := none
  limit : Option ℕ := none

namespace NostrFilter

/-- Whether an event has what the filter names apart from its `since`. -/
def selects (f : NostrFilter) (e : RawEvent) : Bool :=
  f.ids.all (·.contains e.id) && f.kinds.all (·.contains e.kind) &&
  f.authors.all (·.contains e.event.pubkey) &&
  (f.tags.all fun (name, values) =>
    e.event.tags.any fun tag => tag.head? == some name && tag[1]?.any fun v => values.contains v) &&
  f.untilTime.all fun t => e.createdAt ≤ t

/-- Whether a time is not before `since`. -/
def admits (f : NostrFilter) (t : JsNumber) : Bool := f.since.all fun s => s ≤ t

def accepts (f : NostrFilter) (e : RawEvent) : Bool := f.selects e && f.admits e.createdAt

end NostrFilter

/-! ### Connections -/

inductive RelayStatus
  | connecting
  | connected
  | disconnected
  | error
  deriving DecidableEq

/-- `RelayConnection`: whether there is a socket, and the relay's own copies of the filters. -/
structure RelayConnection where
  ws : Bool := false
  status : RelayStatus := .disconnected
  quarantined : Bool := false
  subscriptions : OrderedMap String NostrFilter := .empty

/-- A relay and its connection: what it holds, what it owes to a subscription that asks for it, what
it was asked on the connection that is up, and what it has delivered to which subscription. -/
structure Link extends RelayConnection where
  stock : List RawEvent := []
  due : List RawEvent := []
  asked : OrderedMap String NostrFilter := .empty
  delivered : List (String × String) := []

/-- The callbacks that decide whether an event is dropped on arrival. -/
structure RelayCallbacks where
  verifyEvent : RawEvent → Bool
  shouldDropEvent : RawEvent → Bool

def maxEventContentBytes : ℕ := 128 * 1024

/-- The time from which a delivered event lets its subscription resume. -/
def nextSince (e : RawEvent) : JsNumber :=
  if e.kind = EscrowEventKind.chat.number ∨ heavyCursorEventBytes < unitCount e.content then
    e.createdAt + 1
  else JsNumber.max 0 (e.createdAt - 2)

def movesCursor (callbacks : RelayCallbacks) (e : RawEvent) : Bool :=
  unitCount e.content ≤ maxEventContentBytes && callbacks.verifyEvent e &&
  !callbacks.shouldDropEvent e && e.createdAt.isFinite

def NostrFilter.advanced (f : NostrFilter) (e : RawEvent) : NostrFilter :=
  { f with since := some (JsNumber.max (f.since.getD 0) (nextSince e)) }

namespace Link

variable (callbacks : RelayCallbacks)

/-- `connectRelay` up to the new socket. -/
def dial (l : Link) : Link :=
  if l.quarantined ∨ l.status = .connecting ∨ l.status = .connected then l
  else { l with ws := true, status := .connecting, asked := .empty }

/-- `ws.onopen`: every subscription is sent again.  From here on the relay owes what it holds. -/
def opened (l : Link) : Link :=
  { l with status := .connected, asked := l.subscriptions, due := l.stock }

/-- `ws.onerror`. -/
def failed (l : Link) : Link := { l with status := .error }

/-- `ws.onclose`. -/
def closed (l : Link) : Link :=
  { l with
    ws := false, asked := .empty
    status := if l.quarantined then l.status else .disconnected }

/-- `quarantineRelay`, at a frame that is too large. -/
def quarantine (l : Link) : Link :=
  if l.quarantined then l
  else { l with ws := false, status := .error, quarantined := true, asked := .empty }

/-- What `subscribe` does with one relay. -/
def subscribe (subId : String) (filter : NostrFilter) (l : Link) : Link :=
  { l with
    subscriptions := l.subscriptions.set subId filter
    asked := if l.status = .connected ∧ l.ws then l.asked.set subId filter else l.asked }

/-- What `unsubscribe` does with one relay. -/
def unsubscribe (subId : String) (l : Link) : Link :=
  { l with
    subscriptions := l.subscriptions.erase subId
    asked := if l.status = .connected ∧ l.ws then l.asked.erase subId else l.asked }

/-- The relay stores an event.  It owes one that reaches it while the connection is up, or that
carries a current time. -/
def stored (clock : JsNumber) (e : RawEvent) (l : Link) : Link :=
  { l with
    stock := l.stock ++ [e]
    due := if l.status = .connected ∨ clock ≤ e.createdAt then l.due ++ [e] else l.due }

/-- `handleRelayMessage` at an `EVENT` frame. -/
def handleRelayMessage (subId : String) (e : RawEvent) (l : Link) : Link :=
  { l with
    delivered := (subId, e.id) :: l.delivered
    subscriptions :=
      match l.subscriptions.get subId with
      | some filter =>
        if movesCursor callbacks e then l.subscriptions.set subId (filter.advanced e)
        else l.subscriptions
      | none => l.subscriptions }

/-- The frame that carries the `i`-th event the relay holds. -/
def delivers (subId : String) (i : ℕ) (l : Link) : Link :=
  match l.stock[i]? with
  | some e => l.handleRelayMessage callbacks subId e
  | none => l

end Link

def Behind (wanted : OrderedMap String NostrFilter) (l : Link) (e : RawEvent) : Prop :=
  ∃ subId f f₀, l.subscriptions.get subId = some f ∧ wanted.get subId = some f₀ ∧
    f₀.accepts e = true ∧ (subId, e.id) ∉ l.delivered ∧ f.admits e.createdAt = false

/-! ### The pool -/

/-- A pool of relays, with the filters as they were subscribed and the time. -/
structure Pool where
  relays : OrderedMap String Link
  subscriptionCounter : ℕ := 0
  wanted : OrderedMap String NostrFilter := .empty
  clock : JsNumber

inductive PoolEvent
  | tick (time : JsNumber)
  | store (url : String) (e : RawEvent)
  | subscribe (label : String) (filter : NostrFilter)
  | unsubscribe (subId : String)
  | dial (url : String)
  | opened (url : String)
  | failed (url : String)
  | closed (url : String)
  | oversized (url : String)
  | deliver (url : String) (subId : String) (i : ℕ)

namespace Pool

variable (callbacks : RelayCallbacks)

def onRelay (w : Pool) (url : String) (can : Link → Bool) (f : Link → Link) : Except Unit Pool :=
  match w.relays.get url with
  | some l => if can l then .ok { w with relays := w.relays.set url (f l) } else .error ()
  | none => .error ()

/-- One event of the pool.  A relay delivers an event that it holds and that the filter it was asked
accepts. -/
def step (w : Pool) : PoolEvent → Except Unit Pool
  | .tick time => if w.clock ≤ time then .ok { w with clock := time } else .error ()
  | .store url e => w.onRelay url (fun _ => true) (Link.stored w.clock e)
  | .subscribe label filter =>
    let subId := label ++ toString (w.subscriptionCounter + 1)
    .ok { w with
      subscriptionCounter := w.subscriptionCounter + 1
      wanted := w.wanted.set subId filter
      relays := w.relays.map fun _ => Link.subscribe subId filter }
  | .unsubscribe subId =>
    .ok { w with
      wanted := w.wanted.erase subId
      relays := w.relays.map fun _ => Link.unsubscribe subId }
  | .dial url => w.onRelay url (fun _ => true) Link.dial
  | .opened url => w.onRelay url (fun l => l.ws && l.status = .connecting) Link.opened
  | .failed url => w.onRelay url (fun l => l.ws) Link.failed
  | .closed url => w.onRelay url (fun l => l.ws) Link.closed
  | .oversized url => w.onRelay url (fun l => l.ws) Link.quarantine
  | .deliver url subId i =>
    w.onRelay url
      (fun l => l.ws && (l.stock[i]?).any fun e => (l.asked.get subId).any (·.accepts e))
      (Link.delivers callbacks subId i)

/-- No relay is connected and nothing is subscribed. -/
def Fresh (w : Pool) : Prop :=
  0 ≤ w.clock ∧ w.wanted = .empty ∧
  ∀ url l, w.relays.get url = some l → l.toRelayConnection = {}

/-- The steps that leave no gap.  No event of an old date reaches a relay behind a cursor, while the
connection is up or before it is up again; and an event is delivered that moves the cursor neither
past the clock nor past another event that the relay owes the subscription. -/
def Gapless (w : Pool) : PoolEvent → Prop
  | .store url e => ∀ l, w.relays.get url = some l → l.status = .connected →
    ¬ w.clock ≤ e.createdAt → ¬ Behind w.wanted l e
  | .opened url => ∀ l, w.relays.get url = some l → ∀ e ∈ l.stock, e ∉ l.due → ¬ Behind w.wanted l e
  | .deliver url subId i => ∀ l e f₀, w.relays.get url = some l → l.stock[i]? = some e →
    w.wanted.get subId = some f₀ → movesCursor callbacks e = true → nextSince e ≤ w.clock ∧
    ∀ e' ∈ l.due, e'.id ≠ e.id → f₀.accepts e' = true → (subId, e'.id) ∉ l.delivered →
      0 ≤ e'.createdAt ∧ nextSince e ≤ e'.createdAt
  | _ => True

end Pool

/-! ### What a copy still asks for -/

/-- A relay's copy of a filter differs from the filter in its cursor alone, and still matches what
the relay owes and everything of the present or later. -/
structure Copies (clock : JsNumber) (l : Link) (subId : String) (f₀ f : NostrFilter) : Prop where
  since : f = { f₀ with since := f.since }
  owed : ∀ e ∈ l.due, f₀.accepts e = true → (subId, e.id) ∉ l.delivered →
    f.admits e.createdAt = true
  fromNow : ∀ t, clock ≤ t → f₀.admits t = true → f.admits t = true

def Resumes (wanted : OrderedMap String NostrFilter) (clock : JsNumber) (l : Link) : Prop :=
  ∀ subId f, l.subscriptions.get subId = some f →
    ∃ f₀, wanted.get subId = some f₀ ∧ Copies clock l subId f₀ f

variable {e : RawEvent}

namespace Copies

variable {clock : JsNumber} {l : Link} {subId : String} {f₀ f : NostrFilter}

theorem accepts (h : Copies clock l subId f₀ f) (he : e ∈ l.due)
    (hf : f₀.accepts e = true) (hd : (subId, e.id) ∉ l.delivered) : f.accepts e = true := by
  have hsel : f.selects e = f₀.selects e := by rw [h.since]; rfl
  unfold NostrFilter.accepts
  rw [hsel, h.owed e he hf hd, Bool.and_true]
  exact (Bool.and_eq_true_iff.mp hf).1

theorem acceptsNow (h : Copies clock l subId f₀ f) (he : clock ≤ e.createdAt)
    (hf : f₀.accepts e = true) : f.accepts e = true := by
  obtain ⟨hsel₀, hadm⟩ := Bool.and_eq_true_iff.mp hf
  have hsel : f.selects e = f₀.selects e := by rw [h.since]; rfl
  unfold NostrFilter.accepts
  rw [hsel, hsel₀, h.fromNow _ he hadm, Bool.true_and]

/-- A fresh copy is the filter itself. -/
theorem refl : Copies clock l subId f f where
  since := rfl
  owed _ _ hf _ := (Bool.and_eq_true_iff.mp hf).2
  fromNow _ _ h := h

theorem tick (h : Copies clock l subId f₀ f) {time : JsNumber} (ht : clock ≤ time) :
    Copies time l subId f₀ f :=
  { h with fromNow := fun _ hle => h.fromNow _ (JsNumber.le_trans ht hle) }

/-- A copy whose cursor moves to the present at the latest keeps matching what is not older than
the cursor. -/
theorem advanced (h : Copies clock l subId f₀ f) {l' : Link} (h0 : 0 ≤ clock)
    (hnow : nextSince e ≤ clock) (hdue : l'.due = l.due)
    (hdel : l'.delivered = (subId, e.id) :: l.delivered)
    (howed : ∀ e' ∈ l.due, e'.id ≠ e.id → f₀.accepts e' = true → (subId, e'.id) ∉ l.delivered →
      0 ≤ e'.createdAt ∧ nextSince e ≤ e'.createdAt) : Copies clock l' subId f₀ (f.advanced e) := by
  have hadmits : ∀ t, 0 ≤ t → nextSince e ≤ t → f.admits t = true →
      (f.advanced e).admits t = true := by
    intro t ht0 ht hf
    change decide (JsNumber.max (f.since.getD 0) (nextSince e) ≤ t) = true
    refine decide_eq_true (JsNumber.max_le ?_ ht)
    cases hs : f.since with
    | none => exact ht0
    | some s =>
      unfold NostrFilter.admits at hf
      rw [hs] at hf
      exact of_decide_eq_true hf
  refine ⟨by rw [h.since]; rfl, fun e' he' hf hd => ?_, fun t ht hf => ?_⟩
  · rw [hdel, List.mem_cons, not_or] at hd
    rw [hdue] at he'
    have hne : e'.id ≠ e.id := fun hid => hd.1 (by rw [hid])
    obtain ⟨h0', hle⟩ := howed e' he' hne hf hd.2
    exact hadmits _ h0' hle (h.owed e' he' hf hd.2)
  · exact hadmits t (JsNumber.le_trans h0 ht) (JsNumber.le_trans hnow ht) (h.fromNow t ht hf)

end Copies

namespace Resumes

variable {wanted : OrderedMap String NostrFilter} {clock : JsNumber} {l l' : Link}

theorem not_behind (h : Resumes wanted clock l) (he : clock ≤ e.createdAt) :
    ¬ Behind wanted l e := by
  rintro ⟨subId, f, f₀, hf, hf₀, hacc, -, hadm⟩
  obtain ⟨g, hg, hcopy⟩ := h subId f hf
  obtain rfl := Option.some.inj (hf₀.symm.trans hg)
  rw [hcopy.fromNow _ he (Bool.and_eq_true_iff.mp hacc).2] at hadm
  cases hadm

theorem of_due (h : Resumes wanted clock l) (hsubs : l'.subscriptions = l.subscriptions)
    (hdel : l'.delivered = l.delivered)
    (hdue : ∀ e ∈ l'.due, e ∈ l.due ∨ ¬ Behind wanted l e) : Resumes wanted clock l' := by
  intro subId f hf
  rw [hsubs] at hf
  obtain ⟨f₀, hf₀, hcopy⟩ := h subId f hf
  refine ⟨f₀, hf₀, hcopy.since, fun e he hacc hd => ?_, hcopy.fromNow⟩
  rw [hdel] at hd
  rcases hdue e he with hold | hnew
  · exact hcopy.owed e hold hacc hd
  · by_contra hadm
    exact hnew ⟨subId, f, f₀, hf, hf₀, hacc, hd, Bool.eq_false_of_not_eq_true hadm⟩

theorem stored (h : Resumes wanted clock l)
    (hstore : l.status = .connected → ¬ clock ≤ e.createdAt → ¬ Behind wanted l e) :
    Resumes wanted clock (l.stored clock e) := by
  refine h.of_due rfl rfl fun e' he' => ?_
  change e' ∈ (if _ then l.due ++ [e] else l.due) at he'
  split_ifs at he' with hdue
  · rcases List.mem_append.mp he' with hold | hnew
    · exact Or.inl hold
    · obtain rfl := List.mem_singleton.mp hnew
      right
      by_cases hnow : clock ≤ e'.createdAt
      · exact h.not_behind hnow
      · exact hstore (hdue.resolve_right hnow) hnow
  · exact Or.inl he'

theorem subscribe (h : Resumes wanted clock l) (subId : String) (filter : NostrFilter) :
    Resumes (wanted.set subId filter) clock (l.subscribe subId filter) := by
  intro id f hf
  change (l.subscriptions.set subId filter).get id = some f at hf
  rw [OrderedMap.get_set] at hf ⊢
  split_ifs at hf ⊢
  · obtain rfl := Option.some.inj hf
    exact ⟨filter, rfl, .refl⟩
  · obtain ⟨f₀, hf₀, hcopy⟩ := h id f hf
    exact ⟨f₀, hf₀, { hcopy with }⟩

theorem unsubscribe (h : Resumes wanted clock l) (subId : String) :
    Resumes (wanted.erase subId) clock (l.unsubscribe subId) := by
  intro id f hf
  change (l.subscriptions.erase subId).get id = some f at hf
  rw [OrderedMap.get_erase] at hf ⊢
  split_ifs at hf ⊢
  obtain ⟨f₀, hf₀, hcopy⟩ := h id f hf
  exact ⟨f₀, hf₀, { hcopy with }⟩

theorem handleRelayMessage (callbacks : RelayCallbacks) (h : Resumes wanted clock l)
    (h0 : 0 ≤ clock) {subId : String}
    (hsafe : ∀ f₀, wanted.get subId = some f₀ → movesCursor callbacks e = true →
      nextSince e ≤ clock ∧ ∀ e' ∈ l.due, e'.id ≠ e.id → f₀.accepts e' = true →
        (subId, e'.id) ∉ l.delivered → 0 ≤ e'.createdAt ∧ nextSince e ≤ e'.createdAt) :
    Resumes wanted clock (l.handleRelayMessage callbacks subId e) := by
  -- A copy that stays only loses an obligation.
  have hstays : ∀ id f, l.subscriptions.get id = some f → ∃ f₀, wanted.get id = some f₀ ∧
      Copies clock (l.handleRelayMessage callbacks subId e) id f₀ f := by
    intro id f hf
    obtain ⟨f₀, hf₀, hcopy⟩ := h id f hf
    exact ⟨f₀, hf₀, hcopy.since,
      fun e' he' hacc hd => hcopy.owed e' he' hacc fun hmem => hd (List.mem_cons_of_mem _ hmem),
      hcopy.fromNow⟩
  intro id f hf
  change OrderedMap.get (match l.subscriptions.get subId with
    | some filter => if movesCursor callbacks e then l.subscriptions.set subId (filter.advanced e)
      else l.subscriptions
    | none => l.subscriptions) id = some f at hf
  cases hget : l.subscriptions.get subId with
  | none => rw [hget] at hf; exact hstays id f hf
  | some filter =>
    rw [hget] at hf
    dsimp only at hf
    split_ifs at hf with hmoves
    · rw [OrderedMap.get_set] at hf
      split_ifs at hf with hid
      · subst hid
        obtain rfl := Option.some.inj hf
        obtain ⟨f₀, hf₀, hcopy⟩ := h id filter hget
        obtain ⟨hnow, howed⟩ := hsafe f₀ hf₀ hmoves
        exact ⟨f₀, hf₀, hcopy.advanced h0 hnow rfl rfl howed⟩
      · exact hstays id f hf
    · exact hstays id f hf

end Resumes

namespace Pool

variable {callbacks : RelayCallbacks} {w w' : Pool}

/-- What holds of the pool in every run: the time is not negative, every copy resumes, and a relay
that is connected owes all that it holds. -/
structure Sound (w : Pool) : Prop where
  time : 0 ≤ w.clock
  resumes : ∀ url l, w.relays.get url = some l → Resumes w.wanted w.clock l
  stock : ∀ url l, w.relays.get url = some l → l.status = .connected → l.stock ⊆ l.due

variable {url : String}

theorem onRelay_eq_ok {can : Link → Bool} {f : Link → Link}
    (h : w.onRelay url can f = .ok w') : ∃ l, w.relays.get url = some l ∧ can l = true ∧
      w' = { w with relays := w.relays.set url (f l) } := by
  unfold onRelay at h
  cases hget : w.relays.get url with
  | none => rw [hget] at h; cases h
  | some l =>
    rw [hget] at h
    dsimp only at h
    split_ifs at h with hcan
    exact ⟨l, rfl, hcan, (Except.ok.inj h).symm⟩

theorem Sound.set (h : w.Sound) {l : Link} (hl : Resumes w.wanted w.clock l)
    (hstock : l.status = .connected → l.stock ⊆ l.due) :
    Sound { w with relays := w.relays.set url l } where
  time := h.time
  resumes url' l' hget := by
    rw [OrderedMap.get_set] at hget
    split_ifs at hget
    · exact Option.some.inj hget ▸ hl
    · exact h.resumes url' l' hget
  stock url' l' hget := by
    rw [OrderedMap.get_set] at hget
    split_ifs at hget
    · exact Option.some.inj hget ▸ hstock
    · exact h.stock url' l' hget

theorem Sound.onRelay (h : w.Sound) {can : Link → Bool} {f : Link → Link}
    (hstep : w.onRelay url can f = .ok w')
    (hf : ∀ l, (f l).subscriptions = l.subscriptions ∧ (f l).delivered = l.delivered ∧
      (f l).due = l.due ∧ (f l).stock = l.stock ∧
      ((f l).status = .connected → l.status = .connected)) : w'.Sound := by
  obtain ⟨l, hget, -, rfl⟩ := onRelay_eq_ok hstep
  obtain ⟨hsubs, hdel, hdue, hstock, hstatus⟩ := hf l
  refine h.set ((h.resumes url l hget).of_due hsubs hdel fun e he => Or.inl (hdue ▸ he)) ?_
  intro hconn
  rw [hstock, hdue]
  exact h.stock url l hget (hstatus hconn)

theorem Sound.stored (h : w.Sound) (hsafe : w.Gapless callbacks (.store url e))
    (hstep : w.step callbacks (.store url e) = .ok w') : w'.Sound := by
  obtain ⟨l, hget, -, rfl⟩ := onRelay_eq_ok hstep
  refine h.set ((h.resumes url l hget).stored (hsafe l hget)) fun hconn => ?_
  have hdue : (l.stored w.clock e).due = l.due ++ [e] := if_pos (Or.inl hconn)
  rw [hdue]
  exact List.append_subset.mpr ⟨List.subset_append_of_subset_left _ (h.stock url l hget hconn),
    List.subset_append_right _ _⟩

theorem Sound.opened (h : w.Sound) (hsafe : w.Gapless callbacks (.opened url))
    (hstep : w.step callbacks (.opened url) = .ok w') : w'.Sound := by
  obtain ⟨l, hget, -, rfl⟩ := onRelay_eq_ok hstep
  refine h.set ((h.resumes url l hget).of_due rfl rfl fun e he => ?_) fun _ => List.Subset.refl _
  by_cases hdue : e ∈ l.due
  · exact Or.inl hdue
  · exact Or.inr (hsafe l hget e he hdue)

theorem Sound.delivered (h : w.Sound) {url subId : String} {i : ℕ}
    (hsafe : w.Gapless callbacks (.deliver url subId i))
    (hstep : w.step callbacks (.deliver url subId i) = .ok w') : w'.Sound := by
  obtain ⟨l, hget, -, rfl⟩ := onRelay_eq_ok hstep
  unfold Link.delivers
  split
  case h_1 e he =>
    exact h.set ((h.resumes url l hget).handleRelayMessage callbacks h.time
      fun f₀ hf₀ hmoves => hsafe l e f₀ hget he hf₀ hmoves) (h.stock url l hget)
  case h_2 => exact h.set (h.resumes url l hget) (h.stock url l hget)

theorem Sound.map (h : w.Sound) {wanted : OrderedMap String NostrFilter} {f : Link → Link}
    (hf : ∀ l, Resumes w.wanted w.clock l → Resumes wanted w.clock (f l))
    (hstock : ∀ l, (f l).status = l.status ∧ (f l).stock = l.stock ∧ (f l).due = l.due)
    (n : ℕ) : Sound { w with
      subscriptionCounter := n, wanted := wanted, relays := w.relays.map fun _ => f } where
  time := h.time
  resumes url l hget := by
    rw [OrderedMap.get_map] at hget
    obtain ⟨l, hl, rfl⟩ := Option.map_eq_some_iff.mp hget
    exact hf l (h.resumes url l hl)
  stock url l hget := by
    rw [OrderedMap.get_map] at hget
    obtain ⟨l, hl, rfl⟩ := Option.map_eq_some_iff.mp hget
    obtain ⟨hs, hst, hdue⟩ := hstock l
    rw [hs, hst, hdue]
    exact h.stock url l hl

theorem Sound.step (h : w.Sound) {e : PoolEvent} (hsafe : w.Gapless callbacks e)
    (hstep : w.step callbacks e = .ok w') : w'.Sound := by
  cases e with
  | tick time =>
    change (if w.clock ≤ time then _ else _) = _ at hstep
    split_ifs at hstep with ht
    obtain rfl := Except.ok.inj hstep
    refine ⟨JsNumber.le_trans h.time ht, fun url l hget subId f hf => ?_, h.stock⟩
    obtain ⟨f₀, hf₀, hcopy⟩ := h.resumes url l hget subId f hf
    exact ⟨f₀, hf₀, hcopy.tick ht⟩
  | store url e => exact h.stored hsafe hstep
  | subscribe label filter =>
    obtain rfl := Except.ok.inj hstep
    exact h.map (fun l hl => hl.subscribe _ filter) (fun l => ⟨rfl, rfl, rfl⟩) _
  | unsubscribe subId =>
    obtain rfl := Except.ok.inj hstep
    exact h.map (fun l hl => hl.unsubscribe subId) (fun l => ⟨rfl, rfl, rfl⟩) _
  | dial url =>
    refine h.onRelay hstep fun l => ?_
    unfold Link.dial
    split_ifs
    · exact ⟨rfl, rfl, rfl, rfl, id⟩
    · exact ⟨rfl, rfl, rfl, rfl, fun hconn => by cases hconn⟩
  | opened url => exact h.opened hsafe hstep
  | failed url =>
    exact h.onRelay hstep fun l => ⟨rfl, rfl, rfl, rfl, fun hconn => by cases hconn⟩
  | closed url =>
    refine h.onRelay hstep fun l => ⟨rfl, rfl, rfl, rfl, fun h => ?_⟩
    unfold Link.closed at h
    dsimp only at h
    split_ifs at h
    exact h
  | oversized url =>
    refine h.onRelay hstep fun l => ?_
    unfold Link.quarantine
    split_ifs
    · exact ⟨rfl, rfl, rfl, rfl, id⟩
    · exact ⟨rfl, rfl, rfl, rfl, fun hconn => by cases hconn⟩
  | deliver url subId i => exact h.delivered hsafe hstep

theorem Fresh.sound (h : w.Fresh) : w.Sound := by
  obtain ⟨htime, hwanted, hrelays⟩ := h
  refine ⟨htime, fun url l hget subId f hf => ?_, fun url l hget hconn => ?_⟩
  · have hsubs : l.subscriptions = .empty :=
      congrArg RelayConnection.subscriptions (hrelays url l hget)
    rw [hsubs] at hf
    cases hf
  · have hstatus : l.status = .disconnected :=
      congrArg RelayConnection.status (hrelays url l hget)
    rw [hstatus] at hconn
    cases hconn

/-- Whatever the order in which relays deliver, drop and come back: the filter that is sent again
matches every event that the relay owes and everything that is published from now on. -/
theorem resumes_without_gap (h : Run (step callbacks) Fresh (Gapless callbacks) w) {url : String}
    {l : Link} (hl : w.relays.get url = some l) {subId : String} {f : NostrFilter}
    (hf : l.subscriptions.get subId = some f) :
    ∃ f₀, w.wanted.get subId = some f₀ ∧
      (∀ e ∈ l.due, f₀.accepts e = true → (subId, e.id) ∉ l.delivered → f.accepts e = true) ∧
      (∀ e : RawEvent, w.clock ≤ e.createdAt → f₀.accepts e = true → f.accepts e = true) ∧
      (l.status = .connected → l.stock ⊆ l.due) := by
  have hsound : w.Sound := h.invariant (fun _ => Fresh.sound) fun _ _ _ hC hI => hI.step hC
  obtain ⟨f₀, hf₀, hcopy⟩ := hsound.resumes url l hl subId f hf
  exact ⟨f₀, hf₀, fun e => hcopy.accepts, fun e => hcopy.acceptsNow, hsound.stock url l hl⟩

/-! ### Two runs -/

def sampleRaw (id : String) (time : ℕ) (kind : EscrowEventKind) (hid : id ≠ "" := by decide)
    (htime : JsNumber.ofInt time ≠ .nan := by decide) : RawEvent where
  event :=
    { id := id, pubkey := "p", createdAt := .ofInt time, id_ne := hid, createdAt_ne := htime }
  kind := kind.number
  content := ""

def lenient : RelayCallbacks := ⟨fun _ => true, fun _ => false⟩

def samplePool : Pool where
  relays := OrderedMap.empty.set "r"
    { stock := [sampleRaw "lock" 100 .lock, sampleRaw "vote" 1000 .vote] }
  clock := 1000

theorem samplePool_fresh : samplePool.Fresh := by
  refine ⟨by decide, rfl, fun url l hget => ?_⟩
  rw [samplePool, OrderedMap.get_set] at hget
  split_ifs at hget
  · exact Option.some.inj hget ▸ rfl
  · cases hget

def connecting : List PoolEvent := [.dial "r", .opened "r"]

/-- Whether the relay is asked anew without an event that it owes. -/
def hasGap (w : Pool) (url subId : String) : Bool :=
  (w.relays.get url).any fun l => l.due.any fun e =>
    (w.wanted.get subId).any (·.accepts e) && !l.delivered.contains (subId, e.id) &&
    (l.asked.get subId).any fun f => !f.accepts e

/-- A relay that answers newest first and drops after one event is asked anew without the older
ones. -/
theorem resumed_past_stored_event : ∃ w url l subId f₀ f e,
    Reachable (step lenient) Fresh w ∧ w.relays.get url = some l ∧ e ∈ l.due ∧
      w.wanted.get subId = some f₀ ∧ f₀.accepts e = true ∧ (subId, e.id) ∉ l.delivered ∧
      l.asked.get subId = some f ∧ f.accepts e = false := by
  have hrun : ∃ w, Reachable (step lenient) Fresh w ∧ w.hasGap "r" "sm_sub_1" = true :=
    Run.exists_of_checked samplePool_fresh (fun _ _ => true) (fun _ _ _ => trivial)
      (connecting ++ [.subscribe "sm_sub_" {}, .deliver "r" "sm_sub_1" 1, .closed "r"] ++
        connecting) (by decide +kernel)
  obtain ⟨w, hrun, hgap⟩ := hrun
  obtain ⟨l, hl, hdue⟩ := (Option.any_eq_true _ _).mp hgap
  obtain ⟨e, he, hcheck⟩ := List.any_eq_true.mp hdue
  simp only [Bool.and_eq_true, Bool.not_eq_true', Option.any_eq_true] at hcheck
  obtain ⟨⟨⟨f₀, hf₀, hacc⟩, hdel⟩, f, hf, hmiss⟩ := hcheck
  refine ⟨w, "r", l, "sm_sub_1", f₀, f, e, hrun, hl, he, hf₀, hacc, ?_, hf, hmiss⟩
  intro hmem
  rw [List.contains_iff_mem.mpr hmem] at hdel
  cases hdel

/-- Whether the relay has been asked, has sent something, and owes more. -/
def isMidway (w : Pool) (url subId : String) : Bool :=
  (w.relays.get url).any fun l => (l.subscriptions.get subId).isSome && !l.delivered.isEmpty &&
    l.due.any fun e =>
      (w.wanted.get subId).any (·.accepts e) && !l.delivered.contains (subId, e.id)

def leavesNoGap (w : Pool) : PoolEvent → Bool
  | .store url e => (w.relays.get url).all fun l => l.status ≠ .connected || w.clock ≤ e.createdAt
  | .opened url => (w.relays.get url).all fun l =>
    l.subscriptions.entries.all fun copy => l.stock.all fun e => copy.2.admits e.createdAt
  | .deliver url _ i => (w.relays.get url).all fun l => (l.stock[i]?).all fun e =>
    nextSince e ≤ w.clock &&
    l.due.all fun e' => e'.id = e.id || (0 ≤ e'.createdAt && nextSince e ≤ e'.createdAt)
  | _ => true

theorem gapless_of_leavesNoGap (w : Pool) (e : PoolEvent) (h : leavesNoGap w e = true) :
    w.Gapless callbacks e := by
  cases e with
  | store url e =>
    intro l hl hconn hpast
    rw [leavesNoGap, hl, Option.all_some] at h
    rcases Bool.or_eq_true_iff.mp h with hdown | hnow
    · exact absurd hconn (of_decide_eq_true hdown)
    · exact absurd (of_decide_eq_true hnow) hpast
  | opened url =>
    rintro l hl e he - ⟨subId, f, f₀, hf, -, -, -, hadm⟩
    rw [leavesNoGap, hl, Option.all_some] at h
    have hcopy := List.all_eq_true.mp h _ ((OrderedMap.get_eq_some_iff _ _ _).mp hf)
    rw [List.all_eq_true.mp hcopy e he] at hadm
    cases hadm
  | deliver url subId i =>
    intro l e f₀ hl he _ _
    rw [leavesNoGap, hl, Option.all_some, he, Option.all_some] at h
    obtain ⟨hnow, hall⟩ := Bool.and_eq_true_iff.mp h
    refine ⟨of_decide_eq_true hnow, fun e' he' hne _ _ => ?_⟩
    rcases Bool.or_eq_true_iff.mp (List.all_eq_true.mp hall e' he') with hid | hle
    · exact absurd (of_decide_eq_true hid) hne
    · obtain ⟨h0, hle⟩ := Bool.and_eq_true_iff.mp hle
      exact ⟨of_decide_eq_true h0, of_decide_eq_true hle⟩
  | _ => trivial

/-- A relay that answers oldest first is asked anew for the rest. -/
theorem resumes_oldest_first : ∃ (w : Pool) (l : Link) (f : NostrFilter) (e : RawEvent),
    w.relays.get "r" = some l ∧ l.subscriptions.get "sm_sub_1" = some f ∧ e ∈ l.due ∧
      ("sm_sub_1", e.id) ∉ l.delivered ∧ l.delivered ≠ [] ∧ f.accepts e = true := by
  have hrun : ∃ w, Run (step lenient) Fresh (Gapless lenient) w ∧
      w.isMidway "r" "sm_sub_1" = true :=
    Run.exists_of_checked samplePool_fresh leavesNoGap gapless_of_leavesNoGap
      (connecting ++ [.subscribe "sm_sub_" {}, .deliver "r" "sm_sub_1" 0, .closed "r"] ++
        connecting) (by decide +kernel)
  obtain ⟨w, hrun, htest⟩ := hrun
  obtain ⟨l, hl, hcheck⟩ := (Option.any_eq_true _ _).mp htest
  simp only [Bool.and_eq_true, Bool.not_eq_true', List.any_eq_true, Option.any_eq_true,
    Option.isSome_iff_exists] at hcheck
  obtain ⟨⟨⟨f, hf⟩, hsent⟩, e, he, ⟨f₀, hf₀, hacc⟩, hdel⟩ := hcheck
  have hnot : ("sm_sub_1", e.id) ∉ l.delivered := fun hmem => by
    rw [List.contains_iff_mem.mpr hmem] at hdel
    cases hdel
  refine ⟨w, l, f, e, hl, hf, he, hnot, (fun hnil => by rw [hnil] at hsent; cases hsent), ?_⟩
  obtain ⟨f₁, hf₁, howed, -⟩ := resumes_without_gap hrun hl hf
  obtain rfl := Option.some.inj (hf₀.symm.trans hf₁)
  exact howed e he hacc hnot

end Pool

end Relay

end ChamaEscrow
