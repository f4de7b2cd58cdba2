import ChamaEscrow.Client.RelayCursor
import ChamaEscrow.Library.Sorted

/-!
# One-shot reads of the relays

The reads that end when the relays have answered (`fetchOnce` of `relay-manager.ts`), the probe that
says how one ended (`discovery-diagnostics.ts`), and the load of a circle's children that rests on
one (`loadChildren` of `escrow-client.ts`).  A session is the pool of relays with its reads: sockets
drop, come up and join in any order, and a relay that has a socket sends any frame.

* `eose_hears_every_relay`: a read that ends with `eose` has heard every relay it asked if and only
  if no `EOSE` was counted twice for a relay or came from one that it had not asked.
* `eose_of_late_relay`: a relay that joins after the requests ends the read of a silent one, and the
  view of a circle counts as complete.
-/

namespace ChamaEscrow

open Js Library

namespace Relay

/-! ### The probe -/

inductive ResolvedBy
  | eose
  | eoseQuorum
  | timeout
  | noRelays
  | pending
  deriving DecidableEq

/-- `RelayProbeRow`, under the relay's url. -/
structure RelayProbeRow where
  connected : Bool := false
  reqSent : Bool := false
  events : ℕ := 0
  eose : Bool := false

structure FetchProbe where
  rows : OrderedMap String RelayProbeRow := .empty
  resolvedBy : ResolvedBy := .pending

namespace FetchProbe

def row (p : FetchProbe) (url : String) : RelayProbeRow := (p.rows.get url).getD {}

def noteDispatch (p : FetchProbe) (url : String) (connected reqSent : Bool) : FetchProbe :=
  { p with rows := p.rows.set url { p.row url with connected := connected, reqSent := reqSent } }

def noteEvent (p : FetchProbe) (url : String) : FetchProbe :=
  { p with rows := p.rows.set url { p.row url with events := (p.row url).events + 1 } }

def noteEose (p : FetchProbe) (url : String) : FetchProbe :=
  { p with rows := p.rows.set url { p.row url with eose := true } }

/-- `noteResolved`: the first one stays. -/
def noteResolved (p : FetchProbe) (how : ResolvedBy) : FetchProbe :=
  if p.resolvedBy = .pending then { p with resolvedBy := how } else p

end FetchProbe

/-! ### A read -/

/-- `PendingOnceFetch`, with its filter, whether it is still pending, and two records that the code
does not keep: the relays that were connected when the requests went out, and those whose `EOSE` was
counted, one entry a frame. -/
structure OnceFetch where
  filter : NostrFilter
  events : List RawEvent := []
  seenIds : List String := []
  eoseCount : ℕ := 0
  connectedCount : ℕ
  probe : FetchProbe
  graceTimer : Bool := false
  waitForEveryRelay : Bool
  awaitedIds : Option (List String)
  pending : Bool := true
  asked : List String
  heard : List String := []

namespace OnceFetch

/-- `noteResolved` and `finalizeOnceFetch`. -/
def resolve (f : OnceFetch) (how : ResolvedBy) : OnceFetch :=
  { f with probe := f.probe.noteResolved how, pending := false }

/-- An `EOSE` frame for the read. -/
def hearEose (effectiveQuorum : ℕ) (url : String) (f : OnceFetch) : OnceFetch :=
  let f := { f with
    probe := f.probe.noteEose url, eoseCount := f.eoseCount + 1, heard := url :: f.heard }
  let quorum := min f.connectedCount effectiveQuorum
  if f.connectedCount ≤ f.eoseCount then f.resolve .eose
  else if quorum ≤ f.eoseCount ∧ f.graceTimer = false ∧ f.waitForEveryRelay = false then
    { f with graceTimer := true }
  else f

/-- An `EVENT` frame for the read.  A lookup by id ends with the last id, and says nothing of how it
ended. -/
def hearEvent (url : String) (e : RawEvent) (f : OnceFetch) : OnceFetch :=
  let f := { f with probe := f.probe.noteEvent url }
  if e.id ∈ f.seenIds then f
  else
    let awaited := f.awaitedIds.map (·.filter (· ≠ e.id))
    { f with
      seenIds := f.seenIds ++ [e.id], events := f.events ++ [e], awaitedIds := awaited
      pending := !(awaited == some [] && f.awaitedIds.any (·.contains e.id)) }

def graceEnds (f : OnceFetch) : OnceFetch := f.resolve .eoseQuorum

def timesOut (f : OnceFetch) : OnceFetch := f.resolve .timeout

/-- Every relay that was connected when the requests were sent has itself sent `EOSE`. -/
def EveryRelayAnswered (f : OnceFetch) : Prop :=
  ∀ url, (f.probe.row url).connected = true → (f.probe.row url).eose = true

/-- Every `EOSE` that was counted is the only one of its relay, which was connected when the
requests were sent. -/
def HeardOnceEach (f : OnceFetch) : Prop :=
  f.heard.Nodup ∧ ∀ url ∈ f.heard, (f.probe.row url).connected = true

end OnceFetch

/-! ### Loading a circle's children -/

/-- The filter of `fetchChildCreates`. -/
def childCreates (parentId : String) : NostrFilter :=
  { kinds := some [EscrowEventKind.create.number], tags := [("parent", [parentId])] }

/-- A call of `loadChildren` under way, with the subscription of its read once that is sent. -/
structure ChildrenLoad where
  parentId : String
  subId : Option String := none

inductive ChildLoad
  | loaded (parent : Option String)
  | missing
  | failed
  | needsApproval
  deriving DecidableEq

def childIds (parse : String → Option JsValue) (parentId : String) (creates : List RawEvent) :
    List String :=
  (creates.filterMap fun e =>
    if (parse e.content).any fun v => (v.getOptional "parent").text? == some parentId then
      (e.event.tags.find? fun tag => tag.head? == some "d").bind fun tag =>
        (tag[1]?).filter (· ≠ "")
    else none).dedup

/-! ### The session -/

/-- The pool of relays with the reads made so far, the loads of children under way, and the circles
whose view counts as complete (`chamaViewComplete`). -/
structure Session extends Pool where
  fetches : OrderedMap String OnceFetch := .empty
  loads : List ChildrenLoad := []
  viewComplete : List String := []

inductive SessionEvent
  /-- Anything of the pool but a delivery, which is a frame here. -/
  | pool (e : PoolEvent)
  /-- A socket that cannot be made. -/
  | refused (url : String)
  /-- A relay joins; dialling it is a step of its own. -/
  | addRelay (url : String)
  | removeRelay (url : String)
  | disconnect
  | forceReconnectAll
  | fetchOnce (filter : NostrFilter) (waitForEveryRelay : Bool) (throwing : List String)
  | event (url subId : String) (e : RawEvent)
  | eose (url subId : String)
  | graceEnds (subId : String)
  | timesOut (subId : String)
  | loadChildren (parentId : String)
  /-- The read of a load is sent, after the wait for a quorum. -/
  | dispatch (i : ℕ) (throwing : List String)
  /-- The children of a load are loaded, its read being over. -/
  | loaded (i : ℕ) (child : String → ChildLoad)
  /-- A refund pass drops the mark of a circle that it could not load. -/
  | dropView (parentId : String)

namespace Link

/-- `connectRelay` where the socket cannot be made. -/
def refused (l : Link) : Link :=
  if l.quarantined ∨ l.status = .connecting ∨ l.status = .connected then l
  else { l with status := .error }

/-- What `disconnect` does with one relay. -/
def disconnected (l : Link) : Link :=
  { l with
    ws := false, status := .disconnected, quarantined := false, subscriptions := .empty
    asked := .empty }

/-- What `forceReconnectAll` does with one relay before it dials. -/
def forceReconnect (l : Link) : Link :=
  if l.status = .connected then l else { l with quarantined := false }

def request (subId : String) (filter : NostrFilter) (throws : Bool) (l : Link) : Link :=
  if throws then { l with subscriptions := l.subscriptions.set subId filter }
  else l.subscribe subId filter

end Link

namespace Session

variable (callbacks : RelayCallbacks) (parse : String → Option JsValue)

def effectiveQuorum (s : Session) : ℕ := max 1 (min 3 (s.relays.keys.length - 1))

def connectedUrls (s : Session) : List String :=
  (s.relays.entries.filter fun r => r.2.status = .connected).map Prod.fst

def nextSubId (s : Session) : String := "sm_fetch_once_" ++ toString (s.subscriptionCounter + 1)

def noteRequest (throwing : List String) (p : FetchProbe) (r : String × Link) : FetchProbe :=
  let connected : Bool := r.2.status = .connected
  p.noteDispatch r.1 connected (connected && r.2.ws && !throwing.contains r.1)

/-- The state of a read as its requests go out. -/
def newFetch (s : Session) (filter : NostrFilter) (waitForEveryRelay : Bool)
    (throwing : List String) : OnceFetch where
  filter := filter
  connectedCount := s.connectedUrls.length
  probe := s.relays.entries.foldl (noteRequest throwing) {}
  waitForEveryRelay := waitForEveryRelay
  awaitedIds := if waitForEveryRelay then filter.ids.map List.dedup else none
  asked := s.connectedUrls

/-- `fetchOnce` after its wait, where a relay is connected. -/
def fetchOnce (s : Session) (filter : NostrFilter) (waitForEveryRelay : Bool)
    (throwing : List String) : Session :=
  { s with
    subscriptionCounter := s.subscriptionCounter + 1
    wanted := s.wanted.set s.nextSubId filter
    relays := s.relays.map fun url => Link.request s.nextSubId filter (throwing.contains url)
    fetches := s.fetches.set s.nextSubId (s.newFetch filter waitForEveryRelay throwing) }

/-- A change of a read.  One that is over is unsubscribed. -/
def settle (s : Session) (subId : String) (f : OnceFetch) : Session :=
  if f.pending then { s with fetches := s.fetches.set subId f }
  else { s with
    fetches := s.fetches.set subId f
    wanted := s.wanted.erase subId
    relays := s.relays.map fun _ => Link.unsubscribe subId }

def onPending (s : Session) (subId : String) (g : OnceFetch → OnceFetch) : Session :=
  match s.fetches.get subId with
  | some f => if f.pending then s.settle subId (g f) else s
  | none => s

/-- Whether an event passes the checks of `handleRelayMessage`. -/
def receives (e : RawEvent) : Bool :=
  unitCount e.content ≤ maxEventContentBytes && callbacks.verifyEvent e &&
  !callbacks.shouldDropEvent e

/-- An `EVENT` frame. -/
def hearEvent (s : Session) (url subId : String) (l : Link) (e : RawEvent) : Session :=
  let s := { s with relays := s.relays.set url (l.handleRelayMessage callbacks subId e) }
  if receives callbacks e then s.onPending subId (OnceFetch.hearEvent url e) else s

/-- The end of `loadChildren` for a read that has ended. -/
def finishLoad (s : Session) (i : ℕ) (parentId : String) (f : OnceFetch)
    (child : String → ChildLoad) : Session :=
  let ids := childIds parse parentId f.events
  let children := ids.filter fun id => child id = .loaded (some parentId)
  { s with
    loads := s.loads.eraseIdx i
    viewComplete :=
      if (∃ id ∈ ids, child id = .needsApproval) then s.viewComplete
      else if f.probe.resolvedBy = .eose ∧ children.length = ids.length then
        parentId :: s.viewComplete
      else s.viewComplete }

def onTimer (s : Session) (subId : String) (runs : OnceFetch → Bool)
    (g : OnceFetch → OnceFetch) : Except Unit Session :=
  match s.fetches.get subId with
  | some f => if f.pending && runs f then .ok (s.settle subId (g f)) else .error ()
  | none => .error ()

def onFrame (s : Session) (url : String) (g : Link → Session) : Except Unit Session :=
  match s.relays.get url with
  | some l => if l.ws then .ok (g l) else .error ()
  | none => .error ()

/-- The dispatch of the read of a load.  Without a relay that is connected the load ends without a
mark. -/
def dispatchLoad (s : Session) (i : ℕ) (load : ChildrenLoad) (throwing : List String) : Session :=
  if s.connectedUrls = [] then { s with loads := s.loads.eraseIdx i }
  else { s.fetchOnce (childCreates load.parentId) false throwing with
    loads := s.loads.set i { load with subId := some s.nextSubId } }

def step (s : Session) : SessionEvent → Except Unit Session
  | .pool (.deliver _ _ _) => .error ()
  | .pool e => (s.toPool.step callbacks e).map fun w => { s with toPool := w }
  | .refused url =>
    (s.toPool.onRelay url (fun _ => true) Link.refused).map fun w => { s with toPool := w }
  | .addRelay url =>
    if (s.relays.get url).isSome then .error ()
    else .ok { s with relays := s.relays.set url {} }
  | .removeRelay url => .ok { s with relays := s.relays.erase url }
  | .disconnect => .ok { s with relays := s.relays.map fun _ => Link.disconnected }
  | .forceReconnectAll => .ok { s with relays := s.relays.map fun _ => Link.forceReconnect }
  | .fetchOnce filter waitForEveryRelay throwing =>
    if s.connectedUrls = [] then .error ()
    else .ok (s.fetchOnce filter waitForEveryRelay throwing)
  | .event url subId e => s.onFrame url fun l => s.hearEvent callbacks url subId l e
  | .eose url subId =>
    s.onFrame url fun _ => s.onPending subId (OnceFetch.hearEose s.effectiveQuorum url)
  | .graceEnds subId => s.onTimer subId (fun f => f.graceTimer) OnceFetch.graceEnds
  | .timesOut subId => s.onTimer subId (fun _ => true) OnceFetch.timesOut
  | .loadChildren parentId =>
    .ok { s with
      loads := s.loads ++ [{ parentId := parentId }]
      viewComplete := s.viewComplete.filter (· ≠ parentId) }
  | .dispatch i throwing =>
    match s.loads[i]? with
    | some load =>
      if load.subId.isSome then .error () else .ok (s.dispatchLoad i load throwing)
    | none => .error ()
  | .loaded i child =>
    match s.loads[i]? with
    | some load =>
      match load.subId.bind s.fetches.get with
      | some f =>
        if f.pending then .error () else .ok (s.finishLoad parse i load.parentId f child)
      | none => .error ()
    | none => .error ()
  | .dropView parentId =>
    .ok { s with viewComplete := s.viewComplete.filter (· ≠ parentId) }

/-- No relay is connected, nothing is subscribed, and nothing has been read. -/
def Fresh (s : Session) : Prop :=
  s.toPool.Fresh ∧ s.fetches = .empty ∧ s.loads = [] ∧ s.viewComplete = []

/-- The steps that count no `EOSE` twice for a relay, and none of a relay that the read did not
ask. -/
def FirstAnswer (s : Session) : SessionEvent → Prop
  | .eose url subId => ∀ f, s.fetches.get subId = some f → f.pending = true →
    (f.probe.row url).connected = true ∧ (f.probe.row url).eose = false
  | _ => True

/-- Every read that ended with `eose` has heard every relay. -/
def ReadsHeard (s : Session) : Prop :=
  ∀ subId f, s.fetches.get subId = some f → f.probe.resolvedBy = .eose → f.EveryRelayAnswered

/-- Every circle whose view counts as complete has been read so. -/
def ViewsHeard (s : Session) : Prop :=
  ∀ parentId ∈ s.viewComplete, ∃ subId f, s.fetches.get subId = some f ∧
    f.filter = childCreates parentId ∧ f.probe.resolvedBy = .eose ∧ f.EveryRelayAnswered

end Session

/-! ### Counting the answers -/

namespace FetchProbe

theorem row_noteEose (p : FetchProbe) (url url' : String) :
    (p.noteEose url).row url' = if url' = url then { p.row url with eose := true }
      else p.row url' := by
  unfold noteEose row
  rw [OrderedMap.get_set]
  split_ifs <;> rfl

theorem row_noteEvent (p : FetchProbe) (url url' : String) :
    (p.noteEvent url).row url' = if url' = url then
      { p.row url with events := (p.row url).events + 1 } else p.row url' := by
  unfold noteEvent row
  rw [OrderedMap.get_set]
  split_ifs <;> rfl

theorem row_noteDispatch (p : FetchProbe) (url url' : String) (connected reqSent : Bool) :
    (p.noteDispatch url connected reqSent).row url' = if url' = url then
      { p.row url with connected := connected, reqSent := reqSent } else p.row url' := by
  unfold noteDispatch row
  rw [OrderedMap.get_set]
  split_ifs <;> rfl

theorem row_noteResolved (p : FetchProbe) (how : ResolvedBy) (url : String) :
    (p.noteResolved how).row url = p.row url := by
  unfold noteResolved
  split_ifs <;> rfl

end FetchProbe

namespace OnceFetch

/-- The relays that were asked and the frames that were counted are those of the probe's rows. -/
structure Tallied (f : OnceFetch) : Prop where
  nodup : f.asked.Nodup
  connectedCount : f.connectedCount = f.asked.length
  eoseCount : f.eoseCount = f.heard.length
  asked : ∀ url, url ∈ f.asked ↔ (f.probe.row url).connected = true
  heard : ∀ url, url ∈ f.heard ↔ (f.probe.row url).eose = true

/-- What the counters of a read say in every run: it ends with `eose` at as many frames as
relays. -/
structure Counted (f : OnceFetch) : Prop extends f.Tallied where
  running : f.pending = true →
    f.eoseCount < f.connectedCount ∧ f.probe.resolvedBy = .pending
  ended : f.probe.resolvedBy = .eose → f.eoseCount = f.connectedCount

variable {f : OnceFetch}

theorem Counted.everyRelayAnswered_iff (h : f.Counted) (hended : f.probe.resolvedBy = .eose) :
    f.EveryRelayAnswered ↔ f.HeardOnceEach := by
  have hlength : f.heard.length = f.asked.length := by
    rw [← h.eoseCount, ← h.connectedCount]
    exact h.ended hended
  have hanswered : f.EveryRelayAnswered ↔ f.asked ⊆ f.heard :=
    forall_congr' fun url => imp_congr (h.asked url).symm (h.heard url).symm
  have hconnected : (∀ url ∈ f.heard, (f.probe.row url).connected = true) ↔ f.heard ⊆ f.asked :=
    forall_congr' fun url => imp_congr_right fun _ => (h.asked url).symm
  unfold HeardOnceEach
  rw [hanswered, hconnected]
  constructor
  · intro hsub
    have hperm := (List.subperm_of_subset h.nodup hsub).perm_of_length_le hlength.le
    exact ⟨hperm.nodup_iff.mp h.nodup, hperm.symm.subset⟩
  · rintro ⟨hnodup, hsub⟩
    exact subset_of_nodup_of_length hnodup hsub hlength.ge

theorem Tallied.resolve (h : f.Tallied) (how : ResolvedBy) : (f.resolve how).Tallied where
  nodup := h.nodup
  connectedCount := h.connectedCount
  eoseCount := h.eoseCount
  asked url := (f.probe.row_noteResolved how url).symm ▸ h.asked url
  heard url := (f.probe.row_noteResolved how url).symm ▸ h.heard url

/-- A read that ends says `eose` only at as many frames as relays. -/
theorem Tallied.counted_resolve (h : f.Tallied) {how : ResolvedBy}
    (hresolved : f.probe.resolvedBy = .pending)
    (hhow : how = .eose → f.eoseCount = f.connectedCount) : (f.resolve how).Counted where
  toTallied := h.resolve how
  running hpending := by cases hpending
  ended hended := by
    have hnoted : (f.probe.noteResolved how).resolvedBy = how := by
      unfold FetchProbe.noteResolved
      rw [if_pos hresolved]
    exact hhow (hnoted.symm.trans hended)

theorem Counted.hearEvent (h : f.Counted) (hpending : f.pending = true) (url : String)
    (e : RawEvent) : (f.hearEvent url e).Counted := by
  have hrow : ∀ url', ((f.probe.noteEvent url).row url').connected = (f.probe.row url').connected ∧
      ((f.probe.noteEvent url).row url').eose = (f.probe.row url').eose := by
    intro url'
    rw [FetchProbe.row_noteEvent]
    split_ifs with hurl
    · exact hurl ▸ ⟨rfl, rfl⟩
    · exact ⟨rfl, rfl⟩
  have hnoted : Counted { f with probe := f.probe.noteEvent url } :=
    { h with
      asked := fun url' => (hrow url').1 ▸ h.asked url'
      heard := fun url' => (hrow url').2 ▸ h.heard url' }
  unfold OnceFetch.hearEvent
  dsimp only
  split_ifs
  · exact hnoted
  · exact { hnoted with running := fun _ => h.running hpending }

theorem Tallied.hearEose (h : f.Tallied) (url : String) : Tallied { f with
    probe := f.probe.noteEose url, eoseCount := f.eoseCount + 1, heard := url :: f.heard } where
  nodup := h.nodup
  connectedCount := h.connectedCount
  eoseCount := congrArg (· + 1) h.eoseCount
  asked url' := by
    rw [h.asked, FetchProbe.row_noteEose]
    split_ifs with hurl
    · exact hurl ▸ Iff.rfl
    · exact Iff.rfl
  heard url' := by
    rw [List.mem_cons, h.heard, FetchProbe.row_noteEose]
    split_ifs with hurl
    · exact ⟨fun _ => rfl, fun _ => Or.inl hurl⟩
    · exact or_iff_right hurl

theorem Counted.hearEose (h : f.Counted) (hpending : f.pending = true) (effectiveQuorum : ℕ)
    (url : String) : (f.hearEose effectiveQuorum url).Counted := by
  obtain ⟨hless, hresolved⟩ := h.running hpending
  have htallied := h.toTallied.hearEose url
  unfold OnceFetch.hearEose
  dsimp only
  split_ifs with hlast
  · exact htallied.counted_resolve hresolved fun _ => le_antisymm hless hlast
  all_goals
    have hended : ResolvedBy.eose ≠ f.probe.resolvedBy := by
      rw [hresolved]
      exact ResolvedBy.noConfusion
    exact { htallied with
      running := fun _ => ⟨not_le.mp hlast, hresolved⟩
      ended := fun heose => absurd heose.symm hended }

/-- A first answer of a relay that was asked keeps the answers single. -/
theorem HeardOnceEach.hearEose (h : f.HeardOnceEach) (hf : f.Tallied) {url : String}
    (hconnected : (f.probe.row url).connected = true) (hfirst : (f.probe.row url).eose = false)
    (effectiveQuorum : ℕ) : (f.hearEose effectiveQuorum url).HeardOnceEach := by
  have hnew : url ∉ f.heard := fun hmem => by
    rw [(hf.heard url).mp hmem] at hfirst
    cases hfirst
  have hasked : url ∈ f.asked := (hf.asked url).mpr hconnected
  have hnext := hf.hearEose url
  have hnoted : (url :: f.heard).Nodup ∧ ∀ url' ∈ url :: f.heard,
      ((f.probe.noteEose url).row url').connected = true := by
    refine ⟨List.nodup_cons.mpr ⟨hnew, h.1⟩, fun url' hmem => (hnext.asked url').mp ?_⟩
    rcases List.mem_cons.mp hmem with rfl | hold
    · exact hasked
    · exact (hf.asked url').mpr (h.2 url' hold)
  unfold OnceFetch.hearEose
  dsimp only
  split_ifs
  · refine ⟨hnoted.1, fun url' hmem => ?_⟩
    exact (congrArg (·.connected) (FetchProbe.row_noteResolved _ _ _)).trans (hnoted.2 url' hmem)
  · exact hnoted
  · exact hnoted

theorem HeardOnceEach.hearEvent (h : f.HeardOnceEach) (url : String) (e : RawEvent) :
    (f.hearEvent url e).HeardOnceEach := by
  have hnoted : ∀ url' ∈ f.heard, ((f.probe.noteEvent url).row url').connected = true := by
    intro url' hmem
    rw [FetchProbe.row_noteEvent]
    split_ifs with hurl
    · exact hurl ▸ h.2 url' hmem
    · exact h.2 url' hmem
  unfold OnceFetch.hearEvent
  dsimp only
  split_ifs
  · exact ⟨h.1, hnoted⟩
  · exact ⟨h.1, hnoted⟩

theorem HeardOnceEach.resolve (h : f.HeardOnceEach) (how : ResolvedBy) :
    (f.resolve how).HeardOnceEach :=
  ⟨h.1, fun url hmem =>
    (congrArg (·.connected) (f.probe.row_noteResolved how url)).trans (h.2 url hmem)⟩

end OnceFetch

namespace Session

/-! ### Sending the requests -/

section Requests

variable (throwing : List String)

theorem connected_requests (l : List (String × Link)) (hl : (l.map Prod.fst).Nodup)
    (p : FetchProbe) (url : String) :
    ((l.foldl (noteRequest throwing) p).row url).connected = true ↔
      url ∈ (l.filter fun r => r.2.status = .connected).map Prod.fst ∨
      url ∉ l.map Prod.fst ∧ (p.row url).connected = true := by
  induction l generalizing p with
  | nil => simp
  | cons r rest ih =>
    rw [List.map_cons, List.nodup_cons] at hl
    rw [List.foldl_cons, ih hl.2, noteRequest, FetchProbe.row_noteDispatch]
    by_cases hurl : url = r.1
    · by_cases hconn : r.2.status = .connected
      · simp [hurl, hconn, hl.1]
      · subst hurl
        simp [hconn, hl.1]
    · by_cases hconn : r.2.status = .connected <;> simp [hurl, hconn]

theorem eose_requests (l : List (String × Link)) (p : FetchProbe) (url : String) :
    ((l.foldl (noteRequest throwing) p).row url).eose = (p.row url).eose := by
  induction l generalizing p with
  | nil => rfl
  | cons r rest ih =>
    rw [List.foldl_cons, ih, noteRequest, FetchProbe.row_noteDispatch]
    split_ifs with hurl
    · rw [hurl]
    · rfl

theorem resolvedBy_requests (l : List (String × Link)) (p : FetchProbe) :
    (l.foldl (noteRequest throwing) p).resolvedBy = p.resolvedBy := by
  induction l generalizing p with
  | nil => rfl
  | cons r rest ih => exact ih _

end Requests

theorem counted_newFetch (s : Session) (filter : NostrFilter) (waitForEveryRelay : Bool)
    (throwing : List String) (h : s.connectedUrls ≠ []) :
    (s.newFetch filter waitForEveryRelay throwing).Counted where
  nodup := (List.filter_sublist.map _).nodup s.relays.nodup
  connectedCount := rfl
  eoseCount := rfl
  asked url := by
    change url ∈ s.connectedUrls ↔
      ((s.relays.entries.foldl (noteRequest throwing) {}).row url).connected = true
    rw [connected_requests throwing _ s.relays.nodup]
    exact ⟨Or.inl, fun h => h.resolve_right fun h => by cases h.2⟩
  heard url := by
    change url ∈ [] ↔ ((s.relays.entries.foldl (noteRequest throwing) {}).row url).eose = true
    rw [eose_requests]
    exact ⟨fun h => (by cases h), fun h => (by cases h)⟩
  running _ := ⟨List.length_pos_iff.mpr h, resolvedBy_requests throwing _ _⟩
  ended hended := by
    change (s.relays.entries.foldl (noteRequest throwing) {}).resolvedBy = .eose at hended
    rw [resolvedBy_requests] at hended
    cases hended

/-! ### What a step does to the reads -/

variable {callbacks : RelayCallbacks} {parse : String → Option JsValue} {s s' : Session}

inductive Hears (s : Session) (e : SessionEvent) (subId : String) (f : OnceFetch) :
    OnceFetch → Prop
  | eose (url : String) (h : e = .eose url subId) :
    Hears s e subId f (f.hearEose s.effectiveQuorum url)
  | event (url : String) (raw : RawEvent) : Hears s e subId f (f.hearEvent url raw)
  | ended (how : ResolvedBy) (h : how ≠ .eose) : Hears s e subId f (f.resolve how)

/-- A read of a circle's children has ended with `eose`. -/
def Certified (s : Session) (parentId : String) : Prop :=
  ∃ subId f, s.fetches.get subId = some f ∧ f.filter = childCreates parentId ∧
    f.probe.resolvedBy = .eose

/-- What a step does to the reads: none changes, one is sent, or one hears something. -/
inductive Change (s : Session) (e : SessionEvent) (s' : Session) : Prop
  | none (hfetches : s'.fetches = s.fetches)
    (hcounter : s.subscriptionCounter ≤ s'.subscriptionCounter)
    (hloads : ∀ load ∈ s'.loads, load ∈ s.loads ∨ load.subId = .none)
    (hviews : ∀ parentId ∈ s'.viewComplete, parentId ∈ s.viewComplete ∨
      ∃ load ∈ s.loads, ∃ subId f, load.parentId = parentId ∧ load.subId = some subId ∧
        s.fetches.get subId = some f ∧ f.probe.resolvedBy = .eose)
  | sent (filter : NostrFilter) (waitForEveryRelay : Bool) (throwing : List String)
    (hconnected : s.connectedUrls ≠ [])
    (hfetches : s'.fetches =
      s.fetches.set s.nextSubId (s.newFetch filter waitForEveryRelay throwing))
    (hcounter : s'.subscriptionCounter = s.subscriptionCounter + 1)
    (hloads : ∀ load ∈ s'.loads, load ∈ s.loads ∨
      load.subId = some s.nextSubId ∧ filter = childCreates load.parentId)
    (hviews : s'.viewComplete = s.viewComplete)
  | heard {subId : String} {f f' : OnceFetch} (hf : s.fetches.get subId = some f)
    (hpending : f.pending = true) (hhears : Hears s e subId f f')
    (hfetches : s'.fetches = s.fetches.set subId f')
    (hcounter : s'.subscriptionCounter = s.subscriptionCounter) (hloads : s'.loads = s.loads)
    (hviews : s'.viewComplete = s.viewComplete)

variable {e : SessionEvent}

theorem Change.of_connections (hfetches : s'.fetches = s.fetches)
    (hcounter : s.subscriptionCounter ≤ s'.subscriptionCounter) (hloads : s'.loads = s.loads)
    (hviews : s'.viewComplete = s.viewComplete) : Change s e s' :=
  .none hfetches hcounter (fun _ h => Or.inl (hloads ▸ h)) fun _ h => Or.inl (hviews ▸ h)

structure SameReads (s t : Session) : Prop where
  fetches : t.fetches = s.fetches
  counter : t.subscriptionCounter = s.subscriptionCounter
  loads : t.loads = s.loads
  viewComplete : t.viewComplete = s.viewComplete

variable {t : Session}

theorem SameReads.change (h : SameReads s t) : Change s e t :=
  .of_connections h.fetches h.counter.ge h.loads h.viewComplete

variable {subId : String}

theorem SameReads.settle (h : SameReads s t)
    {f f' : OnceFetch} (hf : s.fetches.get subId = some f) (hpending : f.pending = true)
    (hhears : Hears s e subId f f') : Change s e (t.settle subId f') := by
  have hset : t.fetches.set subId f' = s.fetches.set subId f' := by rw [h.fetches]
  unfold Session.settle
  split_ifs
  · exact .heard hf hpending hhears hset h.counter h.loads h.viewComplete
  · exact .heard hf hpending hhears hset h.counter h.loads h.viewComplete

variable {g : OnceFetch → OnceFetch}

theorem SameReads.onPending (h : SameReads s t) (hg : ∀ f, Hears s e subId f (g f)) :
    Change s e (t.onPending subId g) := by
  unfold Session.onPending
  split
  case h_1 f hf =>
    split_ifs with hpending
    · exact h.settle (h.fetches ▸ hf) hpending (hg f)
    · exact h.change
  case h_2 => exact h.change

theorem SameReads.refl : SameReads s s := ⟨rfl, rfl, rfl, rfl⟩

theorem change_onTimer {runs : OnceFetch → Bool} (hg : ∀ f, Hears s e subId f (g f))
    (h : s.onTimer subId runs g = .ok s') : Change s e s' := by
  unfold Session.onTimer at h
  cases hf : s.fetches.get subId with
  | none => rw [hf] at h; cases h
  | some f =>
    rw [hf] at h
    dsimp only at h
    split_ifs at h with hruns
    obtain rfl := Except.ok.inj h
    exact SameReads.refl.settle hf (Bool.and_eq_true_iff.mp hruns).1 (hg f)

theorem change_hearEvent (url subId : String) (l : Link) (raw : RawEvent) :
    Change s e (s.hearEvent callbacks url subId l raw) := by
  have hsame : SameReads s { s with
      relays := s.relays.set url (l.handleRelayMessage callbacks subId raw) } :=
    ⟨rfl, rfl, rfl, rfl⟩
  unfold Session.hearEvent
  dsimp only
  split_ifs
  · exact hsame.onPending fun f => .event url raw
  · exact hsame.change

theorem onFrame_eq_ok {url : String} {g : Link → Session} (h : s.onFrame url g = .ok s') :
    ∃ l, s' = g l := by
  unfold Session.onFrame at h
  cases hl : s.relays.get url with
  | none => rw [hl] at h; cases h
  | some l =>
    rw [hl] at h
    dsimp only at h
    split_ifs at h
    exact ⟨l, (Except.ok.inj h).symm⟩

theorem counter_le_of_step {w w' : Pool} {e : PoolEvent} (h : w.step callbacks e = .ok w') :
    w.subscriptionCounter ≤ w'.subscriptionCounter := by
  cases e with
  | tick time =>
    change (if w.clock ≤ time then _ else _) = _ at h
    split_ifs at h
    exact Except.ok.inj h ▸ le_rfl
  | subscribe label filter => exact Except.ok.inj h ▸ Nat.le_succ _
  | unsubscribe subId => exact Except.ok.inj h ▸ le_rfl
  | _ =>
    obtain ⟨l, -, -, rfl⟩ := Pool.onRelay_eq_ok h
    exact le_rfl

theorem change_pool {r : Except Unit Pool}
    (hr : ∀ w, r = .ok w → s.subscriptionCounter ≤ w.subscriptionCounter)
    (h : (r.map fun w => { s with toPool := w }) = .ok s') : Change s e s' := by
  cases r with
  | error d => cases h
  | ok w =>
    obtain rfl := Except.ok.inj h
    exact .of_connections rfl (hr w rfl) rfl rfl

theorem change_dispatchLoad {i : ℕ} {load : ChildrenLoad}
    (throwing : List String) : Change s e (s.dispatchLoad i load throwing) := by
  unfold Session.dispatchLoad
  split_ifs with hconnected
  · exact .none rfl le_rfl (fun _ h => Or.inl (List.mem_of_mem_eraseIdx h)) fun _ => Or.inl
  · refine .sent (childCreates load.parentId) false throwing hconnected rfl rfl (fun l hl => ?_) rfl
    rcases List.mem_or_eq_of_mem_set hl with hold | rfl
    · exact Or.inl hold
    · exact Or.inr ⟨rfl, rfl⟩

/-- A load marks its circle only when its read has ended with `eose`. -/
theorem change_finishLoad {i : ℕ} {load : ChildrenLoad}
    {f : OnceFetch} (hload : load ∈ s.loads) (hsub : load.subId = some subId)
    (hf : s.fetches.get subId = some f) (child : String → ChildLoad) :
    Change s e (s.finishLoad parse i load.parentId f child) := by
  refine .none rfl le_rfl (fun _ h => Or.inl (List.mem_of_mem_eraseIdx h)) fun p hp => ?_
  unfold finishLoad at hp
  dsimp only at hp
  split_ifs at hp with _ hmarks
  · exact Or.inl hp
  · rcases List.mem_cons.mp hp with rfl | hold
    · exact Or.inr ⟨load, hload, subId, f, rfl, hsub, hf, hmarks.1⟩
    · exact Or.inl hold
  · exact Or.inl hp

theorem change_of_step (h : s.step callbacks parse e = .ok s') : Change s e s' := by
  cases e with
  | pool e =>
    cases e with
    | deliver url subId i => cases h
    | subscribe label filter =>
      exact change_pool (r := s.toPool.step callbacks (.subscribe label filter))
        (fun _ => counter_le_of_step) h
    | unsubscribe subId =>
      exact change_pool (r := s.toPool.step callbacks (.unsubscribe subId))
        (fun _ => counter_le_of_step) h
    | _ => exact change_pool (fun _ => counter_le_of_step) h
  | refused url =>
    refine change_pool (fun w hw => ?_) h
    obtain ⟨l, -, -, rfl⟩ := Pool.onRelay_eq_ok hw
    exact le_rfl
  | addRelay url =>
    simp only [step] at h
    split_ifs at h
    obtain rfl := Except.ok.inj h
    exact .of_connections rfl le_rfl rfl rfl
  | removeRelay url => exact Except.ok.inj h ▸ .of_connections rfl le_rfl rfl rfl
  | disconnect => exact Except.ok.inj h ▸ .of_connections rfl le_rfl rfl rfl
  | forceReconnectAll => exact Except.ok.inj h ▸ .of_connections rfl le_rfl rfl rfl
  | fetchOnce filter waitForEveryRelay throwing =>
    simp only [step] at h
    split_ifs at h with hconnected
    obtain rfl := Except.ok.inj h
    exact .sent filter waitForEveryRelay throwing hconnected rfl rfl (fun _ => Or.inl) rfl
  | event url subId raw =>
    obtain ⟨l, rfl⟩ := onFrame_eq_ok h
    exact change_hearEvent url subId l raw
  | eose url subId =>
    obtain ⟨l, rfl⟩ := onFrame_eq_ok h
    exact SameReads.refl.onPending fun f => .eose url rfl
  | graceEnds subId => exact change_onTimer (fun f => .ended _ ResolvedBy.noConfusion) h
  | timesOut subId => exact change_onTimer (fun f => .ended _ ResolvedBy.noConfusion) h
  | loadChildren parentId =>
    obtain rfl := Except.ok.inj h
    refine .none rfl le_rfl (fun load hload => ?_) fun p hp => Or.inl (List.mem_of_mem_filter hp)
    rcases List.mem_append.mp hload with hold | hnew
    · exact Or.inl hold
    · exact Or.inr (List.mem_singleton.mp hnew ▸ rfl)
  | dispatch i throwing =>
    simp only [step] at h
    split at h
    · split_ifs at h
      obtain rfl := Except.ok.inj h
      exact change_dispatchLoad throwing
    · cases h
  | loaded i child =>
    simp only [step] at h
    split at h
    case h_1 load hload =>
      split at h
      case h_1 f hf =>
        split_ifs at h
        obtain rfl := Except.ok.inj h
        obtain ⟨subId, hsub, hf⟩ := Option.bind_eq_some_iff.mp hf
        exact change_finishLoad (List.mem_of_getElem? hload) hsub hf child
      case h_2 => cases h
    case h_2 => cases h
  | dropView parentId =>
    obtain rfl := Except.ok.inj h
    exact .none rfl le_rfl (fun _ => Or.inl) fun p hp => Or.inl (List.mem_of_mem_filter hp)

/-! ### Runs -/

/-- What holds of the reads in every run: their counters are sound, each has a number of its own, a
load waits for a read of its circle's children, and a view that counts as complete rests on one. -/
structure Kept (s : Session) : Prop where
  counted : ∀ subId f, s.fetches.get subId = some f → f.Counted
  numbered : ∀ subId f, s.fetches.get subId = some f →
    ∃ n ≤ s.subscriptionCounter, subId = "sm_fetch_once_" ++ toString n
  loads : ∀ load ∈ s.loads, ∀ subId, load.subId = some subId →
    ∃ f, s.fetches.get subId = some f ∧ f.filter = childCreates load.parentId
  views : ∀ parentId ∈ s.viewComplete, s.Certified parentId

theorem Kept.get_nextSubId (h : s.Kept) : s.fetches.get s.nextSubId = none := by
  cases hf : s.fetches.get s.nextSubId with
  | none => rfl
  | some f =>
    obtain ⟨n, hn, heq⟩ := h.numbered _ f hf
    have htext : Nat.repr (s.subscriptionCounter + 1) = Nat.repr n :=
      (String.append_right_inj _).mp heq
    have hnumber := congrArg (fun t => Nat.ofDigitChars 10 t.toList 0) htext
    rw [Nat.toList_repr, Nat.toList_repr, Nat.ofDigitChars_ten_toDigits,
      Nat.ofDigitChars_ten_toDigits] at hnumber
    omega

theorem Hears.counted {f f' : OnceFetch}
    (h : Hears s e subId f f') (hf : f.Counted) (hpending : f.pending = true) :
    f'.Counted ∧ f'.filter = f.filter := by
  cases h with
  | eose url he =>
    refine ⟨hf.hearEose hpending _ url, ?_⟩
    unfold OnceFetch.hearEose
    dsimp only
    split_ifs <;> rfl
  | event url raw =>
    refine ⟨hf.hearEvent hpending url raw, ?_⟩
    unfold OnceFetch.hearEvent
    dsimp only
    split_ifs <;> rfl
  | ended how hne =>
    exact ⟨hf.counted_resolve (hf.running hpending).2 fun h => absurd h hne, rfl⟩

/-- A read that has ended stays as it is. -/
theorem Certified.mono {parentId : String} (h : s.Certified parentId)
    (hkeeps : ∀ subId f, s.fetches.get subId = some f → f.probe.resolvedBy = .eose →
      s'.fetches.get subId = some f) : s'.Certified parentId := by
  obtain ⟨subId, f, hf, hfilter, hended⟩ := h
  exact ⟨subId, f, hkeeps subId f hf hended, hfilter, hended⟩

theorem Kept.sent (h : s.Kept) {filter : NostrFilter} {waitForEveryRelay : Bool}
    {throwing : List String} (hconnected : s.connectedUrls ≠ [])
    (hfetches : s'.fetches =
      s.fetches.set s.nextSubId (s.newFetch filter waitForEveryRelay throwing))
    (hcounter : s'.subscriptionCounter = s.subscriptionCounter + 1)
    (hloads : ∀ load ∈ s'.loads, load ∈ s.loads ∨
      load.subId = some s.nextSubId ∧ filter = childCreates load.parentId)
    (hviews : s'.viewComplete = s.viewComplete) : s'.Kept := by
  have hget : ∀ subId, s'.fetches.get subId = if subId = s.nextSubId then
      some (s.newFetch filter waitForEveryRelay throwing) else s.fetches.get subId := by
    intro subId
    rw [hfetches, OrderedMap.get_set]
  have hkeeps : ∀ subId f, s.fetches.get subId = some f → s'.fetches.get subId = some f := by
    intro subId f hf
    have hne : subId ≠ s.nextSubId := by
      rintro rfl
      rw [h.get_nextSubId] at hf
      cases hf
    rw [hget, if_neg hne]
    exact hf
  refine ⟨fun subId f hf => ?_, fun subId f hf => ?_, fun load hload subId hsub => ?_,
    fun p hp => (h.views p (hviews ▸ hp)).mono fun subId f hf _ => hkeeps subId f hf⟩
  · rw [hget] at hf
    split_ifs at hf
    · exact Option.some.inj hf ▸ s.counted_newFetch filter waitForEveryRelay throwing hconnected
    · exact h.counted subId f hf
  · rw [hget] at hf
    rw [hcounter]
    split_ifs at hf with hid
    · exact ⟨_, le_rfl, hid⟩
    · obtain ⟨n, hn, heq⟩ := h.numbered subId f hf
      exact ⟨n, Nat.le_succ_of_le hn, heq⟩
  · rcases hloads load hload with hold | ⟨hnew, hfilter⟩
    · obtain ⟨f, hf, hfilter⟩ := h.loads load hold subId hsub
      exact ⟨f, hkeeps subId f hf, hfilter⟩
    · obtain rfl := Option.some.inj (hnew.symm.trans hsub)
      exact ⟨_, (hget _).trans (if_pos rfl), hfilter⟩

theorem Kept.heard (h : s.Kept) {f f' : OnceFetch}
    (hf : s.fetches.get subId = some f) (hpending : f.pending = true)
    (hhears : Hears s e subId f f') (hfetches : s'.fetches = s.fetches.set subId f')
    (hcounter : s'.subscriptionCounter = s.subscriptionCounter) (hloads : s'.loads = s.loads)
    (hviews : s'.viewComplete = s.viewComplete) : s'.Kept := by
  obtain ⟨hcounted, hfilter⟩ := hhears.counted (h.counted subId f hf) hpending
  have hget : ∀ id, s'.fetches.get id = if id = subId then some f' else s.fetches.get id := by
    intro id
    rw [hfetches, OrderedMap.get_set]
  have hkeeps : ∀ id g, s.fetches.get id = some g → g.probe.resolvedBy = .eose →
      s'.fetches.get id = some g := by
    intro id g hg hended
    have hne : id ≠ subId := by
      rintro rfl
      obtain rfl := Option.some.inj (hf.symm.trans hg)
      rw [((h.counted id f hf).running hpending).2] at hended
      cases hended
    rw [hget, if_neg hne]
    exact hg
  refine ⟨fun id g hg => ?_, fun id g hg => ?_, fun load hload id hid => ?_,
    fun p hp => (h.views p (hviews ▸ hp)).mono hkeeps⟩
  · rw [hget] at hg
    split_ifs at hg
    · exact Option.some.inj hg ▸ hcounted
    · exact h.counted id g hg
  · rw [hget] at hg
    rw [hcounter]
    split_ifs at hg with heq
    · exact heq ▸ h.numbered subId f hf
    · exact h.numbered id g hg
  · obtain ⟨g, hg, hgfilter⟩ := h.loads load (hloads ▸ hload) id hid
    rw [hget]
    split_ifs with heq
    · subst heq
      obtain rfl := Option.some.inj (hf.symm.trans hg)
      exact ⟨f', rfl, hfilter.trans hgfilter⟩
    · exact ⟨g, hg, hgfilter⟩

theorem Kept.of_change (h : s.Kept) (hc : Change s e s') : s'.Kept := by
  cases hc with
  | none hfetches hcounter hloads hviews =>
    refine ⟨fun subId f hf => h.counted subId f (hfetches ▸ hf), fun subId f hf => ?_,
      fun load hload subId hsub => ?_, fun p hp => ?_⟩
    · obtain ⟨n, hn, heq⟩ := h.numbered subId f (hfetches ▸ hf)
      exact ⟨n, hn.trans hcounter, heq⟩
    · rw [hfetches]
      rcases hloads load hload with hold | hnew
      · exact h.loads load hold subId hsub
      · rw [hnew] at hsub
        cases hsub
    · refine Certified.mono ?_ fun subId f hf _ => hfetches ▸ hf
      rcases hviews p hp with hold | ⟨load, hload, subId, f, rfl, hsub, hf, hended⟩
      · exact h.views p hold
      · obtain ⟨g, hg, hfilter⟩ := h.loads load hload subId hsub
        obtain rfl := Option.some.inj (hf.symm.trans hg)
        exact ⟨subId, f, hf, hfilter, hended⟩
  | sent filter waitForEveryRelay throwing hconnected hfetches hcounter hloads hviews =>
    exact h.sent hconnected hfetches hcounter hloads hviews
  | heard hf hpending hhears hfetches hcounter hloads hviews =>
    exact h.heard hf hpending hhears hfetches hcounter hloads hviews

theorem Fresh.kept (h : s.Fresh) : s.Kept := by
  obtain ⟨-, hfetches, hloads, hviews⟩ := h
  refine ⟨fun subId f hf => ?_, fun subId f hf => ?_, fun load hload => ?_, fun p hp => ?_⟩
  · rw [hfetches] at hf
    cases hf
  · rw [hfetches] at hf
    cases hf
  · rw [hloads] at hload
    cases hload
  · rw [hviews] at hp
    cases hp

theorem kept_of_reachable (h : Reachable (step callbacks parse) Fresh s) : s.Kept :=
  h.invariant (fun _ => Fresh.kept) fun _ _ _ hI hstep => hI.of_change (change_of_step hstep)

def HeardOnce (s : Session) : Prop :=
  ∀ subId f, s.fetches.get subId = some f → f.HeardOnceEach

theorem HeardOnce.of_change (h : s.HeardOnce) (hkept : s.Kept)
    (hfirst : s.FirstAnswer e) (hc : Change s e s') : s'.HeardOnce := by
  intro subId f hf
  cases hc with
  | none hfetches => exact h subId f (hfetches ▸ hf)
  | sent filter waitForEveryRelay throwing _ hfetches =>
    rw [hfetches, OrderedMap.get_set] at hf
    split_ifs at hf
    · obtain rfl := Option.some.inj hf
      exact ⟨List.nodup_nil, fun url hmem => by cases hmem⟩
    · exact h subId f hf
  | @heard id g g' hg hpending hhears hfetches =>
    rw [hfetches, OrderedMap.get_set] at hf
    split_ifs at hf
    · obtain rfl := Option.some.inj hf
      have hold := h id g hg
      cases hhears with
      | eose url he =>
        subst he
        obtain ⟨hconnected, hnew⟩ := hfirst g hg hpending
        exact hold.hearEose (hkept.counted id g hg).toTallied hconnected hnew _
      | event url raw => exact hold.hearEvent url raw
      | ended how _ => exact hold.resolve how
    · exact h subId f hf

/-- Where every answer that counts is the first of a relay that was asked, a read that ends with
`eose` has heard every relay, and a view counts as complete after such a read alone.  In any other
run, a read that ends with `eose` has heard every relay just when it counted each relay once. -/
theorem eose_hears_every_relay (callbacks : RelayCallbacks) (parse : String → Option JsValue) :
    (∀ s, Run (step callbacks parse) Fresh FirstAnswer s → s.ReadsHeard ∧ s.ViewsHeard) ∧
    ∀ s, Reachable (step callbacks parse) Fresh s → ∀ subId f,
      s.fetches.get subId = some f → f.probe.resolvedBy = .eose →
        (f.EveryRelayAnswered ↔ f.HeardOnceEach) := by
  constructor
  · intro s hrun
    have hkept := kept_of_reachable hrun.reachable
    have honce : s.HeardOnce := hrun.strengthen (J := Kept)
      (fun s h => kept_of_reachable h.reachable)
      (fun s h subId f hf => by rw [h.2.1] at hf; cases hf)
      fun s e s' hfirst hkept hI hstep => hI.of_change hkept hfirst (change_of_step hstep)
    have hreads : s.ReadsHeard := fun subId f hf hended =>
      ((hkept.counted subId f hf).everyRelayAnswered_iff hended).mpr (honce subId f hf)
    refine ⟨hreads, fun p hp => ?_⟩
    obtain ⟨subId, f, hf, hfilter, hended⟩ := hkept.views p hp
    exact ⟨subId, f, hf, hfilter, hended, hreads subId f hf hended⟩
  · intro s hreach subId f hf hended
    exact ((kept_of_reachable hreach).counted subId f hf).everyRelayAnswered_iff hended

/-! ### Two runs -/

def sampleSession : Session where
  relays := (OrderedMap.empty.set "a" {}).set "b" {}
  clock := 0

theorem sampleSession_fresh : sampleSession.Fresh := by
  refine ⟨⟨by decide, rfl, fun url l hget => ?_⟩, rfl, rfl, rfl⟩
  rw [sampleSession, OrderedMap.get_set, OrderedMap.get_set] at hget
  split_ifs at hget
  · exact Option.some.inj hget ▸ rfl
  · exact Option.some.inj hget ▸ rfl
  · cases hget

def readsNothing (_ : String) : Option JsValue := none

/-- A circle's children are asked for on the relay that is up while the other one is dialled. -/
def askingOne : List SessionEvent :=
  [.pool (.dial "a"), .pool (.opened "a"), .pool (.dial "b"), .loadChildren "circle",
    .dispatch 0 []]

/-- Whether a read was certified that never heard a relay, and the view counts as complete. -/
def certifiedUnheard (s : Session) (parentId subId url : String) : Bool :=
  s.viewComplete.contains parentId && (s.fetches.get subId).isSome &&
  s.fetches.entries.all fun (_, f) =>
    f.probe.resolvedBy == .eose && (f.probe.row url).connected && !(f.probe.row url).eose

/-- The second relay comes up, is asked in its turn, and answers; the first one stays silent. -/
theorem eose_of_late_relay : ∃ s, Reachable (step Pool.lenient readsNothing) Fresh s ∧
    ¬ s.ReadsHeard ∧ ¬ s.ViewsHeard := by
  have hrun : ∃ s, Reachable (step Pool.lenient readsNothing) Fresh s ∧
      s.certifiedUnheard "circle" "sm_fetch_once_1" "a" = true :=
    Run.exists_of_checked sampleSession_fresh (fun _ _ => true) (fun _ _ _ => trivial)
      (askingOne ++ [.pool (.opened "b"), .eose "b" "sm_fetch_once_1", .loaded 0 fun _ => .missing])
      (by decide +kernel)
  obtain ⟨s, hrun, htest⟩ := hrun
  simp only [certifiedUnheard, Bool.and_eq_true, List.all_eq_true, Bool.not_eq_true',
    beq_iff_eq] at htest
  obtain ⟨⟨hview, hsome⟩, hall⟩ := htest
  have hunheard : ∀ subId f, s.fetches.get subId = some f →
      f.probe.resolvedBy = .eose ∧ ¬ f.EveryRelayAnswered := by
    intro subId f hf
    obtain ⟨⟨hended, hconnected⟩, hsilent⟩ := hall _ ((OrderedMap.get_eq_some_iff _ _ _).mp hf)
    refine ⟨hended, fun hanswered => ?_⟩
    rw [hanswered "a" hconnected] at hsilent
    cases hsilent
  refine ⟨s, hrun, fun hreads => ?_, fun hviews => ?_⟩
  · obtain ⟨f, hf⟩ := Option.isSome_iff_exists.mp hsome
    obtain ⟨hended, hnot⟩ := hunheard _ f hf
    exact hnot (hreads _ f hf hended)
  · obtain ⟨subId, f, hf, -, -, hanswered⟩ := hviews "circle" (List.contains_iff_mem.mp hview)
    exact (hunheard subId f hf).2 hanswered

def isFirstAnswer (s : Session) : SessionEvent → Bool
  | .eose url subId => (s.fetches.get subId).all fun f =>
    (f.probe.row url).connected && !(f.probe.row url).eose
  | _ => true

theorem firstAnswer_of_isFirstAnswer (s : Session) (e : SessionEvent)
    (h : s.isFirstAnswer e = true) : s.FirstAnswer e := by
  cases e with
  | eose url subId =>
    intro f hf _
    rw [isFirstAnswer, hf, Option.all_some, Bool.and_eq_true, Bool.not_eq_true'] at h
    exact h
  | _ => trivial

/-- Both relays are up when the requests go out, and both answer. -/
theorem eose_hears_both_relays : ∃ s, Run (step Pool.lenient readsNothing) Fresh FirstAnswer s ∧
    "circle" ∈ s.viewComplete ∧ s.ReadsHeard ∧ s.ViewsHeard := by
  have hrun : ∃ s, Run (step Pool.lenient readsNothing) Fresh FirstAnswer s ∧
      s.viewComplete.contains "circle" = true :=
    Run.exists_of_checked sampleSession_fresh isFirstAnswer firstAnswer_of_isFirstAnswer
      ([.pool (.dial "b"), .pool (.opened "b")] ++ askingOne ++
        [.eose "b" "sm_fetch_once_1", .eose "a" "sm_fetch_once_1", .loaded 0 fun _ => .missing])
      (by decide +kernel)
  obtain ⟨s, hrun, hview⟩ := hrun
  exact ⟨s, hrun, List.contains_iff_mem.mp hview,
    (eose_hears_every_relay Pool.lenient readsNothing).1 s hrun⟩

end Session

end Relay

end ChamaEscrow
