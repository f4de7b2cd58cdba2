import ChamaEscrow.Client.LockSteps
import ChamaEscrow.Replay.Withdraws

/-!
# Taking a LOCK back beside its release

A device that takes a withheld LOCK back decides on what it has read, and so does a device of the
same funder that releases it.  Neither asks the other: the choice of a step is kept on each device
alone.

* `take_back_never_hollows`: the notes of a released LOCK are not redeemed, as long as every read
  for taking them back shows a LOCK that was released by then, and a device releases the LOCK after
  such a read has missed it only when its own trade misses it too.
* `take_back_hollows`: one device withdraws and redeems the notes before the release that another
  has published reaches it.
-/

namespace ChamaEscrow

open Js Library VoteSlots

variable {ι : Type} {T : TradeParties ι}

/-! ### Released and redeemed -/

def ReleasesLock (lockId : String) (event : ParsedEscrowEvent) : Prop :=
  ∃ p, event.payload = .lockStep p ∧ p.step = .release ∧ p.lockEventId = lockId

def ReleasePublished (lock : ParsedEscrowEvent) (w : LockStepWorld ι) : Prop :=
  ∃ event ∈ w.published, ReleasesLock lock.id event

variable (T) in
def NotesRedeemed (notesHash : String) (w : LockStepWorld ι) : Prop :=
  ∃ entry ∈ w.redeemed, notesHashOf T.host.sha256Hex entry = notesHash

def LoadedTrade.misses (trade : LoadedTrade) (notesHash : String) : Bool :=
  !trade.commits notesHash && (trade.committed || trade.refuses notesHash)

/-- The LOCK is published and not released, no device has read the trade, and none stands between
the spending of notes and the publishing of their LOCK. -/
structure StandsUnreleased (lock : ParsedEscrowEvent) (w : LockStepWorld ι) : Prop where
  published : lock ∈ w.published
  ids : IdsIdentify w.published
  unreleased : ¬ ReleasePublished lock w
  unread : ∀ d, (w.device d).trade = none
  settled : ∀ d slot live, (nativeLocks (w.device d).stores.locks).get slot = some live →
    live.stage ≠ .spent
  shown : w.shown = []
  redeemed : w.redeemed = []

variable (T) in
/-- The calls that count: what is read to take the notes back, after a release was published, does
not miss their LOCK; and when such a read has missed it, it is released only from a device whose own
trade does not hold the notes. -/
def InTouch (lock : ParsedEscrowEvent) (notesHash : String) :
    LockStepOp ι → LockStepWorld ι → LockStepChoice ι → Prop
  | .recovery d (.loadEscrow _), w, c => ReleasePublished lock w →
    ∀ trade, loadedTrade T w d c = some (.ok (some trade)) → trade.misses notesHash = false
  | .publish d _ event, w, _ => ReleasesLock lock.id event →
    (∃ trade ∈ w.shown, trade.misses notesHash = true) →
      ∀ trade, (w.device d).trade = some trade → trade.commits notesHash = false
  | _, _, _ => True

/-! ### What the programs know -/

variable (T) in
/-- What a program knows at its calls: notes are redeemed that a read excludes, and a release is
published from a trade that holds the LOCK with the accept, and what is applied was published. -/
def StepsKnown (calls : Calls (lockStepSignature ι)) : LockStepOp ι → Prop
  | .recovery d op => ∀ entry ∈ op.redeems,
    (∃ id trade, ⟨.recovery d (.loadEscrow id), .ok (some trade)⟩ ∈ calls ∧
      Excluded T.host.sha256Hex entry trade) ∧
    ∃ id, ⟨.recovery d (.getPendingNativeLock id), some entry⟩ ∈ calls
  | .publish d check event => isRelease event = true → ∃ trade own acceptEventId,
    check = .releasable acceptEventId ∧ ⟨.trade d, some trade⟩ ∈ calls ∧
      ownUnreleasedWithheldLock trade.state (T.pubkey d) = some own ∧
      truthyKey trade.state.lock.acceptEventId = some acceptEventId ∧
      ReleasesLock own.lock.id event
  | .applyLocally d event => ∃ check, ⟨.publish d check event, .sent⟩ ∈ calls
  | _ => True

/-- The calls for which nothing has to be known. -/
def LockStepOp.isPlain : LockStepOp ι → Prop
  | .recovery _ _ | .publish _ _ _ | .applyLocally _ _ => False
  | _ => True

abbrev MakesPlain {α : Type} (p : LockStepProg ι α) : Prop :=
  p.Everywhere fun (op : LockStepOp ι) _ => op.isPlain

variable {op : LockStepOp ι}

theorem stepsKnown_of_plain (h : op.isPlain)
    (calls : Calls (lockStepSignature ι)) : StepsKnown T calls op := by
  cases op with
  | recovery => exact h.elim
  | publish => exact h.elim
  | applyLocally => exact h.elim
  | _ => trivial

variable {event : ParsedEscrowEvent}

theorem isRelease_iff : isRelease event = true ↔
    ∃ lockId, ReleasesLock lockId event := by
  unfold isRelease ReleasesLock
  cases event.payload <;> simp

theorem heldBackShares_plain (d : ι) (own : OwnLock) :
    MakesPlain (heldBackShares d own) := by
  refine ⟨trivial, fun saved => ?_⟩
  simp only [Prog.bind]
  split_ifs
  · trivial
  · trivial
  · split
    · trivial
    · refine ⟨trivial, fun fresh => ?_⟩
      simp only [Prog.bind]
      split
      · split_ifs
        · trivial
        · refine ⟨trivial, fun shares => ?_⟩
          simp only [Prog.bind]
          split
          · trivial
          · split_ifs
            · trivial
            · refine ⟨trivial, fun stored => ?_⟩
              simp only [Prog.bind]
              split_ifs
              · trivial
              · exact ⟨trivial, fun _ => trivial⟩
      · trivial

theorem sealFor_plain (d : ι) (plaintext : String) (recipients : List String) :
    MakesPlain (sealFor d plaintext recipients) := by
  induction recipients with
  | nil => trivial
  | cons pk rest ih =>
    refine ⟨trivial, fun sealed => ?_⟩
    simp only [Prog.bind]
    split
    · trivial
    · exact Prog.everywhere_bind (fun _ _ h => h) ih fun _ => trivial

theorem sealShares_plain (d : ι) (state : EscrowState) (record : WithheldShareRecord)
    (recipients : JsNumber → List String) (indices : List JsNumber) :
    MakesPlain (sealShares T d state record recipients indices) := by
  induction indices with
  | nil => trivial
  | cons index rest ih =>
    unfold sealShares
    split
    · trivial
    · split_ifs
      · trivial
      · refine Prog.everywhere_bind (fun _ _ h => h) (sealFor_plain _ _ _) fun sealed => ?_
        split
        · trivial
        · exact Prog.everywhere_bind (fun _ _ h => h) ih fun _ => trivial

theorem releasedShares_plain (d : ι) (state : EscrowState) (own : OwnLock) :
    MakesPlain (releasedShares T d state own) := by
  refine Prog.everywhere_bind (fun _ _ h => h) (heldBackShares_plain d own) fun record => ?_
  split
  · trivial
  · split
    · split
      · trivial
      · exact sealShares_plain _ _ _ _ _
    · trivial

variable {calls : Calls (lockStepSignature ι)}

variable {check : StepCheck} {signed : ParsedEscrowEvent}

theorem stepsKnown_of_step {d : ι} {p : LockStepPayload} (hp : signed.payload = .lockStep p)
    (hstep : p.step ≠ .release) : StepsKnown T calls (.publish d check signed) := by
  intro hrelease
  obtain ⟨lockId, q, hq, hreleases, -⟩ := isRelease_iff.mp hrelease
  rw [hp] at hq
  cases hq
  exact absurd hreleases hstep

/-- The relays, the trades, the journals and the notes are as they were. -/
structure SameTrades (w w' : LockStepWorld ι) : Prop where
  published : w'.published = w.published
  shown : w'.shown = w.shown
  redeemed : w'.redeemed = w.redeemed
  trade : ∀ d, (w'.device d).trade = (w.device d).trade
  locks : ∀ d, (w'.device d).stores.locks = (w.device d).stores.locks

theorem SameTrades.refl (w : LockStepWorld ι) : SameTrades w w :=
  ⟨rfl, rfl, rfl, fun _ => rfl, fun _ => rfl⟩

/-! ### The invariant -/

/-- What holds in every world: no read that misses the LOCK of the notes stands beside its release,
and only after such a read were they redeemed. -/
structure NotHollow (T : TradeParties ι) (lock : ParsedEscrowEvent) (notesHash : String)
    (w : LockStepWorld ι) : Prop where
  published : lock ∈ w.published
  ids : IdsIdentify w.published
  held : ∀ d trade, (w.device d).trade = some trade → MadeOf T.host w.published trade.state
  settled : ∀ d slot live, (nativeLocks (w.device d).stores.locks).get slot = some live →
    live.stage ≠ .spent
  shown : ReleasePublished lock w → ∀ trade ∈ w.shown, trade.misses notesHash = false
  redeemed : NotesRedeemed T notesHash w → ∃ trade ∈ w.shown, trade.misses notesHash = true

def borneOut (T : TradeParties ι) (w : LockStepWorld ι) : (Σ op : LockStepOp ι, op.Reply) → Prop
  | ⟨.trade _, some trade⟩ => MadeOf T.host w.published trade.state
  | ⟨.publish _ _ event, .sent⟩ => event ∈ w.published
  | ⟨.recovery _ (.loadEscrow _), .ok (some trade)⟩ => trade ∈ w.shown
  | ⟨.recovery _ (.getPendingNativeLock _), some entry⟩ => entry.stage ≠ .spent
  | _ => True

variable {trade : LoadedTrade} {entry : PendingNativeLock} {c' : NativeLockChoice} {own : OwnLock}

section Invariant

variable {lock : ParsedEscrowEvent} {notesHash : String} {w w' : LockStepWorld ι}

theorem borneOut_mono (hpublished : w.published ⊆ w'.published) (hshown : w.shown ⊆ w'.shown)
    (x : Σ op : LockStepOp ι, op.Reply) (h : borneOut T w x) : borneOut T w' x := by
  unfold borneOut at h ⊢
  split at h
  · exact h.mono hpublished
  · exact hpublished h
  · exact hshown h
  · exact h
  · trivial

theorem NotHollow.same (h : NotHollow T lock notesHash w) (hsame : SameTrades w w') :
    NotHollow T lock notesHash w' := by
  refine ⟨?_, ?_, fun d trade htrade => ?_, fun d slot live hlive => ?_, ?_, ?_⟩
  · rw [hsame.published]
    exact h.published
  · rw [hsame.published]
    exact h.ids
  · rw [hsame.trade] at htrade
    rw [hsame.published]
    exact h.held d trade htrade
  · rw [hsame.locks] at hlive
    exact h.settled d slot live hlive
  · unfold ReleasePublished
    rw [hsame.published, hsame.shown]
    exact h.shown
  · unfold NotesRedeemed
    rw [hsame.redeemed, hsame.shown]
    exact h.redeemed

theorem getElem_subset {events : List ℕ} :
    events.filterMap (w.published[·]?) ⊆ w.published := by
  intro e he
  obtain ⟨i, -, hi⟩ := List.mem_filterMap.mp he
  exact List.mem_of_getElem? hi

theorem NotHollow.withEvent (h : NotHollow T lock notesHash w) (hfresh : w.isFresh event = true)
    (hrelease : ReleasesLock lock.id event → ∀ trade ∈ w.shown, trade.misses notesHash = false) :
    NotHollow T lock notesHash (w.withEvent event) := by
  have hnew : ∀ v ∈ w.published, v.id ≠ event.id := by
    intro v hv hid
    rw [LockStepWorld.isFresh, Bool.not_eq_true'] at hfresh
    rw [List.any_eq_false] at hfresh
    exact hfresh v hv (by simpa using hid)
  have hgrows : w.published ⊆ (w.withEvent event).published := List.subset_append_left _ _
  refine ⟨hgrows h.published, fun a ha b hb hid => ?_, fun d trade htrade => ?_, h.settled, ?_,
    h.redeemed⟩
  · rcases List.mem_append.mp ha with hbefore | hadded
    · rcases List.mem_append.mp hb with hbefore' | hadded'
      · exact h.ids a hbefore b hbefore' hid
      · rw [List.mem_singleton.mp hadded'] at hid
        exact absurd hid (hnew a hbefore)
    · rcases List.mem_append.mp hb with hbefore' | hadded'
      · rw [List.mem_singleton.mp hadded] at hid
        exact absurd hid.symm (hnew b hbefore')
      · rw [List.mem_singleton.mp hadded, List.mem_singleton.mp hadded']
  · exact (h.held d trade htrade).mono hgrows
  · rintro ⟨v, hv, hreleases⟩
    rcases List.mem_append.mp hv with hv | hv
    · exact h.shown ⟨v, hv, hreleases⟩
    · obtain rfl := List.mem_singleton.mp hv
      exact hrelease hreleases

theorem NotHollow.loaded (h : NotHollow T lock notesHash w) {c : LockStepChoice ι} {d : ι}
    (hread : loadedTrade T w d c = some (.ok (some trade))) :
    MadeOf T.host w.published trade.state := by
  unfold loadedTrade at hread
  split at hread
  · obtain ⟨r, hr, rfl⟩ := Option.map_eq_some_iff.mp (Except.ok.inj (Option.some.inj hread))
    cases hreplay : replayEventChain T.host (_ : List ParsedEscrowEvent) T.creator with
    | error e =>
      rw [hreplay] at hr
      cases hr
    | ok r' =>
      rw [hreplay] at hr
      obtain rfl := Option.some.inj hr
      exact (madeOf_replay hreplay).mono getElem_subset
  · exact h.held d trade (Except.ok.inj (Option.some.inj hread))
  · cases hread
  · cases hread

theorem NotHollow.show (h : NotHollow T lock notesHash w)
    (htrade : ReleasePublished lock w → trade.misses notesHash = false) :
    NotHollow T lock notesHash { w with shown := trade :: w.shown } := by
  refine ⟨h.published, h.ids, h.held, h.settled, fun hrelease shown hshown => ?_,
    fun hredeemed => ?_⟩
  · rcases List.mem_cons.mp hshown with rfl | hshown
    · exact htrade hrelease
    · exact h.shown hrelease shown hshown
  · obtain ⟨shown, hshown, hmisses⟩ := h.redeemed hredeemed
    exact ⟨shown, List.mem_cons_of_mem _ hshown, hmisses⟩

theorem NotHollow.redeem (h : NotHollow T lock notesHash w) {entries : List PendingNativeLock}
    (hentries : ∀ entry ∈ entries, notesHashOf T.host.sha256Hex entry = notesHash →
      ∃ trade ∈ w.shown, trade.misses notesHash = true) :
    NotHollow T lock notesHash { w with redeemed := entries ++ w.redeemed } := by
  refine ⟨h.published, h.ids, h.held, h.settled, h.shown, ?_⟩
  rintro ⟨entry, hentry, hhash⟩
  rcases List.mem_append.mp hentry with hentry | hentry
  · exact hentries entry hentry hhash
  · exact h.redeemed ⟨entry, hentry, hhash⟩

variable {stores stores' : NativeLockWorld}

theorem stage_perform {op : NativeLockOp} {r : op.Reply}
    (hsettled : ∀ slot live, (nativeLocks stores.locks).get slot = some live → live.stage ≠ .spent)
    (h : performNativeLock T.host.sha256Hex op stores c' = some (r, stores')) (slot : String)
    (live : PendingNativeLock) (hlive : (nativeLocks stores'.locks).get slot = some live) :
    live.stage ≠ .spent := by
  rcases journal_perform h slot with hsame | ⟨entry, before, rfl, hbefore, hwrite⟩
  · exact hsettled slot live (hsame ▸ hlive)
  · have hstage := hsettled _ before hbefore
    rw [hlive] at hwrite
    cases hwrite with
    | bumpAttempts => exact hstage
    | downgrade => exact NativeLockStage.noConfusion
    | noteKept => exact hstage

theorem stage_read {id : String}
    (hsettled : ∀ slot live, (nativeLocks stores.locks).get slot = some live → live.stage ≠ .spent)
    (h : performNativeLock T.host.sha256Hex (.getPendingNativeLock id) stores c' =
      some (some entry, stores')) : entry.stage ≠ .spent := by
  cases c' with
  | storage f message =>
    obtain ⟨hread, -⟩ := Prod.mk.inj (Option.some.inj h)
    rw [loadNativeLocks_eq hread] at hread
    exact hsettled id entry hread
  | _ => cases h

theorem misses_of_excluded
    (h : Excluded T.host.sha256Hex entry trade) (hstage : entry.stage ≠ .spent) :
    trade.misses (notesHashOf T.host.sha256Hex entry) = true := by
  unfold LoadedTrade.misses
  rcases h with ⟨hcommitted, hother⟩ | ⟨hnone, hrefused⟩ | ⟨-, hspent⟩
  · rw [hother, hcommitted]
    rfl
  · rw [LoadedTrade.commits, hnone, hrefused]
    rfl
  · exact absurd hspent hstage

theorem ownUnreleased_eq {state : EscrowState} {me : String}
    (h : ownUnreleasedWithheldLock state me = some own) :
    state.lockEvent? = some own.lock ∧
      truthyKey state.lock.notesHash.text? = some own.notesHash := by
  unfold ownUnreleasedWithheldLock at h
  split_ifs at h
  split at h
  · rename_i hash withheld lock hhash hheld hlock
    split_ifs at h
    obtain rfl := Option.some.inj h
    exact ⟨hlock, hhash⟩
  · cases h

theorem commits_of_own {me : String} (h : ownUnreleasedWithheldLock trade.state me = some own)
    (hnotes : trade.state.lock.notesHash = .str notesHash) : trade.commits notesHash = true := by
  have htext := (ownUnreleased_eq h).2
  rw [hnotes] at htext
  obtain ⟨hsame, hne⟩ := truthyKey_eq_some htext
  obtain rfl : notesHash = own.notesHash := Option.some.inj hsame
  unfold LoadedTrade.commits LoadedTrade.committed
  rw [hnotes]
  simp [JsValue.truthy, JsValue.strictEq, hne]

theorem publish_shown {d : ι} {c : LockStepChoice ι} {p : LockPayload}
    (h : NotHollow T lock notesHash w) (hp : lock.payload = .lock p)
    (hnotes : p.notesHash = .str notesHash)
    (htouch : InTouch T lock notesHash (.publish d check event) w c)
    (hborne : ∀ x ∈ calls, borneOut T w x) (hknown : StepsKnown T calls (.publish d check event))
    (hpasses : check.passes (T.pubkey d) (w.device d).trade = true)
    (hrelease : ReleasesLock lock.id event) :
    ∀ trade ∈ w.shown, trade.misses notesHash = false := by
  intro shown hshown
  by_contra hmisses
  obtain ⟨before, own, a, rfl, hbefore, hown, haccept, hnames⟩ :=
    hknown (isRelease_iff.mpr ⟨_, hrelease⟩)
  -- The trade that the device holds now has the same accept, and so the same LOCK.
  obtain ⟨latest, hlatest, hstill⟩ := (Option.any_eq_true _ _).mp hpasses
  rw [Bool.and_eq_true, decide_eq_true_eq] at hstill
  obtain ⟨own', hown'⟩ := Option.isSome_iff_exists.mp hstill.1
  have hmade := h.held d latest hlatest
  have hmade₀ : MadeOf T.host w.published before.state := hborne _ hbefore
  have haccept' : truthyKey latest.state.lock.acceptEventId = some a := by
    rw [hstill.2, truthyKey_some (truthyKey_eq_some haccept).2]
  have hsame : own.lock = own'.lock := hmade₀.sourced.same_lock hmade.sourced h.ids haccept haccept'
    (ownUnreleased_eq hown).1 (ownUnreleased_eq hown').1
  have hlock : own'.lock = lock := by
    obtain ⟨q, hq, -, hid⟩ := hrelease
    obtain ⟨q', hq', -, hid'⟩ := hnames
    rw [hq] at hq'
    cases hq'
    rw [← hsame]
    exact h.ids _ (hmade₀.sourced.lock _ (ownUnreleased_eq hown).1) _ h.published
      (hid'.symm.trans hid)
  have hcommits : latest.commits notesHash = true := by
    refine commits_of_own hown' ?_
    rw [hmade.sourced.notes own'.lock p (ownUnreleased_eq hown').1 (hlock ▸ hp), hnotes]
  rw [htouch hrelease ⟨shown, hshown, by simpa using hmisses⟩ latest hlatest] at hcommits
  cases hcommits

end Invariant

/-! ### Acting on what is known -/

variable [DecidableEq ι]

abbrev ActsKnown (T : TradeParties ι) {α : Type} (p : LockStepProg ι α)
    (calls : Calls (lockStepSignature ι)) : Prop :=
  Along (P := lockStepPlatform T) (StepsKnown T) p calls

theorem actsKnown_bind {α β : Type} {p : LockStepProg ι β} {f : β → LockStepProg ι α}
    (hp : MakesPlain p)
    (hf : ∀ b calls', calls ⊆ calls' → ActsKnown T (f b) calls') : ActsKnown T (p >>= f) calls :=
  along_bind (P := lockStepPlatform T) (hp.imp fun _ _ h => stepsKnown_of_plain h) hf

/-! ### The release -/

theorem sign_payload {d : ι} {payload : LockStepPayload} {prevEventId : String}
    {w w' : LockStepWorld ι} {c : LockStepChoice ι}
    (h : performLockStep T (.sign d payload prevEventId) w c = some (some signed, w')) :
    signed.payload = .lockStep payload := by
  cases c with
  | signs raw =>
    simp only [performLockStep] at h
    split_ifs at h
    obtain ⟨hsigned, -⟩ := Prod.mk.inj (Option.some.inj h)
    obtain rfl := Option.some.inj hsigned
    rfl
  | fails =>
    obtain ⟨hsigned, -⟩ := Prod.mk.inj (Option.some.inj h)
    cases hsigned
  | _ => cases h

theorem actsKnown_sendRelease {d : ι} {acceptEventId : String} {shares : List LockShareEntry}
    (htrade : ⟨.trade d, some trade⟩ ∈ calls)
    (hown : ownUnreleasedWithheldLock trade.state (T.pubkey d) = some own)
    (haccept : truthyKey trade.state.lock.acceptEventId = some acceptEventId) :
    ActsKnown T (sendRelease d own acceptEventId shares >>= fun _ =>
      lockStepCall (.leaveRelease d own.lock.id)) calls := by
  have hleaves {calls : Calls (lockStepSignature ι)} :
      ActsKnown T (lockStepCall (.leaveRelease d own.lock.id)) calls :=
    ⟨trivial, fun _ _ _ _ _ => trivial⟩
  refine along_invoke trivial fun w c chosen w' _ => ?_
  simp only [Prog.bind]
  split_ifs
  · exact hleaves
  · refine along_invoke trivial fun w c signed w' hsigned => ?_
    cases signed with
    | none => exact hleaves
    | some signed =>
      have hpayload := sign_payload hsigned
      refine along_invoke (fun _ => ?_) fun w c sending w' _ => ?_
      · refine ⟨trade, own, acceptEventId, rfl, ?_, hown, haccept, _, hpayload, rfl, rfl⟩
        exact List.mem_cons_of_mem _ (List.mem_cons_of_mem _ htrade)
      · cases sending with
        | sent => exact ⟨⟨_, List.mem_cons_self⟩, fun _ _ _ _ _ => hleaves⟩
        | _ => exact hleaves

theorem actsKnown_release (d : ι) : ActsKnown T (maybeAutoRelease T d) [] := by
  refine along_invoke trivial fun w c trade w' _ => ?_
  cases trade with
  | none => trivial
  | some trade =>
    dsimp only
    split
    · rename_i acceptEventId own haccept hown
      split_ifs
      · trivial
      · refine along_invoke trivial fun w c free w' _ => ?_
        dsimp only
        split_ifs
        · trivial
        · refine actsKnown_bind (releasedShares_plain _ _ _) fun shares calls' hcalls => ?_
          cases shares with
          | none => exact ⟨trivial, fun _ _ _ _ _ => trivial⟩
          | some shares =>
            refine actsKnown_sendRelease (hcalls ?_) hown haccept
            exact List.mem_cons_of_mem _ List.mem_cons_self
    · trivial

/-! ### The accept -/

theorem actsKnown_accept (d : ι) : ActsKnown T (maybeAutoAccept T d) [] := by
  refine along_invoke trivial fun w c trade w' _ => ?_
  have hleaves {lockId : String} {calls : Calls (lockStepSignature ι)} :
      ActsKnown T (lockStepCall (.leaveAccept d lockId)) calls :=
    ⟨trivial, fun _ _ _ _ _ => trivial⟩
  cases trade with
  | none => trivial
  | some trade =>
    dsimp only
    split_ifs
    swap
    · trivial
    split
    · trivial
    · rename_i lock hlock
      split_ifs
      · trivial
      · refine along_invoke trivial fun w c free w' _ => ?_
        dsimp only
        split_ifs
        · trivial
        · refine along_invoke trivial fun w c signed w' hsigned => ?_
          cases signed with
          | none => exact hleaves
          | some signed =>
            have hpayload := sign_payload hsigned
            refine along_invoke (stepsKnown_of_step hpayload LockStepKind.noConfusion)
              fun w c sending w' _ => ?_
            cases sending with
            | sent => exact ⟨⟨_, List.mem_cons_self⟩, fun _ _ _ _ _ => hleaves⟩
            | _ => exact hleaves

/-! ### The withdraw -/

section Withdraw

variable {α : Type} {f : Bool → LockStepProg ι α}

theorem actsKnown_sendWithdraw {d : ι}
    (hf : ∀ b calls, ActsKnown T (f b) calls) : ActsKnown T (sendWithdraw d own >>= f) calls := by
  refine along_invoke trivial fun w c saved w' _ => ?_
  simp only [Prog.bind]
  split_ifs
  · exact hf _ _
  · refine along_invoke trivial fun w c retired w' _ => ?_
    simp only [Prog.bind]
    split_ifs
    · exact hf _ _
    · refine along_invoke trivial fun w c signed w' hsigned => ?_
      cases signed with
      | none => exact hf _ _
      | some signed =>
        have hpayload := sign_payload hsigned
        refine along_invoke (stepsKnown_of_step hpayload LockStepKind.noConfusion)
          fun w c sending w' _ => ?_
        cases sending with
        | sent =>
          refine ⟨trivial, fun w c _ w' _ => along_invoke trivial fun w c trade w' _ => ?_⟩
          cases trade with
          | ok => exact hf _ _
          | error => exact hf _ _
        | _ => exact hf _ _

theorem actsKnown_withdraw {d : ι} (hf : ∀ b calls, ActsKnown T (f b) calls) :
    ActsKnown T (withdrawWithheldLock T d >>= f) calls := by
  refine along_invoke trivial fun w c trade w' _ => ?_
  cases trade with
  | none => exact hf _ _
  | some trade =>
    refine along_invoke trivial fun w c gate w' _ => ?_
    cases gate with
    | alreadySent => exact hf _ _
    | nothing => exact hf _ _
    | releasing => exact hf _ _
    | running => exact along_invoke trivial fun w c returned w' _ => hf _ _
    | sentThis =>
      refine along_invoke trivial fun w c trade w' _ => ?_
      cases trade with
      | ok => exact hf _ _
      | error => exact hf _ _
    | entered =>
      cases ownUnreleasedWithheldLock trade.state (T.pubkey d) with
      | none => exact hf _ _
      | some own =>
        change ActsKnown T ((sendWithdraw d own >>= fun returned =>
          lockStepCall (.leaveWithdraw d own.lock.id) >>= fun _ => return returned) >>= f) _
        rw [Prog.bind_assoc]
        exact actsKnown_sendWithdraw fun b calls => along_invoke trivial fun w c _ w' _ => hf _ _

end Withdraw

/-! ### The recovery -/

theorem native_of_recovery {d : ι} {op : NativeLockOp} {w w' : LockStepWorld ι}
    {c : LockStepChoice ι} {r : op.Reply} (h : performRecovery T d op w c = some (r, w')) :
    ∃ v c' v', performNativeLock T.host.sha256Hex op v c' = some (r, v') := by
  unfold performRecovery at h
  split at h
  · obtain ⟨loaded, hloaded, hr⟩ := Option.map_eq_some_iff.mp h
    obtain ⟨rfl, -⟩ := Prod.mk.inj hr
    cases loaded with
    | ok trade => exact ⟨{}, .loads trade, _, rfl⟩
    | error e => exact ⟨{}, .throws e, _, rfl⟩
  · obtain ⟨out, hout, hr⟩ := Option.map_eq_some_iff.mp h
    obtain ⟨rfl, -⟩ := Prod.mk.inj hr
    exact ⟨_, _, _, hout⟩
  · cases h

theorem actsKnown_onDevice {α β : Type} {d : ι} {id : String}
    {q : NativeLockProg α} {K : Calls nativeLockSignature}
    {f : α → LockStepProg ι β}
    (hq : Along (P := nativeLockPlatform T.host.sha256Hex) (Justified T.host.sha256Hex entry) q
      K)
    (hentry : ⟨.recovery d (.getPendingNativeLock id), some entry⟩ ∈ calls)
    (hcalls : ∀ x ∈ K, ⟨.recovery d x.1, x.2⟩ ∈ calls)
    (hf : ∀ a calls, ActsKnown T (f a) calls) : ActsKnown T (onDevice d q >>= f) calls := by
  induction q generalizing K calls with
  | ret a => exact hf a calls
  | call op k ih =>
    refine ⟨fun e he => ?_, fun w c r w' hperform => ?_⟩
    · have hjustified := hq.1
      have hredeems : e = entry ∧ ∃ trade, Loaded entry K trade ∧
          Excluded T.host.sha256Hex entry trade := by
        cases op with
        | redeemNotes e' =>
          obtain rfl := List.mem_singleton.mp he
          exact hjustified
        | redeemRejectedNotes e' =>
          obtain rfl := List.mem_singleton.mp he
          exact hjustified
        | _ => cases he
      obtain ⟨rfl, trade, hloaded, hexcluded⟩ := hredeems
      exact ⟨⟨_, trade, hcalls _ hloaded, hexcluded⟩, id, hentry⟩
    · obtain ⟨v, c', v', hnative⟩ := native_of_recovery hperform
      refine ih r (hq.2 v c' r v' hnative) (List.mem_cons_of_mem _ hentry) fun x hx => ?_
      rcases List.mem_cons.mp hx with rfl | hx
      · exact List.mem_cons_self
      · exact List.mem_cons_of_mem _ (hcalls x hx)

theorem actsKnown_takeBack (d : ι) : ActsKnown T (withdrawAndRecover T d) [] := by
  refine actsKnown_withdraw fun returned calls => ?_
  split_ifs
  · trivial
  · refine ⟨fun e he => ?_, fun w c entry w' _ => ?_⟩
    · cases he
    · cases entry with
      | none => trivial
      | some entry =>
        change ActsKnown T (onDevice d (if entry.stage = .intent then return none
          else recoverPendingNativeLock true entry >>= fun outcome => return some outcome)
            >>= fun _ => return ()) _
        split_ifs
        · trivial
        · rw [onDevice_bind, Prog.bind_assoc]
          refine actsKnown_onDevice (K := []) justified_recover List.mem_cons_self
            (fun x hx => ?_) fun _ _ => trivial
          cases hx

theorem actsKnown_main (task : LockStepTask ι) : ActsKnown T (runLockStep T task) [] := by
  cases task with
  | accept d => exact actsKnown_accept d
  | release d => exact actsKnown_release d
  | takeBack d => exact actsKnown_takeBack d

/-! ### What the calls do -/

section Calls

variable {w w' : LockStepWorld ι} {c : LockStepChoice ι} {d : ι}

theorem sameTrades_onto {device : Device} (htrade : device.trade = (w.device d).trade)
    (hlocks : device.stores.locks = (w.device d).stores.locks) :
    SameTrades w (w.onto d device) := by
  refine ⟨rfl, rfl, rfl, fun d' => ?_, fun d' => ?_⟩
  · rw [LockStepWorld.onto_device]
    split_ifs with hd
    · rw [htrade, hd]
    · rfl
  · rw [LockStepWorld.onto_device]
    split_ifs with hd
    · rw [hlocks, hd]
    · rfl

inductive CallEffect (T : TradeParties ι) (w : LockStepWorld ι) (c : LockStepChoice ι) :
    LockStepOp ι → LockStepWorld ι → Prop
  | same {op : LockStepOp ι} {w' : LockStepWorld ι} (h : SameTrades w w') : CallEffect T w c op w'
  | loads {d : ι} {fullHistory : Bool} {loaded : Except MintError (Option LoadedTrade)}
      (read : loadedTrade T w d c = some loaded) :
      CallEffect T w c (.loadEscrow d fullHistory) (w.afterLoad d loaded)
  | shows {d : ι} {id : String} {loaded : Except MintError (Option LoadedTrade)}
      (read : loadedTrade T w d c = some loaded) :
      CallEffect T w c (.recovery d (.loadEscrow id)) ((w.afterLoad d loaded).afterShown loaded)
  | recovers {d : ι} {op : NativeLockOp} {c' : NativeLockChoice} {r : op.Reply}
      {stores : NativeLockWorld}
      (outcome : performNativeLock T.host.sha256Hex op (w.device d).stores c' = some (r, stores)) :
      CallEffect T w c (.recovery d op) { w.onto d { w.device d with stores } with
        redeemed := op.redeems ++ w.redeemed }
  | publishes {d : ι} {check : StepCheck} {event : ParsedEscrowEvent}
      (passes : check.passes (T.pubkey d) (w.device d).trade = true)
      (fresh : w.isFresh event = true) :
      CallEffect T w c (.publish d check event) (w.withEvent event)
  | applies {d : ι} {event : ParsedEscrowEvent} {trade : LoadedTrade} {state : EscrowState}
      (held : (w.device d).trade = some trade)
      (applied : applyToState T.host trade.state event = .ok state) :
      CallEffect T w c (.applyLocally d event)
        (w.onto d { w.device d with trade := some { trade with state } })

theorem callEffect_recovery {op : NativeLockOp} {r : op.Reply}
    (h : performRecovery T d op w c = some (r, w')) : CallEffect T w c (.recovery d op) w' := by
  unfold performRecovery at h
  split at h
  · obtain ⟨loaded, hloaded, hr⟩ := Option.map_eq_some_iff.mp h
    obtain ⟨-, rfl⟩ := Prod.mk.inj hr
    exact .shows hloaded
  · obtain ⟨out, hout, hr⟩ := Option.map_eq_some_iff.mp h
    obtain ⟨-, rfl⟩ := Prod.mk.inj hr
    exact .recovers hout
  · cases h

theorem callEffect_publish {r : Publication}
    (h : performLockStep T (.publish d check event) w c = some (r, w')) :
    CallEffect T w c (.publish d check event) w' ∧ (r = .sent → event ∈ w'.published) := by
  simp only [performLockStep] at h
  split_ifs at h with hpasses hfresh
  · obtain ⟨rfl, rfl⟩ := Prod.mk.inj (Option.some.inj h)
    exact ⟨.same (.refl w), Publication.noConfusion⟩
  · replace hpasses : check.passes (T.pubkey d) (w.device d).trade = true := by simpa using hpasses
    replace hfresh : w.isFresh event = true := by simpa using hfresh
    split at h
    · obtain ⟨rfl, rfl⟩ := Prod.mk.inj (Option.some.inj h)
      refine ⟨.publishes hpasses hfresh, fun _ => ?_⟩
      exact List.mem_append_right _ (List.mem_singleton_self _)
    · obtain ⟨rfl, rfl⟩ := Prod.mk.inj (Option.some.inj h)
      refine ⟨?_, Publication.noConfusion⟩
      split_ifs
      · exact .publishes hpasses hfresh
      · exact .same (.refl w)
    · cases h

theorem callEffect {r : op.Reply}
    (h : performLockStep T op w c = some (r, w')) : CallEffect T w c op w' := by
  cases op with
  | loadEscrow d fullHistory =>
    obtain ⟨loaded, hloaded, hr⟩ := Option.map_eq_some_iff.mp h
    obtain ⟨-, rfl⟩ := Prod.mk.inj hr
    exact .loads hloaded
  | publish d check event => exact (callEffect_publish h).1
  | recovery d op => exact callEffect_recovery h
  | applyLocally d event =>
    cases c with
    | returns =>
      simp only [performLockStep] at h
      split at h
      · obtain ⟨-, rfl⟩ := Prod.mk.inj (Option.some.inj h)
        exact .same (.refl w)
      · rename_i trade htrade
        split at h
        · rename_i state hstate
          obtain ⟨-, rfl⟩ := Prod.mk.inj (Option.some.inj h)
          exact .applies htrade hstate
        · obtain ⟨-, rfl⟩ := Prod.mk.inj (Option.some.inj h)
          exact .same (.refl w)
    | _ => cases h
  | sign d payload prevEventId =>
    refine .same ?_
    cases c with
    | signs raw =>
      simp only [performLockStep] at h
      split_ifs at h
      obtain ⟨-, rfl⟩ := Prod.mk.inj (Option.some.inj h)
      exact .refl w
    | fails =>
      obtain ⟨-, rfl⟩ := Prod.mk.inj (Option.some.inj h)
      exact .refl w
    | _ => cases h
  | _ =>
    refine .same ?_
    cases c <;> cases h
    all_goals
      try split_ifs
      all_goals first | exact .refl w | exact sameTrades_onto rfl rfl

end Calls

section Kept

variable {lock : ParsedEscrowEvent} {notesHash : String} {w : LockStepWorld ι}
  {c : LockStepChoice ι} {d : ι}

theorem NotHollow.hold (h : NotHollow T lock notesHash w) {device : Device}
    (htrade : ∀ trade, device.trade = some trade → MadeOf T.host w.published trade.state)
    (hlocks : device.stores.locks = (w.device d).stores.locks) :
    NotHollow T lock notesHash (w.onto d device) := by
  refine ⟨h.published, h.ids, fun d' trade hd' => ?_, fun d' slot live hlive => ?_, h.shown,
    h.redeemed⟩
  · rw [LockStepWorld.onto_device] at hd'
    split_ifs at hd'
    · exact htrade trade hd'
    · exact h.held d' trade hd'
  · rw [LockStepWorld.onto_device] at hlive
    split_ifs at hlive
    · rw [hlocks] at hlive
      exact h.settled d slot live hlive
    · exact h.settled d' slot live hlive

theorem NotHollow.recover (h : NotHollow T lock notesHash w) {op : NativeLockOp}
    {r : op.Reply} {stores : NativeLockWorld}
    (houtcome : performNativeLock T.host.sha256Hex op (w.device d).stores c' = some (r, stores)) :
    NotHollow T lock notesHash (w.onto d { w.device d with stores }) := by
  refine ⟨h.published, h.ids, fun d' trade hd' => ?_, fun d' slot live hlive => ?_, h.shown,
    h.redeemed⟩
  · rw [LockStepWorld.onto_device] at hd'
    split_ifs at hd' with hsame
    · exact h.held d trade hd'
    · exact h.held d' trade hd'
  · rw [LockStepWorld.onto_device] at hlive
    split_ifs at hlive with hsame
    · exact stage_perform (h.settled d) houtcome slot live hlive
    · exact h.settled d' slot live hlive

theorem NotHollow.afterLoad (h : NotHollow T lock notesHash w)
    {loaded : Except MintError (Option LoadedTrade)}
    (hread : loadedTrade T w d c = some loaded) :
    NotHollow T lock notesHash (w.afterLoad d loaded) := by
  unfold LockStepWorld.afterLoad
  split
  · refine h.hold (fun trade htrade => ?_) rfl
    obtain rfl := Option.some.inj htrade
    exact h.loaded hread
  · exact h

end Kept

/-! ### Every step -/

section Steps

variable {lock : ParsedEscrowEvent} {p : LockPayload} {notesHash : String}
  {w w' : LockStepWorld ι} {c : LockStepChoice ι} {calls : Calls (lockStepSignature ι)}

theorem CallEffect.grows (h : CallEffect T w c op w') :
    w.published ⊆ w'.published ∧ w.shown ⊆ w'.shown := by
  have afterLoad (d : ι) (loaded : Except MintError (Option LoadedTrade)) :
      (w.afterLoad d loaded).published = w.published ∧ (w.afterLoad d loaded).shown = w.shown := by
    unfold LockStepWorld.afterLoad
    split
    · exact ⟨rfl, rfl⟩
    · exact ⟨rfl, rfl⟩
  cases h with
  | same hsame =>
    rw [hsame.published, hsame.shown]
    exact ⟨List.Subset.refl _, List.Subset.refl _⟩
  | @loads d _ loaded =>
    rw [(afterLoad d loaded).1, (afterLoad d loaded).2]
    exact ⟨List.Subset.refl _, List.Subset.refl _⟩
  | @shows d id loaded =>
    unfold LockStepWorld.afterShown
    split
    · rw [(afterLoad d _).1, (afterLoad d _).2]
      exact ⟨List.Subset.refl _, List.subset_cons_self _ _⟩
    · rw [(afterLoad d _).1, (afterLoad d _).2]
      exact ⟨List.Subset.refl _, List.Subset.refl _⟩
  | recovers => exact ⟨List.Subset.refl _, List.Subset.refl _⟩
  | publishes => exact ⟨List.subset_append_left _ _, List.Subset.refl _⟩
  | applies => exact ⟨List.Subset.refl _, List.Subset.refl _⟩

theorem borneOut_perform {r : op.Reply} (h : NotHollow T lock notesHash w)
    (hperform : performLockStep T op w c = some (r, w')) : borneOut T w' ⟨op, r⟩ := by
  cases op with
  | trade d =>
    cases c with
    | returns =>
      obtain ⟨rfl, rfl⟩ := Prod.mk.inj (Option.some.inj hperform)
      cases htrade : (w.device d).trade with
      | none => trivial
      | some trade => exact h.held d trade htrade
    | _ => cases hperform
  | publish d check event =>
    have hsent := (callEffect_publish hperform).2
    cases r with
    | sent => exact hsent rfl
    | _ => trivial
  | recovery d op =>
    cases op with
    | loadEscrow id =>
      obtain ⟨loaded, hloaded, hr⟩ := Option.map_eq_some_iff.mp hperform
      obtain ⟨rfl, rfl⟩ := Prod.mk.inj hr
      match loaded with
      | .ok (some trade) => exact List.mem_cons_self
      | .ok none => trivial
      | .error e => trivial
    | getPendingNativeLock id =>
      cases r with
      | none => trivial
      | some entry =>
        cases c with
        | native c' =>
          obtain ⟨out, hout, hr⟩ := Option.map_eq_some_iff.mp hperform
          obtain ⟨hentry, -⟩ := Prod.mk.inj hr
          rw [← Prod.mk.eta (p := out), hentry] at hout
          exact stage_read (h.settled d) hout
        | _ => cases hperform
    | _ => trivial
  | _ => trivial

theorem NotHollow.step {r : op.Reply} (h : NotHollow T lock notesHash w)
    (hp : lock.payload = .lock p) (hnotes : p.notesHash = .str notesHash)
    (htouch : InTouch T lock notesHash op w c) (hborne : ∀ x ∈ calls, borneOut T w x)
    (hknown : StepsKnown T calls op) (hperform : performLockStep T op w c = some (r, w')) :
    NotHollow T lock notesHash w' := by
  cases callEffect hperform with
  | same hsame => exact h.same hsame
  | loads hread => exact h.afterLoad hread
  | @shows d id loaded hread =>
    have hload := h.afterLoad hread
    match loaded with
    | .ok (some trade) => exact hload.show fun hrelease => htouch hrelease trade hread
    | .ok none => exact hload
    | .error e => exact hload
  | @recovers d op c' r stores houtcome =>
    refine (h.recover houtcome).redeem fun entry hentry hhash => ?_
    obtain ⟨⟨id, trade, hloaded, hexcluded⟩, id', hread⟩ := hknown entry hentry
    refine ⟨trade, hborne _ hloaded, ?_⟩
    rw [← hhash]
    exact misses_of_excluded hexcluded (hborne _ hread)
  | publishes hpasses hfresh =>
    exact h.withEvent hfresh (publish_shown h hp hnotes htouch hborne hknown hpasses)
  | @applies d event trade state hheld happlied =>
    obtain ⟨check, hsent⟩ := hknown
    refine h.hold (fun trade' htrade' => ?_) rfl
    obtain rfl := Option.some.inj htrade'
    exact (h.held d trade hheld).step (hborne _ hsent) happlied

/-- What happens beside the programs releases nothing. -/
theorem NotHollow.drift (h : NotHollow T lock notesHash w)
    (hdrift : lockStepDrift T w c = some w') :
    NotHollow T lock notesHash w' ∧ w.published ⊆ w'.published ∧ w.shown ⊆ w'.shown := by
  cases c with
  | posts event =>
    simp only [lockStepDrift] at hdrift
    split_ifs at hdrift with hposts
    obtain rfl := Option.some.inj hdrift
    rw [Bool.and_eq_true, Bool.not_eq_true'] at hposts
    refine ⟨h.withEvent hposts.1 fun hrelease => ?_, List.subset_append_left _ _,
      List.Subset.refl _⟩
    have hreleases := isRelease_iff.mpr ⟨_, hrelease⟩
    rw [hposts.2] at hreleases
    cases hreleases
  | delivers d i =>
    simp only [lockStepDrift] at hdrift
    split at hdrift
    · rename_i trade event htrade hevent
      split at hdrift
      · rename_i state happly
        obtain rfl := Option.some.inj hdrift
        refine ⟨h.hold (fun trade' htrade' => ?_) rfl, List.Subset.refl _, List.Subset.refl _⟩
        obtain rfl := Option.some.inj htrade'
        exact (h.held d trade htrade).step (List.mem_of_getElem? hevent) happly
      · cases hdrift
    · cases hdrift
  | reloads d events mark =>
    simp only [lockStepDrift, Option.map_eq_some_iff] at hdrift
    obtain ⟨loaded, hread, rfl⟩ := hdrift
    have hloads : CallEffect T _ _ (.loadEscrow d true) _ := .loads hread
    exact ⟨h.afterLoad hread, hloads.grows⟩
  | restarts d =>
    obtain rfl := Option.some.inj hdrift
    exact ⟨h.hold (fun trade htrade => by cases htrade) rfl, List.Subset.refl _,
      List.Subset.refl _⟩
  | _ => cases hdrift

end Steps

/-- In every run of any number of devices, with any delays of the relays, in which what is read to
take the notes back does not miss a LOCK that was released by then, and a LOCK that such a read has
missed is released only from a device whose own trade is without the notes: no notes of the LOCK are
redeemed and a release of it published. -/
theorem take_back_never_hollows (T : TradeParties ι) (lock : ParsedEscrowEvent) (p : LockPayload)
    (hp : lock.payload = .lock p) (notesHash : String) (hnotes : p.notesHash = .str notesHash)
    (cfg : Config (lockStepPlatform T) ι Unit)
    (hrun : Run (Config.exec (runLockStep T)) (Idle (StandsUnreleased lock))
      (Meets (InTouch T lock notesHash)) cfg) :
    ¬ (ReleasePublished lock cfg.world ∧ NotesRedeemed T notesHash cfg.world) := by
  have hsound : NotHollow T lock notesHash cfg.world := by
    refine (slots_along (J := NotHollow T lock notesHash) (φ := StepsKnown T)
      (B := borneOut T) ?_ actsKnown_main ?_ ?_ hrun).1
    · rintro cfg ⟨w, hw, rfl⟩
      refine ⟨⟨hw.published, hw.ids, fun d trade htrade => ?_, hw.settled, fun hrelease => ?_,
        fun hredeemed => ?_⟩, fun i => rfl⟩
      · rw [Config.idle, hw.unread] at htrade
        cases htrade
      · exact absurd hrelease hw.unreleased
      · obtain ⟨entry, hentry, -⟩ := hredeemed
        rw [Config.idle, hw.redeemed] at hentry
        cases hentry
    · intro cfg i c op k r w calls hC hpending hinv hborne hknown hperform
      have hgrows := (callEffect hperform).grows
      exact ⟨hinv.step hp hnotes (hC op k hpending) hborne hknown hperform,
        borneOut_perform hinv hperform, borneOut_mono hgrows.1 hgrows.2⟩
    · intro cfg c w hC hinv hdrift
      obtain ⟨hinv', hpublished, hshown⟩ := hinv.drift hdrift
      exact ⟨hinv', borneOut_mono hpublished hshown⟩
  rintro ⟨hrelease, hredeemed⟩
  obtain ⟨trade, htrade, hmisses⟩ := hsound.redeemed hredeemed
  rw [hsound.shown hrelease trade htrade] at hmisses
  cases hmisses

/-! ### Sample devices -/

def noteHost : Host := { silentHost with sha256Hex := fun _ => "notes" }

def sampleParties : TradeParties ℕ where
  host := noteHost
  escrowId := "sm_sample"
  creator := none
  pubkey d := if d = 2 then hexKey 'b' else hexKey 'a'

def backedLockPayload : LockPayload where
  notesHash := .str "notes"
  shares := .arr [.obj [("shareIndex", .num 0), ("commitment", .str "notes")],
    .obj [("shareIndex", .num 1), ("encryptedFor", .obj [(hexKey 'a', .str "cipher")])],
    .obj [("shareIndex", .num 2), ("commitment", .str "notes")]]
  sharePolicy := .str "holder-only-v1"
  withheldShares := some true
  sellerReceivesMsats := 1000000
  arbiterFeeMsats := 0
  buyerPubkey := hexKey 'b'
  arbiterPubkey := hexKey 'c'
  lockedAt := 1800000020
  rest := .obj [("withheldBackup", .str "backup")]

def backedLock : ParsedEscrowEvent := sampleEvent '2' 'a' 1800000020 (.lock backedLockPayload)

def fundingEntry : PendingNativeLock :=
  { escrowId := "sm_sample", stage := .publishAttempted, amountMsats := 1000, oobNotes := some "n"
    federationId := some "f", createdAt := 0, attempts := 0 }

def lockedWorld : LockStepWorld ℕ where
  published := [samplePoolCreate, sampleJoin, backedLock]
  device d := if d = 0 then { stores := (journalOf fundingEntry) } else {}

abbrev SampleStep := Event (lockStepPlatform sampleParties) ℕ (LockStepTask ℕ)

def inSlot (i : ℕ) (choices : List (LockStepChoice ℕ)) : List SampleStep :=
  choices.map fun c => .step i c

def signedStep (id author : Char) (time : ℕ) : LockStepChoice ℕ := .signs
  { id := hexKey id
    pubkey := hexKey author
    createdAt := .ofInt time
    id_ne := hexKey_ne id
    pubkey_ne := hexKey_ne author
    createdAt_ne := sampleTime_ne time }

def buyerAccepts : List SampleStep := [.drift (.reloads 2 [0, 1, 2] none), .start 2 (.accept 2)]
  ++ inSlot 2 [.returns, .returns, signedStep '3' 'b' 1800000030, .returns, .returns, .returns]

def secondReleases : List SampleStep := [.drift (.reloads 1 [0, 1, 2] none),
    .drift (.delivers 1 3), .start 1 (.release 1)]
  ++ inSlot 1 [.returns, .returns, .storage {} 0, .reads [0, 1, 2, 3] none,
    .opens [⟨0, "b"⟩, ⟨2, "c"⟩], .storage {} 0, .storage {} 0, .seals "x", .seals "y",
    .storage {} 0, signedStep '4' 'a' 1800000040, .returns, .returns, .returns]

/-- The device that funded withdraws, reads these events, and recovers the notes. -/
def firstTakesBack (read : List ℕ) : List SampleStep := [.start 0 (.takeBack 0)]
  ++ inSlot 0 [.returns, .returns, .storage {} 0, .storage {} 0, signedStep '5' 'a' 1800000050,
    .returns, .returns, .reads read none, .returns, .native (.storage .none ""),
    .native (.clock 0), .native (.federation (some "f")), .keeps, .native .returns,
    .native (.checked {} 0), .native (.storage .none ""), .native .returns]

theorem lockedWorld_stands : StandsUnreleased backedLock lockedWorld := by
  refine ⟨by simp [lockedWorld], idsIdentify_of_nodup (by decide +kernel), ?_, fun d => ?_,
    fun d slot live hlive => ?_, rfl, rfl⟩
  · rintro ⟨event, hevent, hrelease⟩
    have hnone : lockedWorld.published.any isRelease = false := by decide
    rw [List.any_eq_false] at hnone
    exact hnone event hevent (isRelease_iff.mpr ⟨_, hrelease⟩)
  · unfold lockedWorld
    dsimp only
    split_ifs <;> rfl
  · unfold lockedWorld at hlive
    dsimp only at hlive
    split_ifs at hlive
    · change (OrderedMap.empty.set fundingEntry.escrowId fundingEntry).get slot = some live at hlive
      rw [OrderedMap.get_set] at hlive
      split_ifs at hlive
      · obtain rfl := Option.some.inj hlive
        exact NativeLockStage.noConfusion
      · cases hlive
    · cases hlive

/-- Whether nothing was released, and an event releases nothing either. -/
def isQuiet (cfg : Config (lockStepPlatform sampleParties) ℕ Unit) : SampleStep → Bool
  | .step i _ => !cfg.world.published.any isRelease &&
    match cfg.slots i with
    | some (.call (.publish _ _ event) _) => !isRelease event
    | _ => true
  | _ => true

theorem inTouch_of_isQuiet (cfg : Config (lockStepPlatform sampleParties) ℕ Unit)
    (step : SampleStep) (h : isQuiet cfg step = true) :
    Meets (InTouch sampleParties backedLock "notes") cfg step := by
  cases step with
  | step i c =>
    intro op k hpending
    unfold isQuiet at h
    dsimp only at h
    rw [hpending, Bool.and_eq_true, Bool.not_eq_true'] at h
    obtain ⟨hnone, hop⟩ := h
    have hunreleased : ¬ ReleasePublished backedLock cfg.world := by
      rintro ⟨event, hevent, hrelease⟩
      rw [List.any_eq_false] at hnone
      exact hnone event hevent (isRelease_iff.mpr ⟨_, hrelease⟩)
    cases op with
    | publish d check event =>
      intro hrelease
      dsimp only at hop
      rw [isRelease_iff.mpr ⟨_, hrelease⟩] at hop
      cases hop
    | recovery d op =>
      cases op with
      | loadEscrow => exact fun hrelease => absurd hrelease hunreleased
      | _ => trivial
    | _ => trivial
  | _ => trivial

/-- The notes of a LOCK that nobody has accepted come back, and it is not released. -/
theorem take_back_never_hollows_sample :
    ∃ cfg : Config (lockStepPlatform sampleParties) ℕ Unit,
      NotesRedeemed sampleParties "notes" cfg.world ∧ ¬ ReleasePublished backedLock cfg.world := by
  have hrun : ∃ cfg : Config (lockStepPlatform sampleParties) ℕ Unit,
      Run (Config.exec (runLockStep sampleParties))
      (Idle (StandsUnreleased backedLock)) (Meets (InTouch sampleParties backedLock "notes")) cfg ∧
      (!cfg.world.redeemed.isEmpty) = true :=
    Run.exists_of_checked ⟨_, lockedWorld_stands, rfl⟩ isQuiet inTouch_of_isQuiet
      (.drift (.reloads 0 [0, 1, 2] none) :: firstTakesBack [0, 1, 2, 3]) (by decide +kernel)
  obtain ⟨cfg, hrun, hredeemed⟩ := hrun
  obtain ⟨entry, hentry⟩ : ∃ entry, entry ∈ cfg.world.redeemed := by
    cases hlist : cfg.world.redeemed with
    | nil =>
      rw [hlist] at hredeemed
      cases hredeemed
    | cons entry rest => exact ⟨entry, List.mem_cons_self⟩
  have hnotes : NotesRedeemed sampleParties "notes" cfg.world := ⟨entry, hentry, rfl⟩
  refine ⟨cfg, hnotes, fun hrelease => ?_⟩
  exact take_back_never_hollows sampleParties backedLock backedLockPayload rfl "notes" rfl cfg hrun
    ⟨hrelease, hnotes⟩

/-- The second device has released the LOCK when the first, which has not heard of it, takes the
notes back. -/
theorem take_back_hollows : ∃ cfg : Config (lockStepPlatform sampleParties) ℕ Unit,
    Run (Config.exec (runLockStep sampleParties)) (Idle (StandsUnreleased backedLock))
      (fun _ _ => True) cfg ∧
    ReleasePublished backedLock cfg.world ∧ NotesRedeemed sampleParties "notes" cfg.world := by
  have hrun : ∃ cfg : Config (lockStepPlatform sampleParties) ℕ Unit,
      Run (Config.exec (runLockStep sampleParties))
      (Idle (StandsUnreleased backedLock)) (fun _ _ => True) cfg ∧
      ((lockSteps cfg.world.published).any (fun step =>
        step.2.step = .release && step.2.lockEventId = hexKey '2') &&
          !cfg.world.redeemed.isEmpty) = true :=
    Run.exists_of_checked ⟨_, lockedWorld_stands, rfl⟩ (fun _ _ => true) (fun _ _ _ => trivial)
      (.drift (.reloads 0 [0, 1, 2] none) :: buyerAccepts ++ secondReleases
        ++ firstTakesBack [0, 1, 2, 5]) (by decide +kernel)
  obtain ⟨cfg, hrun, htest⟩ := hrun
  rw [Bool.and_eq_true] at htest
  obtain ⟨step, hstep, hreleases⟩ := List.any_eq_true.mp htest.1
  obtain ⟨hevent, hp⟩ := mem_of_mem_lockSteps hstep
  refine ⟨cfg, hrun, ⟨step.1, hevent, ?_⟩, ?_⟩
  · rw [Bool.and_eq_true, decide_eq_true_eq, decide_eq_true_eq] at hreleases
    exact ⟨step.2, hp, hreleases.1, hreleases.2⟩
  · cases hlist : cfg.world.redeemed with
    | nil =>
      rw [hlist] at htest
      cases htest.2
    | cons entry rest => exact ⟨entry, hlist ▸ List.mem_cons_self, rfl⟩

end ChamaEscrow
