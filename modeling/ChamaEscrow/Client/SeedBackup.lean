import ChamaEscrow.Js.Text
import ChamaEscrow.Library.Guarded
import ChamaEscrow.Library.Positional

/-!
# The protected seed envelope

`seed-backup-v2.ts`: the recovery code, a 128-bit number written with 26 digits, and the envelope
that wraps a wallet seed under a code and a scope.  The cryptography is a parameter (`SeedCrypto`),
and so is `toUpperCase`, of which the code needs only that it leaves its own letters alone
(`KeepsCode`).

`recovery_code_law` puts the promises of the code together.
-/

namespace ChamaEscrow.SeedBackup

open Js Library

abbrev Bytes := List UInt8

/-- What the functions throw: an `InvalidRecoveryCode`, or an error with a text. -/
inductive SeedError
  | invalidRecoveryCode
  | error (message : String)
  deriving DecidableEq

/-! ### The recovery code -/

/-- The digits of the code: no `I`, `L`, `O` or `U`. -/
def alphabet : List Char := "0123456789ABCDEFGHJKMNPQRSTVWXYZ".toList

/-- `alphabet[i]`. -/
def digitChar (i : ℕ) : Char := alphabet.getD i '0'

def bytesValue (bytes : Bytes) : ℕ := valueOf 256 (bytes.map UInt8.toNat)

def valueBytes (n : ℕ) : Bytes := (digitsOf 256 16 n).map UInt8.ofNat

/-- The loop of `formatRecoveryCode`: `count` digits put in front of a text. -/
def writeDigits : (count n : ℕ) → (text : List Char) → List Char
  | 0, _, text => text
  | count + 1, n, text => writeDigits count (n >>> 5) (digitChar (n &&& 31) :: text)

/-- `text.slice(from, to)`. -/
def slice (start stop : ℕ) (text : List Char) : List Char := (text.take stop).drop start

def groups (text : List Char) : List (List Char) :=
  [slice 0 5 text, slice 5 10 text, slice 10 14 text, slice 14 18 text, slice 18 22 text,
    text.drop 22]

def formatRecoveryCode (bytes : Bytes) : Except SeedError String :=
  if bytes.length ≠ 16 then .error (.error "Recovery code must contain 128 bits.")
  else .ok (String.ofList (['-'].intercalate (groups (writeDigits 26 (bytesValue bytes) []))))

/-- A character that `\s` matches. -/
def isSpace (c : Char) : Bool :=
  c.toNat ∈ [0x9, 0xa, 0xb, 0xc, 0xd, 0x20, 0xa0, 0x1680, 0x2028, 0x2029, 0x202f, 0x205f, 0x3000,
    0xfeff] || (0x2000 ≤ c.toNat && c.toNat ≤ 0x200a)

/-- The digit that a letter is read as. -/
def lookAlike (c : Char) : Char :=
  if c = 'I' ∨ c = 'L' then '1' else if c = 'O' then '0' else c

variable (upper : String → String)

/-- What is read of a code: in upper case, without blanks and hyphens. -/
def codeText (input : String) : List Char :=
  ((upper input).toList.filter fun c => !(isSpace c || c = '-')).map lookAlike

/-- `text.length`: a character beyond the basic plane counts as two units. -/
def unitLength (text : List Char) : ℕ :=
  (text.map fun c => if c.toNat < 0x10000 then 1 else 2).sum

/-- The loop of `parseRecoveryCode` over the characters of a text. -/
def readDigits : List Char → ℕ → Except SeedError ℕ
  | [], n => .ok n
  | c :: rest, n =>
    match alphabet.idxOf? c with
    | none => .error .invalidRecoveryCode
    | some digit => readDigits rest (n <<< 5 ||| digit)

def parseRecoveryCode (input : String) : Except SeedError Bytes :=
  let text := codeText upper input
  if unitLength text ≠ 26 then .error .invalidRecoveryCode
  else do
    let n ← readDigits text 0
    if 2 ^ 128 ≤ n then .error .invalidRecoveryCode else pure (valueBytes n)

/-! ### The envelope -/

/-- `SeedBackupV2`, an envelope of version 2. -/
structure SeedBackupV2 where
  scope : String
  codeCheck : String
  nonce : String
  box : String

/-- What the envelope uses of the cryptography libraries.  `encrypt` and `decrypt` take the key, the
nonce and the associated data; `none` is a text or a box that is refused. -/
structure SeedCrypto where
  sha256 : Bytes → Bytes
  hkdf : (secret salt info : Bytes) → Bytes
  encrypt : (key nonce data clear : Bytes) → Bytes
  decrypt : (key nonce data box : Bytes) → Option Bytes
  base64Encode : Bytes → String
  base64Decode : String → Option Bytes
  validateMnemonic : String → Bool

/-- What the envelope relies on: base64 is read as it was written, a box opens under no key but its
own, and codes of 128 bits give different keys. -/
structure SeedCryptoLaws (crypto : SeedCrypto) : Prop where
  base64 : ∀ bytes, crypto.base64Decode (crypto.base64Encode bytes) = some bytes
  committing : ∀ key nonce data clear key' data' clear',
    crypto.decrypt key' nonce data' (crypto.encrypt key nonce data clear) = some clear' →
      key' = key
  derivation : ∀ code code' salt info, code.length = 16 → code'.length = 16 →
    crypto.hkdf code' salt info = crypto.hkdf code salt info → code' = code

variable (crypto : SeedCrypto)

/-- `utf8.encode(text)`. -/
def utf8 (text : String) : Bytes := text.toUTF8.toList

/-- `hex.encode(bytes)`. -/
def hexText (bytes : Bytes) : String :=
  String.ofList (bytes.flatMap fun b =>
    [Nat.digitChar (b.toNat / 16), Nat.digitChar (b.toNat % 16)])

/-- `/^[a-f0-9]*$/`, with the length the pattern asks for. -/
def isHex (length : ℕ) (text : List Char) : Bool :=
  text.length = length && text.all fun c => c.isDigit || ('a' ≤ c && c ≤ 'f')

def checkScope (scope : String) : Except SeedError Unit :=
  rejectIf (scope ≠ "browser" ∧ ¬ ("native:".toList.isPrefixOf scope.toList ∧
    isHex 64 (scope.toList.drop 7))) (.error "Invalid wallet backup scope.")

def deriveSeedWrapKey (code : Bytes) (scope : String) : Except SeedError Bytes := do
  checkScope scope
  rejectIf (code.length ≠ 16) .invalidRecoveryCode
  return crypto.hkdf code (utf8 "chama-seed-backup-v2") (utf8 scope)

def recoveryCodeCheck (code : Bytes) : String :=
  hexText ((crypto.sha256 (utf8 "chama-code-check" ++ code)).take 4)

def wrapSeedBackup (mnemonic : String) (code : Bytes) (scope : String) (nonce : Bytes) :
    Except SeedError SeedBackupV2 := do
  rejectIf (nonce.length ≠ 24 ∨ ¬ crypto.validateMnemonic mnemonic)
    (.error "Invalid wallet backup input.")
  let key ← deriveSeedWrapKey crypto code scope
  return {
    scope
    codeCheck := recoveryCodeCheck crypto code
    nonce := crypto.base64Encode nonce
    box := crypto.base64Encode (crypto.encrypt key nonce (utf8 scope) (utf8 mnemonic)) }

/-- `parseSeedBackupV2`, on the envelope that the JSON text holds. -/
def parseSeedBackupV2 (value : SeedBackupV2) (expectedScope : String) :
    Except SeedError SeedBackupV2 := do
  checkScope expectedScope
  rejectIf (value.scope ≠ expectedScope ∨ ¬ isHex 8 value.codeCheck.toList ∨
    ¬ (crypto.base64Decode value.nonce).any (fun nonce => nonce.length = 24) ∨
    ¬ (crypto.base64Decode value.box).any (fun box => 16 ≤ box.length))
    (.error "Invalid protected wallet backup.")
  return value

/-- `new TextDecoder('utf-8', { fatal: true }).decode(bytes)`, which drops a byte order mark. -/
def decodeUtf8 (bytes : Bytes) : Option String :=
  let text := if [0xef, 0xbb, 0xbf].isPrefixOf bytes then bytes.drop 3 else bytes
  String.fromUTF8? ⟨text.toArray⟩

def openedSeed (key : Bytes) (scope : String) (value : SeedBackupV2) : Option String := do
  let nonce ← crypto.base64Decode value.nonce
  let box ← crypto.base64Decode value.box
  let clear ← crypto.decrypt key nonce (utf8 scope) box
  let mnemonic ← decodeUtf8 clear
  if crypto.validateMnemonic mnemonic then some mnemonic else none

def unwrapSeedBackup (payload : SeedBackupV2) (codeText expectedScope : String) :
    Except SeedError String := do
  let safe ← parseSeedBackupV2 crypto payload expectedScope
  let code ← parseRecoveryCode upper codeText
  let key ← deriveSeedWrapKey crypto code expectedScope
  rejectIf (recoveryCodeCheck crypto code ≠ safe.codeCheck) .invalidRecoveryCode
  match openedSeed crypto key expectedScope safe with
  | some mnemonic => pure mnemonic
  | none => .error .invalidRecoveryCode

/-! ### Digits and bytes -/

theorem digitChar_plain : ∀ d < 32, alphabet.idxOf? (digitChar d) = some d ∧
    isSpace (digitChar d) = false ∧ digitChar d ≠ '-' ∧ lookAlike (digitChar d) = digitChar d ∧
    (digitChar d).toNat < 0x10000 := by
  decide +kernel

theorem length_alphabet : alphabet.length = 32 := by decide +kernel

theorem digitChar_of_idxOf? {c : Char} {d : ℕ} (h : alphabet.idxOf? c = some d) :
    d < 32 ∧ digitChar d = c := by
  obtain ⟨hlt, hc, -⟩ := List.idxOf?_eq_some_iff.mp h
  refine ⟨length_alphabet ▸ hlt, ?_⟩
  unfold digitChar
  rw [List.getD_eq_getElem?_getD, List.getElem?_eq_getElem hlt, Option.getD_some, hc]

def digitText (digits : List ℕ) : List Char := digits.map digitChar

theorem writeDigits_eq (count n : ℕ) (text : List Char) :
    writeDigits count n text = digitText (digitsOf 32 count n) ++ text := by
  induction count generalizing n text with
  | zero => rfl
  | succ count ih =>
    have hlow : n &&& 31 = n % 32 := Nat.and_two_pow_sub_one_eq_mod n 5
    have hhigh : n >>> 5 = n / 32 := Nat.shiftRight_eq_div_pow n 5
    unfold writeDigits
    rw [ih, hlow, hhigh, digitsOf]
    simp [digitText]

theorem shiftLeft_or {n d : ℕ} (hd : d < 32) : n <<< 5 ||| d = n * 32 + d := by
  rw [← Nat.shiftLeft_add_eq_or_of_lt (i := 5) (by omega), Nat.shiftLeft_eq]

variable {digits : List ℕ}

theorem readDigits_digitText (h : ∀ d ∈ digits, d < 32) (n : ℕ) :
    readDigits (digitText digits) n = .ok (digits.foldl (fun n d => n * 32 + d) n) := by
  induction digits generalizing n with
  | nil => rfl
  | cons d rest ih =>
    have hd := h d List.mem_cons_self
    show readDigits (digitChar d :: digitText rest) n = _
    unfold readDigits
    rw [(digitChar_plain d hd).1]
    dsimp only
    rw [ih fun d' hd' => h d' (List.mem_cons_of_mem d hd'), shiftLeft_or hd]
    rfl

variable {text : List Char}

theorem exists_digits_of_readDigits {n m : ℕ} (h : readDigits text n = .ok m) :
    ∃ digits, (∀ d ∈ digits, d < 32) ∧ text = digitText digits := by
  induction text generalizing n with
  | nil => exact ⟨[], by simp, rfl⟩
  | cons c rest ih =>
    unfold readDigits at h
    cases hc : alphabet.idxOf? c with
    | none =>
      rw [hc] at h
      cases h
    | some d =>
      rw [hc] at h
      obtain ⟨hd, hchar⟩ := digitChar_of_idxOf? hc
      obtain ⟨digits, hdigits, hrest⟩ := ih h
      refine ⟨d :: digits, ?_, ?_⟩
      · intro d' hd'
        rcases List.mem_cons.mp hd' with rfl | hmem
        · exact hd
        · exact hdigits d' hmem
      · rw [hrest, ← hchar]
        rfl

theorem unitLength_digitText (h : ∀ d ∈ digits, d < 32) :
    unitLength (digitText digits) = digits.length := by
  induction digits with
  | nil => rfl
  | cons d rest ih =>
    have hd := (digitChar_plain d (h d List.mem_cons_self)).2.2.2.2
    have hrest := ih fun d' hd' => h d' (List.mem_cons_of_mem d hd')
    simp only [unitLength, digitText, List.map_cons, List.sum_cons] at hrest ⊢
    rw [if_pos hd, hrest, List.length_cons, Nat.add_comm]

variable {bytes : Bytes}

theorem bytesValue_lt (h : bytes.length = 16) : bytesValue bytes < 2 ^ 128 := by
  have hlt : bytesValue bytes < 256 ^ (bytes.map UInt8.toNat).length := by
    refine valueOf_lt fun d hd => ?_
    obtain ⟨b, -, rfl⟩ := List.mem_map.mp hd
    exact b.toNat_lt
  rw [List.length_map, h] at hlt
  exact lt_of_lt_of_le hlt (by decide)

theorem valueBytes_bytesValue (h : bytes.length = 16) : valueBytes (bytesValue bytes) = bytes := by
  have hdigits : digitsOf 256 (bytes.map UInt8.toNat).length (bytesValue bytes) =
      bytes.map UInt8.toNat := by
    refine digitsOf_valueOf fun d hd => ?_
    obtain ⟨b, -, rfl⟩ := List.mem_map.mp hd
    exact b.toNat_lt
  rw [List.length_map, h] at hdigits
  unfold valueBytes
  rw [hdigits, List.map_map]
  exact List.map_id'' (fun b => UInt8.ofNat_toNat) bytes

theorem bytesValue_valueBytes {n : ℕ} (h : n < 2 ^ 128) : bytesValue (valueBytes n) = n := by
  have hbytes : (valueBytes n).map UInt8.toNat = digitsOf 256 16 n := by
    unfold valueBytes
    rw [List.map_map]
    refine (List.map_congr_left fun d hd => ?_).trans (List.map_id _)
    have hlt := lt_of_mem_digitsOf (by norm_num) hd
    exact UInt8.toNat_ofNat_of_lt hlt
  unfold bytesValue
  rw [hbytes, valueOf_digitsOf]
  exact Nat.mod_eq_of_lt (lt_of_lt_of_le h (by decide))

theorem length_valueBytes (n : ℕ) : (valueBytes n).length = 16 := by simp [valueBytes]

/-! ### Groups -/

theorem slice_append {start stop : ℕ} (h : start ≤ stop) (hlength : stop ≤ text.length) :
    slice start stop text ++ text.drop stop = text.drop start := by
  have hstart : start ≤ (text.take stop).length := by
    rw [List.length_take]
    omega
  calc slice start stop text ++ text.drop stop
      = (text.take stop ++ text.drop stop).drop start := by
        rw [List.drop_append_of_le_length hstart]
        rfl
    _ = text.drop start := by rw [List.take_append_drop]

theorem flatten_groups (h : text.length = 26) : (groups text).flatten = text := by
  simp only [groups, List.flatten_cons, List.flatten_nil, List.append_nil]
  rw [slice_append (by omega) (by omega), slice_append (by omega) (by omega),
    slice_append (by omega) (by omega), slice_append (by omega) (by omega),
    slice_append (by omega) (by omega), List.drop_zero]

/-- What a separator joins is left when it is taken out again. -/
theorem filter_intercalate {p : Char → Bool} {c : Char} (hc : p c = false) (l : List (List Char)) :
    ([c].intercalate l).filter p = l.flatten.filter p := by
  induction l with
  | nil => rfl
  | cons x rest ih =>
    cases rest with
    | nil => simp
    | cons y rest =>
      rw [List.intercalate_cons_cons, List.filter_append, List.filter_append, ih,
        List.flatten_cons, List.filter_append]
      simp [hc]

variable {upper : String → String}

/-- All that is used of `toUpperCase`: it leaves the digits of a code and hyphens as they are. -/
def KeepsCode (upper : String → String) : Prop :=
  ∀ text : String, (∀ c ∈ text.toList, c ∈ alphabet ∨ c = '-') → upper text = text

theorem digitChar_mem {d : ℕ} (hd : d < 32) : digitChar d ∈ alphabet := by
  unfold digitChar
  have hlt : d < alphabet.length := length_alphabet ▸ hd
  rw [List.getD_eq_getElem?_getD, List.getElem?_eq_getElem hlt, Option.getD_some]
  exact List.getElem_mem hlt

theorem codeText_groups (hupper : KeepsCode upper) (h : ∀ d ∈ digits, d < 32)
    (hlength : digits.length = 26) :
    codeText upper (String.ofList (['-'].intercalate (groups (digitText digits)))) =
      digitText digits := by
  have hflatten : (groups (digitText digits)).flatten = digitText digits :=
    flatten_groups (by simp [digitText, hlength])
  have hplain : ∀ c ∈ ['-'].intercalate (groups (digitText digits)), c ∈ alphabet ∨ c = '-' := by
    intro c hc
    by_cases hhyphen : c = '-'
    · exact Or.inr hhyphen
    · left
      have hmem : c ∈ (['-'].intercalate (groups (digitText digits))).filter (· ≠ '-') :=
        List.mem_filter.mpr ⟨hc, decide_eq_true hhyphen⟩
      rw [filter_intercalate (by decide), hflatten] at hmem
      obtain ⟨d, hd, rfl⟩ := List.mem_map.mp (List.mem_filter.mp hmem).1
      exact digitChar_mem (h d hd)
  unfold codeText
  rw [hupper _ (by rwa [String.toList_ofList]), String.toList_ofList,
    filter_intercalate (by decide), hflatten]
  have hkept : (digitText digits).filter (fun c => !(isSpace c || c = '-')) = digitText digits := by
    refine List.filter_eq_self.mpr fun c hc => ?_
    obtain ⟨d, hd, rfl⟩ := List.mem_map.mp hc
    obtain ⟨-, hspace, hhyphen, -⟩ := digitChar_plain d (h d hd)
    simp [hspace, hhyphen]
  rw [hkept]
  unfold digitText
  rw [List.map_map]
  refine List.map_congr_left fun d hd => ?_
  exact (digitChar_plain d (h d hd)).2.2.2.1

/-! ### Parsing and formatting -/

/-- A text denotes a number: what is read of it are the 26 digits of the number. -/
def Denotes (upper : String → String) (input : String) (n : ℕ) : Prop :=
  ∃ digits : List ℕ, digits.length = 26 ∧ (∀ d ∈ digits, d < 32) ∧
    codeText upper input = digitText digits ∧ valueOf 32 digits = n

theorem parse_of_denotes {input : String} {n : ℕ} (h : Denotes upper input n) :
    parseRecoveryCode upper input =
      if 2 ^ 128 ≤ n then .error .invalidRecoveryCode else .ok (valueBytes n) := by
  obtain ⟨digits, hlength, hdigits, htext, rfl⟩ := h
  unfold parseRecoveryCode
  dsimp only
  rw [htext, if_neg (by rw [unitLength_digitText hdigits, hlength]; simp),
    readDigits_digitText hdigits]
  rfl

theorem denotes_of_parse {input : String} (h : parseRecoveryCode upper input = .ok bytes) :
    bytes.length = 16 ∧ Denotes upper input (bytesValue bytes) := by
  unfold parseRecoveryCode at h
  dsimp only at h
  split_ifs at h with hlength
  obtain ⟨n, hn, -⟩ := bind_eq_ok.mp h
  obtain ⟨digits, hdigits, htext⟩ := exists_digits_of_readDigits hn
  have hcount : digits.length = 26 := by
    rw [← unitLength_digitText hdigits, ← htext]
    exact not_not.mp hlength
  have hdenotes : Denotes upper input (valueOf 32 digits) := ⟨digits, hcount, hdigits, htext, rfl⟩
  have hparse := parse_of_denotes hdenotes
  split_ifs at hparse with hlarge
  · unfold parseRecoveryCode at hparse
    dsimp only at hparse
    rw [if_neg hlength, h] at hparse
    cases hparse
  · unfold parseRecoveryCode at hparse
    dsimp only at hparse
    rw [if_neg hlength, h] at hparse
    have hbytes := Except.ok.inj hparse
    rw [hbytes, bytesValue_valueBytes (by omega)]
    exact ⟨length_valueBytes _, hdenotes⟩

theorem denotes_formatRecoveryCode (hupper : KeepsCode upper)
    (h : bytes.length = 16) : ∃ code, formatRecoveryCode bytes = .ok code ∧
      Denotes upper code (bytesValue bytes) := by
  have hdigits : ∀ d ∈ digitsOf 32 26 (bytesValue bytes), d < 32 := fun d hd =>
    lt_of_mem_digitsOf (by norm_num) hd
  refine ⟨_, if_neg (by simp [h]), digitsOf 32 26 (bytesValue bytes), length_digitsOf _ _, hdigits,
    ?_, ?_⟩
  · rw [writeDigits_eq, List.append_nil]
    exact codeText_groups hupper hdigits (length_digitsOf _ _)
  · rw [valueOf_digitsOf]
    exact Nat.mod_eq_of_lt (lt_of_lt_of_le (bytesValue_lt h) (by decide))

theorem parse_formatRecoveryCode (hupper : KeepsCode upper)
    (h : bytes.length = 16) : ∃ code, formatRecoveryCode bytes = .ok code ∧
      parseRecoveryCode upper code = .ok bytes := by
  obtain ⟨code, hcode, hdenotes⟩ := denotes_formatRecoveryCode hupper h
  refine ⟨code, hcode, ?_⟩
  rw [parse_of_denotes hdenotes, if_neg (not_le.mpr (bytesValue_lt h)), valueBytes_bytesValue h]

/-! ### Wrapping and unwrapping -/

variable {crypto : SeedCrypto}

theorem deriveSeedWrapKey_eq_ok {code : Bytes} {scope : String} {key : Bytes}
    (h : deriveSeedWrapKey crypto code scope = .ok key) :
    code.length = 16 ∧ key = crypto.hkdf code (utf8 "chama-seed-backup-v2") (utf8 scope) := by
  unfold deriveSeedWrapKey at h
  simp only [bind_eq_ok, rejectIf_eq_ok, pure_eq_ok] at h
  obtain ⟨-, -, -, hlength, rfl⟩ := h
  exact ⟨not_not.mp hlength, rfl⟩

theorem same_of_unwrap (laws : SeedCryptoLaws crypto) {mnemonic scope scope' input seed : String}
    {code nonce : Bytes} {payload : SeedBackupV2}
    (hwrap : wrapSeedBackup crypto mnemonic code scope nonce = .ok payload)
    (hunwrap : unwrapSeedBackup upper crypto payload input scope' = .ok seed) :
    parseRecoveryCode upper input = .ok code ∧ scope' = scope := by
  unfold wrapSeedBackup at hwrap
  obtain ⟨-, -, hwrap⟩ := bind_eq_ok.mp hwrap
  obtain ⟨key, hkey, hpayload⟩ := bind_eq_ok.mp hwrap
  obtain rfl := pure_eq_ok.mp hpayload
  unfold unwrapSeedBackup at hunwrap
  obtain ⟨safe, hsafe, hunwrap⟩ := bind_eq_ok.mp hunwrap
  obtain ⟨code', hcode', hunwrap⟩ := bind_eq_ok.mp hunwrap
  obtain ⟨key', hkey', hunwrap⟩ := bind_eq_ok.mp hunwrap
  obtain ⟨-, -, hopen⟩ := bind_eq_ok.mp hunwrap
  unfold parseSeedBackupV2 at hsafe
  simp only [bind_eq_ok, rejectIf_eq_ok, pure_eq_ok] at hsafe
  obtain ⟨-, -, -, hchecked, rfl⟩ := hsafe
  push Not at hchecked
  have hscope : scope = scope' := hchecked.1
  subst hscope
  obtain ⟨hlength, rfl⟩ := deriveSeedWrapKey_eq_ok hkey
  obtain ⟨hlength', rfl⟩ := deriveSeedWrapKey_eq_ok hkey'
  -- the box opened, so the two keys are the same, and so are the codes they come from
  cases hseed : openedSeed crypto
      (crypto.hkdf code' (utf8 "chama-seed-backup-v2") (utf8 scope)) scope {
        scope
        codeCheck := recoveryCodeCheck crypto code
        nonce := crypto.base64Encode nonce
        box := crypto.base64Encode (crypto.encrypt
          (crypto.hkdf code (utf8 "chama-seed-backup-v2") (utf8 scope)) nonce (utf8 scope)
          (utf8 mnemonic)) } with
  | none =>
    rw [hseed] at hopen
    cases hopen
  | some opened =>
    unfold openedSeed at hseed
    simp only [laws.base64, Option.bind_eq_bind, Option.bind_some] at hseed
    obtain ⟨clear, hclear, -⟩ := Option.bind_eq_some_iff.mp hseed
    have hsame := laws.derivation _ _ _ _ hlength hlength'
      (laws.committing _ _ _ _ _ _ _ hclear)
    exact ⟨hsame ▸ hcode', rfl⟩

/-- The promises of the recovery code.  Formatting 16 bytes and parsing the code gives them back; a
text that is accepted denotes 16 bytes, whose canonical code is accepted too and read as the same
digits; a text that denotes a number of more than 128 bits is rejected; and an envelope is unwrapped
only with the code and the scope that it was wrapped with. -/
theorem recovery_code_law (hupper : KeepsCode upper) (laws : SeedCryptoLaws crypto) :
    (∀ bytes : Bytes, bytes.length = 16 → ∃ code, formatRecoveryCode bytes = .ok code ∧
      parseRecoveryCode upper code = .ok bytes) ∧
    (∀ input bytes, parseRecoveryCode upper input = .ok bytes →
      bytes.length = 16 ∧ Denotes upper input (bytesValue bytes) ∧
      ∃ code, formatRecoveryCode bytes = .ok code ∧ parseRecoveryCode upper code = .ok bytes ∧
        codeText upper code = codeText upper input) ∧
    (∀ input n, Denotes upper input n → 2 ^ 128 ≤ n →
      parseRecoveryCode upper input = .error .invalidRecoveryCode) ∧
    (∀ mnemonic code scope nonce payload,
      wrapSeedBackup crypto mnemonic code scope nonce = .ok payload →
      ∀ input scope' seed, unwrapSeedBackup upper crypto payload input scope' = .ok seed →
        parseRecoveryCode upper input = .ok code ∧ scope' = scope) := by
  refine ⟨?_, ?_, ?_, ?_⟩
  · intro bytes h
    exact parse_formatRecoveryCode hupper h
  · intro input bytes h
    obtain ⟨hlength, hdenotes⟩ := denotes_of_parse h
    obtain ⟨code, hcode, hparse⟩ := parse_formatRecoveryCode hupper hlength
    refine ⟨hlength, hdenotes, code, hcode, hparse, ?_⟩
    -- both are read as the only 26 digits of the number
    obtain ⟨-, digits, hcount, hdigits, htext, hvalue⟩ := denotes_of_parse hparse
    obtain ⟨digits', hcount', hdigits', htext', hvalue'⟩ := hdenotes
    have hsame := digitsOf_valueOf hdigits
    have hsame' := digitsOf_valueOf hdigits'
    rw [hcount, hvalue] at hsame
    rw [hcount', hvalue'] at hsame'
    rw [htext, htext', ← hsame, ← hsame']
  · intro input n h hn
    rw [parse_of_denotes h, if_pos hn]
  · intro mnemonic code scope nonce payload hwrap input scope' seed hunwrap
    exact same_of_unwrap laws hwrap hunwrap

/-! ### A sample seed -/

/-- `toUpperCase` on ASCII. -/
def asciiUpper (text : String) : String := String.ofList (text.toList.map Char.toUpper)

theorem keepsCode_asciiUpper : KeepsCode asciiUpper := by
  intro text h
  have hplain : ('-' :: alphabet).map Char.toUpper = ('-' :: alphabet).map id := by
    decide +kernel
  have hsame : text.toList.map Char.toUpper = text.toList := by
    refine (List.map_congr_left fun c hc => List.map_inj_left.mp hplain c ?_).trans
      (List.map_id _)
    rcases h c hc with halphabet | rfl
    · exact List.mem_cons_of_mem _ halphabet
    · exact List.mem_cons_self
  unfold asciiUpper
  rw [hsame, String.ofList_toList]

def sampleCode : Bytes := List.replicate 15 0 ++ [1]

def sampleCrypto : SeedCrypto where
  sha256 _ := List.replicate 32 7
  hkdf secret _ _ := secret
  encrypt key _ _ clear := if key = sampleCode then key ++ clear else []
  decrypt key _ _ box :=
    if key = sampleCode ∧ sampleCode.isPrefixOf box then some (box.drop 16) else none
  base64Encode := latin1
  base64Decode text := some (ofLatin1 text)
  validateMnemonic mnemonic := mnemonic = "seed"

theorem sampleCryptoLaws : SeedCryptoLaws sampleCrypto where
  base64 bytes := congrArg some (ofLatin1_latin1 bytes)
  committing := by
    intro key nonce data clear key' data' clear' h
    simp only [sampleCrypto] at h
    split_ifs at h with hkey hopen
    · rw [hkey, hopen.1]
    · rename_i hopen
      exact absurd hopen.2 (by decide)
  derivation _ _ _ _ _ _ h := h

theorem sample_seed_unwraps : ∃ payload,
    wrapSeedBackup sampleCrypto "seed" sampleCode "browser" (List.replicate 24 0) = .ok payload ∧
    unwrapSeedBackup asciiUpper sampleCrypto payload "ooooo 00000 0000 0000 0000 000l" "browser" =
      .ok "seed" ∧
    parseRecoveryCode asciiUpper "ooooo 00000 0000 0000 0000 000l" = .ok sampleCode := by
  have hrun : ∃ payload,
      wrapSeedBackup sampleCrypto "seed" sampleCode "browser" (List.replicate 24 0) = .ok payload ∧
      decide ((unwrapSeedBackup asciiUpper sampleCrypto payload "ooooo 00000 0000 0000 0000 000l"
        "browser").toOption = some "seed") = true :=
    exists_ok_of_any (by decide +kernel)
  obtain ⟨payload, hwrap, hunwrap⟩ := hrun
  have hseed := toOption_eq_some.mp (of_decide_eq_true hunwrap)
  exact ⟨payload, hwrap, hseed, ((recovery_code_law keepsCode_asciiUpper sampleCryptoLaws).2.2.2
    _ _ _ _ _ hwrap _ _ _ hseed).1⟩

end ChamaEscrow.SeedBackup
