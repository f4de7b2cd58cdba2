import ChamaEscrow.Js.Number

/-!
# JavaScript values

A payload field that the parser does not check reaches the reducer as whatever value the signed
JSON holds.  `JsValue` is such a value, and the functions below are the operations the engine
applies to one: reading a property, iterating, `.length`, `.includes`, `.toLowerCase()`, printing
into a message.  Outside its domain an operation throws, so each is a computation in
`Except JsError`.

Only `print`, `toLowerCase` and `trim` look inside a text; they follow JavaScript on ASCII.
-/

namespace ChamaEscrow.Js

/-- What a JavaScript operation throws outside its domain. -/
inductive JsError
  | typeError (message : String)
  | rangeError (message : String)
  | error (message : String)
  deriving DecidableEq

/-- A value of a parsed JSON document, or `undefined` for a field that is absent. -/
inductive JsValue
  | undefined
  | null
  | bool (b : Bool)
  | num (n : JsNumber)
  | str (s : String)
  | arr (items : List JsValue)
  | obj (fields : List (String × JsValue))

instance : Inhabited JsValue := ⟨.undefined⟩

/-! ### Text -/

/-- `s.toLowerCase()`. -/
def toLowerCase (s : String) : String := String.ofList (s.toList.map Char.toLower)

/-- `s.trim()`. -/
def trim (s : String) : String :=
  String.ofList ((s.toList.dropWhile Char.isWhitespace).reverse.dropWhile
    Char.isWhitespace).reverse

/-- `/^[0-9a-f]*$/`, with the length the pattern asks for. -/
def isLowerHex (length : ℕ) (s : String) : Bool :=
  s.toList.length = length && s.toList.all fun c => c.isDigit || ('a' ≤ c && c ≤ 'f')

/-- `/^\d+$/`. -/
def isDigits (s : String) : Bool := !s.toList.isEmpty && s.toList.all Char.isDigit

/-- `s.includes(t)` on texts. -/
def textIncludes (s t : String) : Bool := s.toList.tails.any t.toList.isPrefixOf

def textChars (s : String) : List String := s.toList.map fun c => String.ofList [c]

namespace JsValue

/-! ### Tests -/

def truthy : JsValue → Bool
  | undefined | null => false
  | bool b => b
  | num n => n ≠ .nan && n ≠ 0
  | str s => s ≠ ""
  | arr _ | obj _ => true

/-- `v === undefined`. -/
def isUndefined : JsValue → Bool
  | undefined => true
  | _ => false

/-- `v ?? w`. -/
def orElse : JsValue → JsValue → JsValue
  | undefined, w | null, w => w
  | v, _ => v

/-- `v || w`. -/
def orFalsy (v w : JsValue) : JsValue := if v.truthy then v else w

/-- `v === w` for values of two different documents: records and arrays are never identical. -/
def strictEq : JsValue → JsValue → Bool
  | undefined, undefined | null, null => true
  | bool a, bool b => a = b
  | num a, num b => a.strictEq b
  | str a, str b => a = b
  | _, _ => false

/-- `v === s` for a text `s`. -/
def isText (s : String) : JsValue → Bool
  | str t => t = s
  | _ => false

def text? : JsValue → Option String
  | str s => some s
  | _ => none

def number? : JsValue → Option JsNumber
  | num n => some n
  | _ => none

def bool? : JsValue → Option Bool
  | bool b => some b
  | _ => none

/-! ### Properties -/

/-- `Object.keys(v)`. -/
def ownKeys : JsValue → List String
  | obj fields => fields.map Prod.fst
  | arr items => (List.range items.length).map toString
  | str s => (List.range s.toList.length).map toString
  | _ => []

/-- The own property of a record, `undefined` when it has none. -/
def field (key : String) : JsValue → JsValue
  | obj fields => (fields.lookup key).getD undefined
  | _ => undefined

def textAt (v : JsValue) (key : String) : String := (v.field key).text?.getD ""

/-- The number in a field, `NaN` when there is none. -/
def numberAt (v : JsValue) (key : String) : JsNumber := (v.field key).number?.getD .nan

def elementAt (items : List JsValue) (key : String) : JsValue :=
  match (List.range items.length).find? fun i => toString i = key with
  | some i => items.getD i undefined
  | none => undefined

/-- `v[key]` where `v` is known to be neither `null` nor `undefined`. -/
def member (key : String) : JsValue → JsValue
  | obj fields => field key (obj fields)
  | arr items => if key = "length" then num (.ofInt items.length) else elementAt items key
  | str s =>
    if key = "length" then num (.ofInt s.toList.length)
    else elementAt ((textChars s).map str) key
  | _ => undefined

/-- `v[key]`. -/
def get (key : String) : JsValue → Except JsError JsValue
  | undefined => .error (.typeError s!"Cannot read properties of undefined (reading '{key}')")
  | null => .error (.typeError s!"Cannot read properties of null (reading '{key}')")
  | v => .ok (v.member key)

/-- `v?.[key]`. -/
def getOptional (key : String) : JsValue → JsValue
  | undefined | null => undefined
  | v => v.member key

/-! ### Iteration and arrays -/

/-- The values a `for … of` loop, or a spread `[...v]`, takes from `v`. -/
def spread : JsValue → Except JsError (List JsValue)
  | arr items => .ok items
  | str s => .ok ((textChars s).map str)
  | _ => .error (.typeError "object is not iterable")

/-- `v` as the receiver of `.map`, `.filter`, `.some` and `.every`. -/
def items : JsValue → Except JsError (List JsValue)
  | arr items => .ok items
  | undefined | null => .error (.typeError "Cannot read properties of undefined")
  | _ => .error (.typeError "not a function")

/-- `v.includes(s)` for a text `s`. -/
def includes (s : String) : JsValue → Except JsError Bool
  | arr items => .ok (items.any (isText s))
  | str t => .ok (textIncludes t s)
  | undefined | null => .error (.typeError "Cannot read properties of undefined")
  | _ => .error (.typeError "includes is not a function")

/-- `v.length > 0`.  A record's own `length` counts when it is a number. -/
def hasLength (v : JsValue) : Except JsError Bool := do
  match ← v.get "length" with
  | num n => return 0 < n
  | _ => return false

/-- `v.length === 0`. -/
def lengthIsZero (v : JsValue) : Except JsError Bool := do
  return (← v.get "length").strictEq (num 0)

/-- `v.toLowerCase()`. -/
def lowered : JsValue → Except JsError String
  | str s => .ok (toLowerCase s)
  | undefined | null => .error (.typeError "Cannot read properties of undefined")
  | _ => .error (.typeError "toLowerCase is not a function")

/-- `v.trim()`. -/
def trimmed : JsValue → Except JsError String
  | str s => .ok (trim s)
  | undefined | null => .error (.typeError "Cannot read properties of undefined")
  | _ => .error (.typeError "trim is not a function")

/-! ### Printing -/

mutual
/-- `String(v)`, also what a template literal prints.  A record prints through `toString`, so one
whose own `toString` is plain data has no text at all. -/
def print : JsValue → Except JsError String
  | undefined => .ok "undefined"
  | null => .ok "null"
  | bool b => .ok (if b then "true" else "false")
  | num n => .ok n.toText
  | str s => .ok s
  | arr items => return ",".intercalate (← printItems items)
  | obj fields =>
    if fields.any fun f => f.1 = "toString" then
      .error (.typeError "Cannot convert object to primitive value")
    else .ok "[object Object]"

/-- The texts `Array.prototype.join` glues together. -/
def printItems : List JsValue → Except JsError (List String)
  | [] => .ok []
  | v :: vs => return (← printItem v) :: (← printItems vs)

/-- One element of a joined array: `null` and `undefined` print as nothing. -/
def printItem : JsValue → Except JsError String
  | undefined | null => .ok ""
  | bool b => .ok (if b then "true" else "false")
  | num n => .ok n.toText
  | str s => .ok s
  | arr items => return ",".intercalate (← printItems items)
  | obj fields =>
    if fields.any fun f => f.1 = "toString" then
      .error (.typeError "Cannot convert object to primitive value")
    else .ok "[object Object]"
end

/-! ### Comparison of documents -/

mutual
/-- Whether two documents print the same canonical JSON: records are compared as unordered sets
of fields, and a field holding `undefined` counts as absent. -/
def sameJson : JsValue → JsValue → Bool
  | undefined, undefined | null, null => true
  | bool a, bool b => a = b
  | num a, num b => a = b || (!a.isFinite && !b.isFinite)
  | null, num b => !b.isFinite
  | num a, null => !a.isFinite
  | str a, str b => a = b
  | arr xs, arr ys => sameItems xs ys
  | obj xs, obj ys => fieldsIn xs (obj ys) && ys.all fun f => f.2.isUndefined || xs.any (·.1 = f.1)
  | _, _ => false

/-- `sameJson` on the elements of two arrays. -/
def sameItems : List JsValue → List JsValue → Bool
  | [], [] => true
  | x :: xs, y :: ys => sameJson x y && sameItems xs ys
  | _, _ => false

/-- Whether every field of a record that JSON would print is printed alike by `v`. -/
def fieldsIn : List (String × JsValue) → JsValue → Bool
  | [], _ => true
  | (key, x) :: xs, v =>
    (if x.isUndefined then (v.field key).isUndefined else sameJson x (v.field key))
      && fieldsIn xs v
end

end JsValue
end ChamaEscrow.Js
