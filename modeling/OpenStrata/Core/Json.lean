import Mathlib.Algebra.Group.Int.Defs
import Mathlib.Data.List.Basic
import Mathlib.Data.Prod.Lex
import Mathlib.Data.String.Basic

/-!
# JSON values

The value type of `serde_json` as the program reads it: objects are lists of fields in key
order, integers are exact, and a number that is not an integer is kept as its literal.
Accessors follow `serde_json::Value`: every one is total and answers `none` on the wrong shape.

## Main definitions

* `Json`: JSON values
* `Json.get?`, `Json.pointer?`: a field, and a path of fields
* `Json.asStr?`, `Json.asU64?`, `Json.asArr?`: typed views
* `Json.render`: the compact printer
-/

namespace OpenStrata

/-- A JSON value. -/
inductive Json
  | null
  | bool (b : Bool)
  | int (n : Int)
  | float (literal : String)
  | str (s : String)
  | arr (items : List Json)
  | obj (fields : List (String × Json))
  deriving Repr

namespace Json

mutual

/-- Decidable equality, by recursion on the left value. -/
def decEq : (a b : Json) → Decidable (a = b)
  | .null, .null => isTrue rfl
  | .bool a, .bool b =>
    if h : a = b then isTrue (by rw [h]) else isFalse (by simpa using h)
  | .int a, .int b =>
    if h : a = b then isTrue (by rw [h]) else isFalse (by simpa using h)
  | .float a, .float b =>
    if h : a = b then isTrue (by rw [h]) else isFalse (by simpa using h)
  | .str a, .str b =>
    if h : a = b then isTrue (by rw [h]) else isFalse (by simpa using h)
  | .arr a, .arr b =>
    match decEqItems a b with
    | isTrue h => isTrue (by rw [h])
    | isFalse h => isFalse (by simpa using h)
  | .obj a, .obj b =>
    match decEqFields a b with
    | isTrue h => isTrue (by rw [h])
    | isFalse h => isFalse (by simpa using h)
  | .null, .bool _ | .null, .int _ | .null, .float _ | .null, .str _ | .null, .arr _
  | .null, .obj _ | .bool _, .null | .bool _, .int _ | .bool _, .float _ | .bool _, .str _
  | .bool _, .arr _ | .bool _, .obj _ | .int _, .null | .int _, .bool _ | .int _, .float _
  | .int _, .str _ | .int _, .arr _ | .int _, .obj _ | .float _, .null | .float _, .bool _
  | .float _, .int _ | .float _, .str _ | .float _, .arr _ | .float _, .obj _ | .str _, .null
  | .str _, .bool _ | .str _, .int _ | .str _, .float _ | .str _, .arr _ | .str _, .obj _
  | .arr _, .null | .arr _, .bool _ | .arr _, .int _ | .arr _, .float _ | .arr _, .str _
  | .arr _, .obj _ | .obj _, .null | .obj _, .bool _ | .obj _, .int _ | .obj _, .float _
  | .obj _, .str _ | .obj _, .arr _ => isFalse (by simp)

/-- Decidable equality of the items of an array. -/
def decEqItems : (a b : List Json) → Decidable (a = b)
  | [], [] => isTrue rfl
  | [], _ :: _ | _ :: _, [] => isFalse (by simp)
  | a :: as, b :: bs =>
    match decEq a b, decEqItems as bs with
    | isTrue h, isTrue hs => isTrue (by rw [h, hs])
    | isFalse h, _ => isFalse (by simp [h])
    | _, isFalse h => isFalse (by simp [h])

/-- Decidable equality of the fields of an object. -/
def decEqFields : (a b : List (String × Json)) → Decidable (a = b)
  | [], [] => isTrue rfl
  | [], _ :: _ | _ :: _, [] => isFalse (by simp)
  | (k, a) :: as, (l, b) :: bs =>
    if hk : k = l then
      match decEq a b, decEqFields as bs with
      | isTrue h, isTrue hs => isTrue (by rw [hk, h, hs])
      | isFalse h, _ => isFalse (by simp [h])
      | _, isFalse h => isFalse (by simp [h])
    else isFalse (by simp [hk])

end

instance : DecidableEq Json := decEq

instance : Inhabited Json := ⟨.null⟩

/-- `Value::get`: the field of an object. -/
def get? (key : String) : Json → Option Json
  | .obj fields => fields.lookup key
  | _ => none

/-- `Value::pointer` along object keys. -/
def pointer? : List String → Json → Option Json
  | [], value => some value
  | key :: keys, value => (value.get? key).bind (pointer? keys)

def asStr? : Json → Option String
  | .str s => some s
  | _ => none

def asBool? : Json → Option Bool
  | .bool b => some b
  | _ => none

/-- `Value::as_u64`: a non-negative integer below `2 ^ 64`. -/
def asU64? : Json → Option Nat
  | .int n => if 0 ≤ n ∧ n < 2 ^ 64 then some n.toNat else none
  | _ => none

def asArr? : Json → Option (List Json)
  | .arr items => some items
  | _ => none

def isObject : Json → Bool
  | .obj _ => true
  | _ => false

def isNull : Json → Bool
  | .null => true
  | _ => false

/-- `Value::get` followed by `as_str`. -/
def getStr? (key : String) (value : Json) : Option String :=
  (value.get? key).bind asStr?

/-- Indexing `value[key]`: a missing field reads as `null`. -/
def index (key : String) (value : Json) : Json :=
  (value.get? key).getD .null

/-! ## Printing -/

/-- A hexadecimal digit, lowercase. -/
def hexDigit (n : Nat) : Char :=
  if n < 10 then Char.ofNat ('0'.toNat + n) else Char.ofNat ('a'.toNat + (n - 10))

/-- A character inside a string literal. -/
def escapeChar (c : Char) : List Char :=
  if c = '"' then ['\\', '"']
  else if c = '\\' then ['\\', '\\']
  else if c.toNat = 0x08 then ['\\', 'b']
  else if c.toNat = 0x09 then ['\\', 't']
  else if c.toNat = 0x0a then ['\\', 'n']
  else if c.toNat = 0x0c then ['\\', 'f']
  else if c.toNat = 0x0d then ['\\', 'r']
  else if c.toNat < 0x20 then
    ['\\', 'u', '0', '0', hexDigit (c.toNat / 16), hexDigit (c.toNat % 16)]
  else [c]

def renderString (s : String) : String :=
  "\"" ++ String.ofList (s.toList.flatMap escapeChar) ++ "\""

mutual

/-- `serde_json::to_string`. -/
def render : Json → String
  | .null => "null"
  | .bool b => if b then "true" else "false"
  | .int n => toString n
  | .float literal => literal
  | .str s => renderString s
  | .arr items => "[" ++ renderItems items ++ "]"
  | .obj fields => "\x7b" ++ renderFields fields ++ "\x7d"

/-- The items of an array, separated by commas. -/
def renderItems : List Json → String
  | [] => ""
  | [item] => render item
  | item :: items => render item ++ "," ++ renderItems items

/-- The fields of an object, separated by commas. -/
def renderFields : List (String × Json) → String
  | [] => ""
  | [(key, value)] => renderString key ++ ":" ++ render value
  | (key, value) :: fields => renderString key ++ ":" ++ render value ++ "," ++ renderFields fields

end

end Json

end OpenStrata
