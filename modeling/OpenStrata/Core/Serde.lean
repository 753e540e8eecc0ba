import OpenStrata.Core.Json

/-!
# Deserialisation conventions

What `serde` derives for the program's data types, read off a `Json` value: a struct is read
from an object, or positionally from an array; an optional field may be absent or `null`; a
unit variant is its name, or an object of the name alone. A failure carries no message, since
the text of the deserialiser's complaint is not the program's.

## Main definitions

* `Serde.fields`, `Serde.openFields`: the fields of a struct that denies, or ignores, unknown
  ones
* `Serde.required`, `Serde.optional`, `Serde.withDefault`: one field
* `Serde.string`, `Serde.u32`, `Serde.list`, `Serde.variant`: field types
-/

namespace OpenStrata.Serde

/-- The fields of a struct whose field names are `names`, unknown fields being denied. -/
def fields (names : List String) : Json → Option (List (String × Json))
  | .obj fs => if fs.all fun f => names.contains f.1 then some fs else none
  | .arr items => if items.length ≤ names.length then some (names.zip items) else none
  | _ => none

/-- The fields of a struct that ignores unknown ones. -/
def openFields (names : List String) : Json → Option (List (String × Json))
  | .obj fs => some fs
  | .arr items => if items.length ≤ names.length then some (names.zip items) else none
  | _ => none

/-- A required field. -/
def required {α : Type} (fs : List (String × Json)) (name : String)
    (read : Json → Option α) : Option α :=
  (fs.lookup name).bind read

/-- An optional field: absent and `null` read as `none`. -/
def optional {α : Type} (fs : List (String × Json)) (name : String)
    (read : Json → Option α) : Option (Option α) :=
  match fs.lookup name with
  | none | some .null => some none
  | some value => (read value).map some

/-- A field with a default for its absence. -/
def withDefault {α : Type} (fs : List (String × Json)) (name : String)
    (default : α) (read : Json → Option α) : Option α :=
  match fs.lookup name with
  | none => some default
  | some value => read value

def string : Json → Option String := Json.asStr?

def bool : Json → Option Bool := Json.asBool?

/-- An integer that fits `u32`. -/
def u32 : Json → Option Nat
  | .int n => if 0 ≤ n ∧ n < 2 ^ 32 then some n.toNat else none
  | _ => none

def u64 : Json → Option Nat := Json.asU64?

/-- An array, element by element. -/
def list {α : Type} (read : Json → Option α) (value : Json) : Option (List α) :=
  value.asArr?.bind fun items => items.mapM read

/-- An arbitrary value. -/
def any : Json → Option Json := some

/-- A unit variant, by the table of variant names. -/
def variant {α : Type} (table : List (String × α)) : Json → Option α
  | .str s => table.lookup s
  | .obj [(s, .null)] => table.lookup s
  | _ => none

end OpenStrata.Serde
