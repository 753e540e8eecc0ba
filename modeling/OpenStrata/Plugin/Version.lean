import OpenStrata.Core.Text

/-!
# Version ranges

A version is a dotted sequence of integers, compared with missing components read as zero. A
range is a comma-separated list of comparators that must all hold.

## Main definitions

* `Version.parse`, `Version.cmp`: versions and their order
* `Version.satisfies`: whether a version lies in a range
-/

namespace OpenStrata.Version

/-- Parse a dotted version into numeric components. -/
def parse (version : String) : Option (List Nat) :=
  let v := Text.trim version
  if v.isEmpty then none
  else (Text.split (· == '.') v).mapM fun p => Text.parseU64 (Text.trim p)

/-- Compare two parsed versions, the shorter one padded with zeros. -/
def cmp : List Nat → List Nat → Ordering
  | [], ys => ys.foldr (fun y rest => (compare 0 y).then rest) .eq
  | x :: xs, ys => (compare x (ys.headD 0)).then (cmp xs ys.tail)

/-- Why a range check could not be decided. -/
inductive RangeError
  | badVersion (version : String)
  | badRange (range : String)
  deriving DecidableEq, Repr

/-- The rendering of a range error. -/
def RangeError.render : RangeError → String
  | .badVersion v => "unparseable version '" ++ v ++ "'"
  | .badRange r => "unparseable version range '" ++ r ++ "'"

/-- The operators of a comparator, in the order they are tried. -/
def operators : List String := [">=", "<=", "==", ">", "<", "="]

/-- Split a comparator into operator and operand; a bare version means `=`. -/
def splitOp (part : String) : String × String :=
  match operators.findSome? fun op => (Text.stripPrefix op part).map fun rest => (op, rest) with
  | some (op, rest) => (op, Text.trim rest)
  | none => ("=", part)

/-- Whether the ordering of version and bound is the one the operator asks for. -/
def holds (op : String) (ord : Ordering) : Bool :=
  if op = ">=" then ord != .lt
  else if op = "<=" then ord != .gt
  else if op = ">" then ord == .gt
  else if op = "<" then ord == .lt
  else ord == .eq

/-- The comparators of a range in order, stopping at the first that fails. -/
def satisfiesParts (range : String) (version : List Nat) : List String → Except RangeError Bool
  | [] => .ok true
  | part :: parts =>
    let part := Text.trim part
    if part.isEmpty then satisfiesParts range version parts
    else
      let (op, rhs) := splitOp part
      match parse rhs with
      | none => .error (.badRange range)
      | some bound =>
        if holds op (cmp version bound) then satisfiesParts range version parts else .ok false

/-- Does `version` satisfy `range`? -/
def satisfies (version range : String) : Except RangeError Bool :=
  match parse version with
  | none => .error (.badVersion version)
  | some v => satisfiesParts range v (Text.split (· == ',') range)

example : satisfies "24.11.3" ">=24.11,<25.0" = .ok true := by decide

end OpenStrata.Version
