import OpenStrata.Lib.Yaml

/-!
# The core schema

How the core schema of YAML 1.2 resolves a plain scalar: as null, a boolean, a number or a
string. Numbers are kept as they are written.

## Main definitions

* `resolve`: the resolution of a plain scalar

## Main results

* `resolve_of_head`: most words are strings, by their first character
-/

namespace Yaml

/-- A resolved plain scalar. -/
inductive Scalar
  | null
  | bool (b : Bool)
  | number (text : Line)
  | str (s : Line)
  deriving DecidableEq, Repr

def isNull (v : Line) : Bool :=
  ["", "null", "Null", "NULL", "~"].any fun word => word.toList == v

def isTrue (v : Line) : Bool := ["true", "True", "TRUE"].any fun word => word.toList == v

def isFalse (v : Line) : Bool := ["false", "False", "FALSE"].any fun word => word.toList == v

/-- A text without its sign. -/
def unsigned : Line → Line
  | '+' :: v | '-' :: v => v
  | v => v

def isDigits (v : Line) : Bool := !v.isEmpty && v.all Char.isDigit

def isOctalDigit (c : Char) : Bool := '0' ≤ c && c ≤ '7'

def isHexDigit (c : Char) : Bool :=
  c.isDigit || ('a' ≤ c && c ≤ 'f') || ('A' ≤ c && c ≤ 'F')

/-- An integer: decimal digits with a sign, octal digits or hexadecimal digits. -/
def isInteger (v : Line) : Bool :=
  isDigits (unsigned v) ||
    match v with
    | '0' :: 'o' :: digits => !digits.isEmpty && digits.all isOctalDigit
    | '0' :: 'x' :: digits => !digits.isEmpty && digits.all isHexDigit
    | _ => false

/-- Digits with a point before, among or after them. -/
def isMantissa (v : Line) : Bool :=
  match v.dropWhile Char.isDigit with
  | [] => !v.isEmpty
  | '.' :: fraction =>
    fraction.all Char.isDigit && !((v.takeWhile Char.isDigit).isEmpty && fraction.isEmpty)
  | _ => false

def isExponent (v : Line) : Bool :=
  match v with
  | [] => true
  | _ :: digits => isDigits (unsigned digits)

/-- A floating-point number, infinite ones and the one that is none among them. -/
def isFloat (v : Line) : Bool :=
  let number := unsigned v
  let isMark := fun c => c == 'e' || c == 'E'
  (isMantissa (number.takeWhile (!isMark ·)) && isExponent (number.dropWhile (!isMark ·))) ||
    [".inf", ".Inf", ".INF"].any (fun word => word.toList == number) ||
    [".nan", ".NaN", ".NAN"].any (fun word => word.toList == v)

/-- The resolution of a plain scalar. -/
def resolve (v : Line) : Scalar :=
  if isNull v then .null
  else if isTrue v then .bool true
  else if isFalse v then .bool false
  else if isInteger v || isFloat v then .number v
  else .str v

/-- The characters at the head of a word that is no string. -/
def isSchemaHead (c : Char) : Bool := c.isDigit || "~nNtTfF+-.".toList.contains c

variable {c : Char} {v : Line}

section Head

variable (h : isSchemaHead c = false)

include h

theorem head_ne : ∀ d ∈ "~nNtTfF+-.".toList, c ≠ d := by
  rintro d hd rfl
  rw [isSchemaHead, Bool.or_eq_false_iff] at h
  rw [List.contains_iff_mem.mpr hd] at h
  cases h.2

theorem not_isDigit : c.isDigit = false := by
  rw [isSchemaHead, Bool.or_eq_false_iff] at h
  exact h.1

theorem unsigned_of_head : unsigned (c :: v) = c :: v := by
  have hplus : c ≠ '+' := head_ne h _ (by decide)
  have hminus : c ≠ '-' := head_ne h _ (by decide)
  unfold unsigned
  split
  · next heq => exact absurd (List.cons.inj heq).1 hplus
  · next heq => exact absurd (List.cons.inj heq).1 hminus
  · rfl

theorem isMantissa_of_head : isMantissa (c :: v) = false := by
  have hdrop : (c :: v).dropWhile Char.isDigit = c :: v :=
    List.dropWhile_cons_of_neg (by simp [not_isDigit h])
  have hpoint : c ≠ '.' := head_ne h _ (by decide)
  rw [isMantissa, hdrop]
  split
  · next heq => cases heq
  · next heq => exact absurd (List.cons.inj heq).1 hpoint
  · rfl

theorem isInteger_of_head : isInteger (c :: v) = false := by
  have hdigits : isDigits (c :: v) = false := by simp [isDigits, not_isDigit h]
  have hzero : c ≠ '0' := by
    rintro rfl
    exact absurd (not_isDigit h) (by decide)
  unfold isInteger
  rw [unsigned_of_head h, hdigits, Bool.false_or]
  split
  · next heq => exact absurd (List.cons.inj heq).1 hzero
  · next heq => exact absurd (List.cons.inj heq).1 hzero
  · rfl

theorem any_of_head {words : List String}
    (hwords : ∀ word ∈ words, word.toList.head?.all "~nNtTfF+-.".toList.contains) :
    words.any (fun word => word.toList == c :: v) = false := by
  refine List.any_eq_false.mpr fun word hword heq => ?_
  have hhead := hwords word hword
  rw [beq_iff_eq.mp heq] at hhead
  exact head_ne h c (List.contains_iff_mem.mp hhead) rfl

theorem isFloat_of_head : isFloat (c :: v) = false := by
  have hmantissa : isMantissa ((c :: v).takeWhile fun c => !(c == 'e' || c == 'E')) = false := by
    rw [List.takeWhile_cons]
    split
    · exact isMantissa_of_head h
    · rfl
  have hinfinite : [".inf", ".Inf", ".INF"].any (fun word => word.toList == c :: v) = false :=
    any_of_head h (by decide)
  have hnone : [".nan", ".NaN", ".NAN"].any (fun word => word.toList == c :: v) = false :=
    any_of_head h (by decide)
  simp only [isFloat, unsigned_of_head h, hmantissa, Bool.false_and, Bool.false_or, hinfinite,
    hnone]

/-- A word that starts with another character is a string. -/
theorem resolve_of_head : resolve (c :: v) = .str (c :: v) := by
  have hnull : isNull (c :: v) = false := by
    have hempty : ("".toList == c :: v) = false := rfl
    rw [isNull, List.any_cons, hempty, Bool.false_or]
    exact any_of_head h (by decide)
  have htrue : isTrue (c :: v) = false := any_of_head h (by decide)
  have hfalse : isFalse (c :: v) = false := any_of_head h (by decide)
  rw [resolve, hnull, htrue, hfalse, isInteger_of_head h, isFloat_of_head h]
  rfl

end Head

end Yaml
