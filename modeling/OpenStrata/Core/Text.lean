import Mathlib.Data.List.Basic
import Mathlib.Data.Prod.Lex
import Mathlib.Data.String.Basic

/-!
# Text operations

The operations of Rust's `str` that the program uses, on characters instead of bytes. The two
agree wherever the program compares a byte with an ASCII one: in UTF-8 an ASCII byte is a
character of its own.

## Main definitions

* `Text.trim`, `Text.split`, `Text.splitOnce`, `Text.rsplitOnce`: whitespace and separators
* `Text.stripPrefix`, `Text.stripSuffix`: prefixes and suffixes
* `Text.parseU64`: `str::parse::<u64>`

## Main results

* `Text.stripPrefix_eq_some`: what remains after a prefix
-/

namespace OpenStrata.Text

/-- `char::is_whitespace`: the Unicode property `White_Space`. -/
def isWhitespace (c : Char) : Bool :=
  let n := c.toNat
  (0x09 ≤ n && n ≤ 0x0d) || n == 0x20 || n == 0x85 || n == 0xa0 || n == 0x1680 ||
    (0x2000 ≤ n && n ≤ 0x200a) || n == 0x2028 || n == 0x2029 || n == 0x202f || n == 0x205f ||
    n == 0x3000

/-- `char::is_control`: the Unicode category `Cc`. -/
def isControl (c : Char) : Bool :=
  c.toNat < 0x20 || (0x7f ≤ c.toNat && c.toNat ≤ 0x9f)

/-- `u8::is_ascii_hexdigit`. -/
def isHexDigit (c : Char) : Bool :=
  c.isDigit || ('a' ≤ c && c ≤ 'f') || ('A' ≤ c && c ≤ 'F')

/-- A lowercase hexadecimal digit. -/
def isLowerHexDigit (c : Char) : Bool :=
  c.isDigit || ('a' ≤ c && c ≤ 'f')

/-- `str::trim`. -/
def trim (s : String) : String :=
  String.ofList ((s.toList.dropWhile isWhitespace).reverse.dropWhile isWhitespace).reverse

/-- Every character satisfies `p`. -/
def all (p : Char → Bool) (s : String) : Bool := s.toList.all p

/-- Some character satisfies `p`. -/
def any (p : Char → Bool) (s : String) : Bool := s.toList.any p

/-- `str::contains` of a character. -/
def containsChar (c : Char) (s : String) : Bool := s.toList.contains c

/-- `str::split` at the characters that satisfy `p`. -/
def split (p : Char → Bool) (s : String) : List String :=
  (s.toList.splitOnP p).map String.ofList

/-- `[String]::join`. -/
def join (separator : String) : List String → String
  | [] => ""
  | [s] => s
  | s :: rest => s ++ separator ++ join separator rest

/-- `str::starts_with`. -/
def startsWith (p s : String) : Bool := p.toList.isPrefixOf s.toList

/-- `str::ends_with`. -/
def endsWith (p s : String) : Bool := p.toList.isSuffixOf s.toList

/-- `str::strip_prefix`. -/
def stripPrefix (p s : String) : Option String :=
  if startsWith p s then some (String.ofList (s.toList.drop p.toList.length)) else none

/-- `str::strip_suffix`. -/
def stripSuffix (p s : String) : Option String :=
  if endsWith p s then
    some (String.ofList (s.toList.take (s.toList.length - p.toList.length)))
  else none

/-- The first occurrence of `d` in a character list: what stands before and after it. -/
def splitOnceList (d : List Char) : List Char → Option (List Char × List Char)
  | [] => if d.isPrefixOf [] then some ([], []) else none
  | c :: cs =>
    if d.isPrefixOf (c :: cs) then some ([], (c :: cs).drop d.length)
    else (splitOnceList d cs).map fun (before, after) => (c :: before, after)

/-- `str::split_once`. -/
def splitOnce (d s : String) : Option (String × String) :=
  (splitOnceList d.toList s.toList).map fun (before, after) =>
    (String.ofList before, String.ofList after)

/-- `str::rsplit_once` at a character. -/
def rsplitOnce (d : Char) (s : String) : Option (String × String) :=
  (splitOnceList [d] s.toList.reverse).map fun (after, before) =>
    (String.ofList before.reverse, String.ofList after.reverse)

/-- `str::to_ascii_lowercase`. -/
def toAsciiLowercase (s : String) : String := String.ofList (s.toList.map Char.toLower)

/-- The value of a list of decimal digits, read from the left onto `acc`. -/
def decimalFrom (acc : Nat) : List Char → Option Nat
  | [] => some acc
  | c :: cs => if c.isDigit then decimalFrom (acc * 10 + (c.toNat - '0'.toNat)) cs else none

/-- `str::parse::<u64>`: decimal digits after an optional `+`, below `2 ^ 64`. -/
def parseU64 (s : String) : Option Nat :=
  let digits := match s.toList with
    | '+' :: rest => rest
    | all => all
  if digits.isEmpty then none
  else (decimalFrom 0 digits).filter (· < 2 ^ 64)

/-- `str::replace` of a character. -/
def replaceChar (a b : Char) (s : String) : String :=
  String.ofList (s.toList.map fun c => if c = a then b else c)

theorem toList_replaceChar (a b : Char) (s : String) :
    (replaceChar a b s).toList = s.toList.map fun c => if c = a then b else c :=
  String.toList_ofList

theorem isHexDigit_of_lower {c : Char} (h : isLowerHexDigit c) : isHexDigit c := by
  rw [isHexDigit, Bool.or_eq_true]
  exact .inl h

theorem all_imp {p q : Char → Bool} (hpq : ∀ c, p c → q c) {s : String} (h : all p s) :
    all q s :=
  List.all_eq_true.mpr fun c hc => hpq c (List.all_eq_true.mp h c hc)

theorem stripPrefix_append (p s : String) : stripPrefix p (p ++ s) = some s := by
  simp [stripPrefix, startsWith, String.toList_append]

theorem stripPrefix_eq_some {p s rest : String} :
    stripPrefix p s = some rest ↔ s = p ++ rest := by
  constructor
  · intro h
    unfold stripPrefix at h
    split_ifs at h with hp
    obtain ⟨tail, htail⟩ := List.isPrefixOf_iff_prefix.mp hp
    obtain rfl := Option.some.inj h
    rw [← String.toList_inj, String.toList_append, String.toList_ofList, ← htail]
    simp
  · rintro rfl
    exact stripPrefix_append p rest

theorem stripSuffix_append (p s : String) : stripSuffix p (s ++ p) = some s := by
  simp [stripSuffix, endsWith, String.toList_append]

theorem stripSuffix_eq_some {p s stem : String} :
    stripSuffix p s = some stem ↔ s = stem ++ p := by
  constructor
  · intro h
    unfold stripSuffix at h
    split_ifs at h with hp
    obtain ⟨before, hbefore⟩ := List.isSuffixOf_iff_suffix.mp hp
    obtain rfl := Option.some.inj h
    rw [← String.toList_inj, String.toList_append, String.toList_ofList, ← hbefore]
    simp
  · rintro rfl
    exact stripSuffix_append p stem

end OpenStrata.Text
