import OpenStrata.Core.Digest

/-!
# Text files as bytes

What `fs::read_to_string`, `str::lines` and `str::trim` do to the content of a text file, on
its bytes: line ends are ASCII, and blank lines consist of the encodings of white space.

## Main definitions

* `Utf8.valid`: whether a content is text
* `Utf8.lines`: the lines of a text
* `Utf8.text`: the text that a content encodes
* `Utf8.isBlank`: a line of white space
-/

namespace OpenStrata.Utf8

def isContinuation (b : UInt8) : Bool := 0x80 ≤ b && b ≤ 0xBF

/-- The second byte after each leading byte of three: neither overlong nor a surrogate. -/
def secondOfThree (a b : UInt8) : Bool :=
  (a == 0xE0 && 0xA0 ≤ b && b ≤ 0xBF) || (0xE1 ≤ a && a ≤ 0xEC && isContinuation b) ||
    (a == 0xED && 0x80 ≤ b && b ≤ 0x9F) || (0xEE ≤ a && a ≤ 0xEF && isContinuation b)

/-- The second byte after each leading byte of four: neither overlong nor past the last code
point. -/
def secondOfFour (a b : UInt8) : Bool :=
  (a == 0xF0 && 0x90 ≤ b && b ≤ 0xBF) || (0xF1 ≤ a && a ≤ 0xF3 && isContinuation b) ||
    (a == 0xF4 && 0x80 ≤ b && b ≤ 0x8F)

/-- `str::from_utf8` succeeds. -/
def valid : Bytes → Bool
  | [] => true
  | [a] => a < 0x80
  | [a, b] => if a < 0x80 then valid [b] else 0xC2 ≤ a && a ≤ 0xDF && isContinuation b
  | a :: b :: c :: rest =>
    if a < 0x80 then valid (b :: c :: rest)
    else if 0xC2 ≤ a && a ≤ 0xDF && isContinuation b then valid (c :: rest)
    else if secondOfThree a b && isContinuation c then valid rest
    else
      match rest with
      | d :: rest => secondOfFour a b && isContinuation c && isContinuation d && valid rest
      | [] => false

theorem valid_nil : valid [] = true := rfl

theorem valid_one (a : UInt8) : valid [a] = decide (a < 0x80) := rfl

theorem valid_two (a b : UInt8) : valid [a, b] =
    if a < 0x80 then valid [b]
    else decide (0xC2 ≤ a) && decide (a ≤ 0xDF) && isContinuation b := rfl

theorem valid_three (a b c : UInt8) (rest : Bytes) : valid (a :: b :: c :: rest) =
    if a < 0x80 then valid (b :: c :: rest)
    else if 0xC2 ≤ a && a ≤ 0xDF && isContinuation b then valid (c :: rest)
    else if secondOfThree a b && isContinuation c then valid rest
    else
      match rest with
      | d :: rest => secondOfFour a b && isContinuation c && isContinuation d && valid rest
      | [] => false := by
  rw [valid.eq_def]
  rfl

/-- A text of white space only. -/
def isBlank : Bytes → Bool
  | [] => true
  | 0xC2 :: b :: rest => (b == 0x85 || b == 0xA0) && isBlank rest
  | 0xE1 :: 0x9A :: 0x80 :: rest => isBlank rest
  | 0xE2 :: 0x80 :: b :: rest =>
    ((0x80 ≤ b && b ≤ 0x8A) || b == 0xA8 || b == 0xA9 || b == 0xAF) && isBlank rest
  | 0xE2 :: 0x81 :: 0x9F :: rest => isBlank rest
  | 0xE3 :: 0x80 :: 0x80 :: rest => isBlank rest
  | b :: rest => ((0x09 ≤ b && b ≤ 0x0D) || b == 0x20) && isBlank rest

/-- A line without the carriage return of its line end. -/
def stripReturn (line : Bytes) : Bytes :=
  if line.getLast? = some 0x0D then line.dropLast else line

/-- `str::lines`: every line without its line end; a final line end starts no further line. -/
def lines (bytes : Bytes) : List Bytes :=
  let parts := bytes.splitOnP (· == 0x0A)
  parts.dropLast.map stripReturn ++ parts.getLast?.toList.filter (· ≠ [])

/-- The low bits of the bytes of a code point, the leading byte first. -/
def codePoint (leading : Nat) (continuation : List UInt8) : Char :=
  Char.ofNat (continuation.foldl (fun n b => 64 * n + b.toNat % 64) leading)

/-- The code points that a valid content encodes. -/
def chars : Bytes → List Char
  | [] => []
  | a :: rest =>
    if a < 0x80 then Char.ofNat a.toNat :: chars rest
    else
      match rest with
      | [] => []
      | b :: rest =>
        if a < 0xE0 then codePoint (a.toNat % 32) [b] :: chars rest
        else
          match rest with
          | [] => []
          | c :: rest =>
            if a < 0xF0 then codePoint (a.toNat % 16) [b, c] :: chars rest
            else
              match rest with
              | [] => []
              | d :: rest => codePoint (a.toNat % 8) [b, c, d] :: chars rest

/-- The text that a content encodes, if it is text. -/
def text (bytes : Bytes) : Option String :=
  if valid bytes then some (String.ofList (chars bytes)) else none

example : text [0x61, 0xC3, 0xA9, 0xE2, 0x82, 0xAC, 0xF0, 0x9F, 0x98, 0x80] = some "aé€😀" := by decide

end OpenStrata.Utf8
