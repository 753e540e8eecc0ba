import OpenStrata.Core.Utf8

/-!
# Printed values

The two printers of JSON values write text: every byte sequence they produce decodes, and the
compact one produces a single line without control characters, so that a file of such lines
reads back line by line.

## Main definitions

* `Json.Numeric`: every fractional number of a value is a JSON number literal
* `Json.renderPretty`: `serde_json::to_string_pretty`
* `Printable`: a text without ASCII control characters

## Main results

* `Utf8.valid_utf8`: the bytes of a text are valid UTF-8
* `Json.printable_render`: a compact rendering has no control characters
* `Utf8.lines_utf8`: a printable text and a line end read back as one line
-/

namespace OpenStrata

/-! ## The bytes of a text -/

theorem utf8_eq_flatMap (s : String) : utf8 s = s.toList.flatMap String.utf8EncodeChar := by
  rw [utf8, String.toUTF8_eq_toByteArray]
  conv_lhs => rw [← String.ofList_toList (s := s)]
  rw [String.toByteArray_ofList, List.utf8Encode, List.toList_data_toByteArray]

theorem utf8_append (s t : String) : utf8 (s ++ t) = utf8 s ++ utf8 t := by
  simp only [utf8_eq_flatMap, String.toList_append, List.flatMap_append]

namespace Utf8

theorem toNat_ofNat_of_lt {n : Nat} (h : n < 256) : (UInt8.ofNat n).toNat = n := by
  rw [UInt8.toNat_ofNat']
  omega

theorem isContinuation_tail (n : Nat) : isContinuation (UInt8.ofNat (n % 0x40 + 0x80)) := by
  simp only [isContinuation, Bool.and_eq_true, decide_eq_true_eq, UInt8.le_iff_toNat_le]
  rw [toNat_ofNat_of_lt (by omega)]
  simp
  omega

theorem secondOfThree_encoded {v : Nat} (h₁ : 0x7ff < v) (h₂ : v ≤ 0xffff)
    (hv : v < 0xd800 ∨ 0xdfff < v) :
    secondOfThree (UInt8.ofNat (v / 4096 % 0x10 + 0xe0))
      (UInt8.ofNat (v / 64 % 0x40 + 0x80)) := by
  simp only [secondOfThree, isContinuation, Bool.and_eq_true, Bool.or_eq_true,
    decide_eq_true_eq, UInt8.le_iff_toNat_le, beq_iff_eq, ← UInt8.toNat_inj]
  rw [toNat_ofNat_of_lt (by omega), toNat_ofNat_of_lt (by omega)]
  simp
  omega

theorem secondOfFour_encoded {v : Nat} (h₁ : 0xffff < v) (h₂ : v < 0x110000) :
    secondOfFour (UInt8.ofNat (v / 262144 % 0x08 + 0xf0))
      (UInt8.ofNat (v / 4096 % 0x40 + 0x80)) := by
  simp only [secondOfFour, isContinuation, Bool.and_eq_true, Bool.or_eq_true,
    decide_eq_true_eq, UInt8.le_iff_toNat_le, beq_iff_eq, ← UInt8.toNat_inj]
  rw [toNat_ofNat_of_lt (by omega), toNat_ofNat_of_lt (by omega)]
  simp
  omega

theorem valid_cons_one {a : UInt8} {rest : Bytes} (ha : a < 0x80) :
    valid (a :: rest) = valid rest := by
  match rest with
  | [] => simp [valid_one, valid_nil, ha]
  | [b] => simp [valid_two, ha]
  | b :: c :: rest => rw [valid_three, if_pos ha]

theorem valid_cons_two {a b : UInt8} {rest : Bytes} (ha : 0xC2 ≤ a ∧ a ≤ 0xDF)
    (hb : isContinuation b) : valid (a :: b :: rest) = valid rest := by
  have h80 : ¬ a < 0x80 := by
    have hle := UInt8.le_iff_toNat_le.mp ha.1
    rw [UInt8.lt_iff_toNat_lt]
    simp at hle ⊢
    omega
  match rest with
  | [] => simp [valid_two, valid_nil, h80, ha, hb]
  | c :: rest =>
    rw [valid_three]
    simp [h80, ha, hb]

theorem valid_cons_three {a b c : UInt8} {rest : Bytes} (ha : 0xE0 ≤ a)
    (hb : secondOfThree a b) (hc : isContinuation c) :
    valid (a :: b :: c :: rest) = valid rest := by
  have ha' : 0xE0 ≤ a.toNat := by simpa using UInt8.le_iff_toNat_le.mp ha
  have h80 : ¬ a < 0x80 := by
    rw [UInt8.lt_iff_toNat_lt]
    simp
    omega
  have hdf : ¬ a ≤ 0xDF := by
    rw [UInt8.le_iff_toNat_le]
    simp
    omega
  rw [valid_three]
  simp [h80, hdf, hb, hc]

theorem valid_cons_four {a b c d : UInt8} {rest : Bytes} (ha : 0xF0 ≤ a)
    (hb : secondOfFour a b) (hc : isContinuation c) (hd : isContinuation d) :
    valid (a :: b :: c :: d :: rest) = valid rest := by
  have ha' : 0xF0 ≤ a.toNat := by simpa using UInt8.le_iff_toNat_le.mp ha
  have h80 : ¬ a < 0x80 := by
    rw [UInt8.lt_iff_toNat_lt]
    simp
    omega
  have hdf : ¬ a ≤ 0xDF := by
    rw [UInt8.le_iff_toNat_le]
    simp
    omega
  have hthree : secondOfThree a b = false := by
    have hE0 : a ≠ 0xE0 := by
      rintro rfl
      simp at ha'
    have hEC : ¬ a ≤ 0xEC := by
      rw [UInt8.le_iff_toNat_le]
      simp
      omega
    have hED : a ≠ 0xED := by
      rintro rfl
      simp at ha'
    have hEF : ¬ a ≤ 0xEF := by
      rw [UInt8.le_iff_toNat_le]
      simp
      omega
    simp [secondOfThree, hE0, hEC, hED, hEF]
  rw [valid_three]
  simp [h80, hdf, hthree, hb, hc, hd]

/-- The encoding of a character is valid, whatever follows it. -/
theorem valid_utf8EncodeChar (c : Char) (rest : Bytes) :
    valid (String.utf8EncodeChar c ++ rest) = valid rest := by
  have hv := c.valid
  simp only [UInt32.isValidChar, Nat.isValidChar] at hv
  unfold String.utf8EncodeChar
  generalize c.val.toNat = v at hv
  -- The cases are the four lengths of an encoding.
  dsimp only
  split
  · apply valid_cons_one
    rw [UInt8.lt_iff_toNat_lt, toNat_ofNat_of_lt (by omega)]
    simp
    omega
  split
  · apply valid_cons_two
    · simp only [UInt8.le_iff_toNat_le]
      rw [toNat_ofNat_of_lt (by omega)]
      simp
      omega
    · exact isContinuation_tail v
  split
  · apply valid_cons_three
    · rw [UInt8.le_iff_toNat_le, toNat_ofNat_of_lt (by omega)]
      simp
    · exact secondOfThree_encoded (by omega) (by omega) (by omega)
    · exact isContinuation_tail v
  · apply valid_cons_four
    · rw [UInt8.le_iff_toNat_le, toNat_ofNat_of_lt (by omega)]
      simp
    · exact secondOfFour_encoded (by omega) (by omega)
    · exact isContinuation_tail (v / 64)
    · exact isContinuation_tail v

/-- The bytes of a text decode. -/
theorem valid_utf8 (s : String) : valid (utf8 s) := by
  rw [utf8_eq_flatMap]
  induction s.toList with
  | nil => rfl
  | cons c cs ih => rw [List.flatMap_cons, valid_utf8EncodeChar, ih]

/-- A character from some ASCII code on is encoded without bytes below that code. -/
theorem le_of_mem_utf8EncodeChar {c : Char} {k : ℕ} (hk : k ≤ 0x80) (hc : k ≤ c.toNat) {b : UInt8}
    (hb : b ∈ String.utf8EncodeChar c) : k ≤ b.toNat := by
  have hv := c.valid
  simp only [UInt32.isValidChar, Nat.isValidChar] at hv
  rw [Char.toNat] at hc
  unfold String.utf8EncodeChar at hb
  generalize c.val.toNat = v at hv hc hb
  dsimp only at hb
  split at hb
  · rw [List.mem_singleton.mp hb, toNat_ofNat_of_lt (by omega)]
    exact hc
  split at hb
  · simp only [List.mem_cons, List.not_mem_nil, or_false] at hb
    rcases hb with rfl | rfl <;> rw [toNat_ofNat_of_lt (by omega)] <;> omega
  split at hb
  · simp only [List.mem_cons, List.not_mem_nil, or_false] at hb
    rcases hb with rfl | rfl | rfl <;> rw [toNat_ofNat_of_lt (by omega)] <;> omega
  · simp only [List.mem_cons, List.not_mem_nil, or_false] at hb
    rcases hb with rfl | rfl | rfl | rfl <;> rw [toNat_ofNat_of_lt (by omega)] <;> omega

end Utf8

/-! ## Single lines -/

/-- A text without ASCII control characters. -/
def Printable (s : String) : Prop := ∀ c ∈ s.toList, 0x20 ≤ c.toNat

instance (s : String) : Decidable (Printable s) :=
  List.decidableBAll (fun c : Char => 0x20 ≤ c.toNat) s.toList

namespace Printable

theorem append {s t : String} (hs : Printable s) (ht : Printable t) : Printable (s ++ t) := by
  intro c hc
  rw [String.toList_append, List.mem_append] at hc
  rcases hc with hc | hc
  · exact hs c hc
  · exact ht c hc

theorem le_of_mem_utf8 {s : String} (hs : Printable s) {b : UInt8} (hb : b ∈ utf8 s) :
    0x20 ≤ b.toNat := by
  rw [utf8_eq_flatMap] at hb
  obtain ⟨c, hc, hbc⟩ := List.mem_flatMap.mp hb
  exact Utf8.le_of_mem_utf8EncodeChar (by decide) (hs c hc) hbc

end Printable

namespace Utf8

/-- A printable line and its line end read back as that line. -/
theorem lines_utf8 {s : String} (hs : Printable s) : lines (utf8 (s ++ "\n")) = [utf8 s] := by
  have hend : utf8 "\n" = [0x0A] := by decide
  have hbreak : ∀ b ∈ utf8 s, (b == 0x0A) = false := by
    intro b hb
    by_contra heq
    obtain rfl : b = 0x0A := by simpa using heq
    have := hs.le_of_mem_utf8 hb
    simp at this
  have hreturn : stripReturn (utf8 s) = utf8 s := by
    rw [stripReturn, if_neg]
    intro hlast
    have := hs.le_of_mem_utf8 (List.mem_of_getLast? hlast)
    simp at this
  have hsplit : (utf8 s ++ [0x0A]).splitOnP (· == 0x0A) = [utf8 s, []] := by
    rw [List.splitOnP_append_cons _ _ (by decide), List.splitOnP_eq_singleton hbreak]
    rfl
  simp only [lines, utf8_append, hend, hsplit]
  simp [hreturn]

end Utf8

/-! ## Renderings -/

namespace Json

/-- The start of a line at a depth of nesting. -/
def lineStart (depth : Nat) : String := "\n" ++ String.ofList (List.replicate (2 * depth) ' ')

mutual

/-- `serde_json::to_string_pretty`, of a value nested this deep. -/
def renderPretty (depth : Nat) : Json → String
  | .arr [] => "[]"
  | .arr items =>
    "[" ++ lineStart (depth + 1) ++ renderPrettyItems (depth + 1) items ++ lineStart depth ++ "]"
  | .obj [] => "\x7b\x7d"
  | .obj fields =>
    "\x7b" ++ lineStart (depth + 1) ++ renderPrettyFields (depth + 1) fields ++ lineStart depth ++
      "\x7d"
  | value => render value

/-- The items of an array, one a line. -/
def renderPrettyItems (depth : Nat) : List Json → String
  | [] => ""
  | [item] => renderPretty depth item
  | item :: items =>
    renderPretty depth item ++ "," ++ lineStart depth ++ renderPrettyItems depth items

/-- The fields of an object, one a line. -/
def renderPrettyFields (depth : Nat) : List (String × Json) → String
  | [] => ""
  | [(key, value)] => renderString key ++ ": " ++ renderPretty depth value
  | (key, value) :: fields =>
    renderString key ++ ": " ++ renderPretty depth value ++ "," ++ lineStart depth ++
      renderPrettyFields depth fields

end

/-- The characters of number literals. -/
def isNumberChar (c : Char) : Bool :=
  c.isDigit || c == '+' || c == '-' || c == '.' || c == 'e' || c == 'E'

mutual

/-- Every fractional number is written with the characters of number literals. -/
def Numeric : Json → Prop
  | .float literal => Text.all isNumberChar literal
  | .arr items => NumericItems items
  | .obj fields => NumericFields fields
  | .null | .bool _ | .int _ | .str _ => True

def NumericItems : List Json → Prop
  | [] => True
  | item :: items => Numeric item ∧ NumericItems items

def NumericFields : List (String × Json) → Prop
  | [] => True
  | (_, value) :: fields => Numeric value ∧ NumericFields fields

end

theorem NumericItems.of_mem {items : List Json} (h : NumericItems items) {item : Json}
    (hitem : item ∈ items) : item.Numeric := by
  induction items with
  | nil => cases hitem
  | cons first items ih =>
    rcases List.mem_cons.mp hitem with rfl | hitem
    · exact h.1
    · exact ih h.2 hitem

theorem NumericItems.of_forall {items : List Json} (h : ∀ item ∈ items, item.Numeric) :
    NumericItems items := by
  induction items with
  | nil => trivial
  | cons first items ih =>
    exact ⟨h first List.mem_cons_self, ih fun item hitem => h item (List.mem_cons_of_mem _ hitem)⟩

theorem NumericFields.lookup {fields : List (String × Json)} (h : NumericFields fields)
    {key : String} {value : Json} (hvalue : fields.lookup key = some value) : value.Numeric := by
  induction fields with
  | nil => cases hvalue
  | cons field fields ih =>
    rw [List.lookup_cons] at hvalue
    split at hvalue
    · cases hvalue
      exact h.1
    · exact ih h.2 hvalue

namespace Numeric

variable {value part : Json} {key : String}

theorem get? (h : value.Numeric) (hpart : value.get? key = some part) : part.Numeric := by
  cases value with
  | obj fields => exact NumericFields.lookup h hpart
  | _ => cases hpart

theorem index (h : value.Numeric) : (value.index key).Numeric := by
  rw [Json.index]
  cases hpart : value.get? key with
  | none => trivial
  | some part => exact h.get? hpart

theorem pointer? {path : List String} (h : value.Numeric)
    (hpart : value.pointer? path = some part) : part.Numeric := by
  induction path generalizing value with
  | nil =>
    cases hpart
    exact h
  | cons key path ih =>
    obtain ⟨next, hnext, hrest⟩ := Option.bind_eq_some_iff.mp hpart
    exact ih (h.get? hnext) hrest

theorem of_mem_asArr? {items : List Json} {item : Json} (h : value.Numeric)
    (hitems : value.asArr? = some items) (hitem : item ∈ items) : item.Numeric := by
  cases value with
  | arr all =>
    cases hitems
    exact NumericItems.of_mem h hitem
  | _ => cases hitems

end Numeric

theorem le_hexDigit {n : Nat} (h : n < 16) : 0x20 ≤ (hexDigit n).toNat := by
  interval_cases n <;> decide

theorem le_escapeChar {c d : Char} (hd : d ∈ escapeChar c) : 0x20 ≤ d.toNat := by
  have hcode : ∀ e ∈ ['"', '\\', 'b', 't', 'n', 'f', 'r', 'u', '0'], 0x20 ≤ e.toNat := by
    simp
  unfold escapeChar at hd
  split_ifs at hd with h₁ h₂ h₃ h₄ h₅ h₆ h₇ h₈
  on_goal 8 =>
    have hhigh : c.toNat / 16 < 16 := by omega
    have hlow : c.toNat % 16 < 16 := Nat.mod_lt _ (by omega)
    simp only [List.mem_cons, List.not_mem_nil, or_false] at hd
    rcases hd with rfl | rfl | rfl | rfl | rfl | rfl
    · exact hcode _ (by simp)
    · exact hcode _ (by simp)
    · exact hcode _ (by simp)
    · exact hcode _ (by simp)
    · exact le_hexDigit hhigh
    · exact le_hexDigit hlow
  on_goal 8 =>
    rw [List.mem_singleton.mp hd]
    omega
  all_goals
    simp only [List.mem_cons, List.not_mem_nil, or_false] at hd
    rcases hd with rfl | rfl <;> exact hcode _ (by simp)

theorem printable_renderString (s : String) : Printable (renderString s) := by
  have hquote : Printable "\"" := by
    intro c hc
    simp at hc
    subst hc
    decide
  refine (hquote.append ?_).append hquote
  intro c hc
  rw [String.toList_ofList] at hc
  obtain ⟨d, -, hcd⟩ := List.mem_flatMap.mp hc
  exact le_escapeChar hcd

theorem printable_digits {s : String} (h : Text.all isNumberChar s) : Printable s := by
  intro c hc
  have hchar := List.all_eq_true.mp h c hc
  simp only [isNumberChar, Bool.or_eq_true, beq_iff_eq] at hchar
  rcases hchar with ((((hdigit | rfl) | rfl) | rfl) | rfl) | rfl
  · have hzero : '0'.toNat = 0x30 := rfl
    have := (Char.isDigit_iff_toNat.mp hdigit).1
    omega
  all_goals decide

theorem isNumberChar_of_mem_repr {n : Nat} {c : Char} (hc : c ∈ n.repr.toList) :
    isNumberChar c := by
  rw [Nat.toList_repr] at hc
  have hdigit := Nat.isDigit_of_mem_toDigits (by decide) (by decide) hc
  simp [isNumberChar, hdigit]

theorem printable_int (n : Int) : Printable (toString n) := by
  apply printable_digits
  rw [Int.toString_eq_repr, Int.repr_eq_if, Text.all, List.all_eq_true]
  intro c hc
  split at hc
  · exact isNumberChar_of_mem_repr hc
  · rw [String.toList_append, List.mem_append] at hc
    rcases hc with hc | hc
    · simp at hc
      subst hc
      rfl
    · exact isNumberChar_of_mem_repr hc

mutual

/-- A compact rendering has no control characters. -/
theorem printable_render : ∀ {value : Json}, value.Numeric → Printable value.render
  | .null, _ => by decide
  | .bool true, _ => by decide
  | .bool false, _ => by decide
  | .int n, _ => printable_int n
  | .float _, h => printable_digits h
  | .str s, _ => printable_renderString s
  | .arr _, h => by
    rw [render]
    exact (Printable.append (by decide) (printable_renderItems h)).append (by decide)
  | .obj _, h => by
    rw [render]
    exact (Printable.append (by decide) (printable_renderFields h)).append (by decide)

theorem printable_renderItems : ∀ {items : List Json}, NumericItems items →
    Printable (renderItems items)
  | [], _ => by decide
  | [_], h => printable_render h.1
  | _ :: _ :: _, h => by
    rw [renderItems]
    · exact ((printable_render h.1).append (by decide)).append (printable_renderItems h.2)
    · rintro ⟨⟩

theorem printable_renderFields : ∀ {fields : List (String × Json)}, NumericFields fields →
    Printable (renderFields fields)
  | [], _ => by decide
  | [(key, _)], h => ((printable_renderString key).append (by decide)).append
      (printable_render h.1)
  | (key, _) :: _ :: _, h => by
    rw [renderFields]
    · exact ((((printable_renderString key).append (by decide)).append
        (printable_render h.1)).append (by decide)).append (printable_renderFields h.2)
    · rintro ⟨⟩

end

end Json

end OpenStrata
