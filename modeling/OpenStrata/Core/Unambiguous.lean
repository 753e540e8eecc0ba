import OpenStrata.Core.Printing
import OpenStrata.Core.Serialize
import Std.Data.String.ToInt

/-!
# Renderings tell values apart

The compact rendering of a JSON value without fractional numbers ends where it ends: followed by a
delimiter or by nothing, it can be read in one way only. Two values with the same rendering are
therefore the same, and so are two values with the same bytes.

## Main definitions

* `Json.Exact`: a value without fractional numbers

## Main results

* `Json.render_append_inj`: a rendering followed by a delimiter is read in one way
* `Json.render_inj`, `Json.jsonBytes_inj`: the same rendering, the same value
* `sha256Hex_jsonBytes_inj`: the same digest, the same value
-/

namespace OpenStrata.Json

variable {s t : List Char}

/-! ## Strings -/

theorem hexValue_hexDigit {n : Nat} (h : n < 16) : hexValue (hexDigit n) = n := by
  interval_cases n <;> decide

/-- Read one character of a string literal, and what follows it. -/
def unescape : List Char → Option (Char × List Char)
  | '\\' :: '"' :: rest => some ('"', rest)
  | '\\' :: '\\' :: rest => some ('\\', rest)
  | '\\' :: 'b' :: rest => some (Char.ofNat 0x08, rest)
  | '\\' :: 't' :: rest => some (Char.ofNat 0x09, rest)
  | '\\' :: 'n' :: rest => some (Char.ofNat 0x0a, rest)
  | '\\' :: 'f' :: rest => some (Char.ofNat 0x0c, rest)
  | '\\' :: 'r' :: rest => some (Char.ofNat 0x0d, rest)
  | '\\' :: 'u' :: '0' :: '0' :: high :: low :: rest =>
    some (Char.ofNat (16 * hexValue high + hexValue low), rest)
  | '"' :: _ => none
  | c :: rest => some (c, rest)
  | [] => none

theorem unescape_escapeChar (c : Char) (rest : List Char) :
    unescape (escapeChar c ++ rest) = some (c, rest) := by
  have hofNat {n : Nat} (h : c.toNat = n) : Char.ofNat n = c := by
    rw [← h, Char.ofNat_toNat]
  unfold escapeChar
  split_ifs with h₁ h₂ h₃ h₄ h₅ h₆ h₇ h₈
  · rw [h₁]
    rfl
  · rw [h₂]
    rfl
  · simpa [unescape] using hofNat h₃
  · simpa [unescape] using hofNat h₄
  · simpa [unescape] using hofNat h₅
  · simpa [unescape] using hofNat h₆
  · simpa [unescape] using hofNat h₇
  · have hhigh : c.toNat / 16 < 16 := by omega
    have hlow : c.toNat % 16 < 16 := Nat.mod_lt _ (by omega)
    simp only [List.cons_append, List.nil_append, unescape, hexValue_hexDigit hhigh,
      hexValue_hexDigit hlow, Nat.div_add_mod, Char.ofNat_toNat]
  · simp [unescape, h₂]

theorem escapeChar_append_inj {c d : Char} (h : escapeChar c ++ s = escapeChar d ++ t) :
    c = d ∧ s = t := by
  have hread := congrArg unescape h
  rw [unescape_escapeChar, unescape_escapeChar] at hread
  simpa using hread

/-- No escaped character looks like the end of its literal. -/
theorem escapeChar_append_ne (c : Char) : escapeChar c ++ s ≠ '"' :: t := by
  intro h
  have hread := congrArg unescape h
  rw [unescape_escapeChar] at hread
  cases hread

theorem flatMap_escapeChar_inj {a b : List Char}
    (h : a.flatMap escapeChar ++ '"' :: s = b.flatMap escapeChar ++ '"' :: t) :
    a = b ∧ s = t := by
  induction a generalizing b with
  | nil =>
    cases b with
    | nil => simpa using h
    | cons d b =>
      rw [List.flatMap_cons, List.append_assoc] at h
      exact absurd h.symm (escapeChar_append_ne d)
  | cons c a ih =>
    rw [List.flatMap_cons, List.append_assoc] at h
    cases b with
    | nil => exact absurd h (escapeChar_append_ne c)
    | cons d b =>
      rw [List.flatMap_cons, List.append_assoc] at h
      obtain ⟨rfl, hrest⟩ := escapeChar_append_inj h
      obtain ⟨rfl, hst⟩ := ih hrest
      exact ⟨rfl, hst⟩

theorem renderString_append_inj {a b : String}
    (h : (renderString a).toList ++ s = (renderString b).toList ++ t) : a = b ∧ s = t := by
  simp only [renderString, String.toList_append, String.toList_ofList, List.append_assoc] at h
  have hquote : "\"".toList = ['"'] := rfl
  rw [hquote, List.singleton_append, List.singleton_append, List.singleton_append,
    List.singleton_append, List.cons.injEq] at h
  obtain ⟨hchars, hst⟩ := flatMap_escapeChar_inj h.2
  exact ⟨String.toList_inj.mp hchars, hst⟩

/-! ## Numbers -/

/-- A text that no number goes on with. -/
def Ends (s : List Char) : Prop := ∀ c, s.head? = some c → isNumberChar c = false

theorem takeWhile_append_of_ends {digits : List Char} (hdigits : digits.all isNumberChar)
    (hs : Ends s) : (digits ++ s).takeWhile isNumberChar = digits := by
  rw [List.takeWhile_append_of_pos (List.all_eq_true.mp hdigits)]
  cases s with
  | nil => simp
  | cons c s => rw [List.takeWhile_cons_of_neg (by simp [hs c rfl]), List.append_nil]

theorem all_isNumberChar_int (n : Int) : (toString n).toList.all isNumberChar := by
  rw [Int.toString_eq_repr, Int.repr_eq_if, List.all_eq_true]
  intro c hc
  split at hc
  · exact isNumberChar_of_mem_repr hc
  · rw [String.toList_append, List.mem_append] at hc
    rcases hc with hc | hc
    · simp at hc
      subst hc
      rfl
    · exact isNumberChar_of_mem_repr hc

theorem int_append_inj {m n : Int} (hs : Ends s) (ht : Ends t)
    (h : (toString m).toList ++ s = (toString n).toList ++ t) : m = n ∧ s = t := by
  have hdigits := congrArg (List.takeWhile isNumberChar) h
  rw [takeWhile_append_of_ends (all_isNumberChar_int m) hs,
    takeWhile_append_of_ends (all_isNumberChar_int n) ht] at hdigits
  rw [hdigits, List.append_cancel_left_eq] at h
  refine ⟨Int.repr_injective ?_, h⟩
  rw [← Int.toString_eq_repr, ← Int.toString_eq_repr]
  exact String.toList_inj.mp hdigits

/-! ## Values -/

mutual

/-- A value without fractional numbers. -/
def Exact : Json → Prop
  | .float _ => False
  | .arr items => ExactItems items
  | .obj fields => ExactFields fields
  | .null | .bool _ | .int _ | .str _ => True

def ExactItems : List Json → Prop
  | [] => True
  | item :: items => Exact item ∧ ExactItems items

def ExactFields : List (String × Json) → Prop
  | [] => True
  | (_, value) :: fields => Exact value ∧ ExactFields fields

end

/-- The items of an array after the first. -/
def renderItemsTail : List Json → List Char
  | [] => []
  | item :: items => ',' :: (render item).toList ++ renderItemsTail items

/-- The fields of an object after the first. -/
def renderFieldsTail : List (String × Json) → List Char
  | [] => []
  | (key, value) :: fields =>
    ',' :: (renderString key).toList ++ ':' :: (render value).toList ++ renderFieldsTail fields

theorem renderItems_cons (item : Json) (items : List Json) :
    (renderItems (item :: items)).toList = (render item).toList ++ renderItemsTail items := by
  induction items generalizing item with
  | nil => simp [renderItems, renderItemsTail]
  | cons next items ih =>
    rw [renderItems, renderItemsTail]
    · have hcomma : ",".toList = [','] := rfl
      simp only [String.toList_append, ih, hcomma, List.append_assoc, List.cons_append,
        List.nil_append]
    · rintro ⟨⟩

theorem renderFields_cons (key : String) (value : Json) (fields : List (String × Json)) :
    (renderFields ((key, value) :: fields)).toList =
      (renderString key).toList ++ ':' :: (render value).toList ++ renderFieldsTail fields := by
  induction fields generalizing key value with
  | nil => simp [renderFields, renderFieldsTail]
  | cons next fields ih =>
    obtain ⟨key', value'⟩ := next
    rw [renderFields, renderFieldsTail]
    · have hcomma : ",".toList = [','] := rfl
      have hcolon : ":".toList = [':'] := rfl
      simp only [String.toList_append, ih, hcomma, hcolon, List.append_assoc, List.cons_append,
        List.nil_append]
    · rintro ⟨⟩

/-- The constructor of a value by the first character of its rendering. -/
def leading : Json → Nat
  | .null => 0
  | .bool true => 1
  | .bool false => 2
  | .str _ => 3
  | .arr _ => 4
  | .obj _ => 5
  | .int _ => 6
  | .float _ => 6

def classify (c : Char) : Nat :=
  if c = 'n' then 0 else if c = 't' then 1 else if c = 'f' then 2 else if c = '"' then 3
  else if c = '[' then 4 else if c = '\x7b' then 5 else if isNumberChar c then 6 else 7

theorem classify_of_isNumberChar {c : Char} (h : isNumberChar c) : classify c = 6 := by
  have hne (d : Char) (hd : isNumberChar d = false) : c ≠ d := by
    rintro rfl
    rw [hd] at h
    cases h
  simp [classify, hne 'n' rfl, hne 't' rfl, hne 'f' rfl, hne '"' rfl, hne '[' rfl,
    hne '\x7b' rfl, h]

theorem toList_render_arr (items : List Json) :
    (render (.arr items)).toList = '[' :: ((renderItems items).toList ++ [']']) := by
  rw [render, String.toList_append, String.toList_append]
  rfl

theorem toList_render_obj (fields : List (String × Json)) :
    (render (.obj fields)).toList = '\x7b' :: ((renderFields fields).toList ++ ['\x7d']) := by
  rw [render, String.toList_append, String.toList_append]
  rfl

theorem head_render {v : Json} (hv : v.Exact) :
    ∃ c rest, (render v).toList = c :: rest ∧ classify c = leading v := by
  cases v with
  | null => exact ⟨_, _, rfl, rfl⟩
  | bool b => cases b <;> exact ⟨_, _, rfl, rfl⟩
  | float literal => exact hv.elim
  | int n =>
    have hall := all_isNumberChar_int n
    cases hn : (toString n).toList with
    | nil =>
      have hempty : n.repr = "" := by
        rw [← Int.toString_eq_repr]
        exact String.toList_inj.mp (hn.trans String.toList_empty.symm)
      rw [Int.repr_eq_if] at hempty
      split at hempty
      · exact absurd hempty Nat.repr_ne_empty
      · simp at hempty
    | cons c rest =>
      rw [hn, List.all_cons, Bool.and_eq_true] at hall
      exact ⟨c, rest, hn, classify_of_isNumberChar hall.1⟩
  | str a =>
    refine ⟨'"', (String.ofList (a.toList.flatMap escapeChar) ++ "\"").toList, ?_, rfl⟩
    rw [render, renderString, String.append_assoc, String.toList_append]
    rfl
  | arr items => exact ⟨'[', _, toList_render_arr items, rfl⟩
  | obj fields => exact ⟨'\x7b', _, toList_render_obj fields, rfl⟩

/-- Values whose renderings begin alike have the same constructor. -/
theorem leading_eq {v w : Json} (hv : v.Exact) (hw : w.Exact)
    (h : (render v).toList ++ s = (render w).toList ++ t) : leading v = leading w := by
  obtain ⟨c, rest, hc, hvc⟩ := head_render hv
  obtain ⟨d, rest', hd, hwd⟩ := head_render hw
  rw [hc, hd, List.cons_append, List.cons_append, List.cons.injEq] at h
  rw [← hvc, ← hwd, h.1]

/-- No value begins with the end of an array. -/
theorem render_append_ne {v : Json} (hv : v.Exact) {c : Char} (hc : classify c = 7) :
    (render v).toList ++ s ≠ c :: t := by
  obtain ⟨d, rest, hd, hvd⟩ := head_render hv
  rw [hd, List.cons_append]
  intro h
  rw [List.cons.injEq] at h
  rw [h.1, hc] at hvd
  cases v with
  | bool b => cases b <;> cases hvd
  | _ => cases hvd

theorem ends_cons {c : Char} (hc : isNumberChar c = false) : Ends (c :: s) := by
  intro d hd
  rw [← Option.some.inj hd]
  exact hc

theorem ends_renderItemsTail (items : List Json) : Ends (renderItemsTail items ++ ']' :: s) := by
  cases items <;> exact ends_cons rfl

theorem ends_renderFieldsTail (fields : List (String × Json)) :
    Ends (renderFieldsTail fields ++ '\x7d' :: s) := by
  cases fields with
  | nil => exact ends_cons rfl
  | cons field fields =>
    obtain ⟨key, value⟩ := field
    exact ends_cons rfl

mutual

/-- A rendering followed by a delimiter is read in one way. -/
theorem render_append_inj : ∀ {v w : Json} {s t : List Char}, v.Exact → w.Exact → Ends s →
    Ends t → (render v).toList ++ s = (render w).toList ++ t → v = w ∧ s = t
  | .null, w, s, t, hv, hw, hs, ht, h => by
    have hleading := leading_eq hv hw h
    cases w with
    | null => simpa using h
    | bool b => cases b <;> cases hleading
    | _ => cases hleading
  | .bool b, w, s, t, hv, hw, hs, ht, h => by
    have hleading := leading_eq hv hw h
    cases w with
    | bool b' =>
      cases b <;> cases b' <;> cases hleading <;> exact ⟨rfl, by simpa using h⟩
    | _ => cases b <;> cases hleading
  | .int n, w, s, t, hv, hw, hs, ht, h => by
    have hleading := leading_eq hv hw h
    cases w with
    | int n' =>
      obtain ⟨rfl, hst⟩ := int_append_inj hs ht h
      exact ⟨rfl, hst⟩
    | float literal => exact hw.elim
    | bool b => cases b <;> cases hleading
    | _ => cases hleading
  | .float literal, w, s, t, hv, hw, hs, ht, h => hv.elim
  | .str a, w, s, t, hv, hw, hs, ht, h => by
    have hleading := leading_eq hv hw h
    cases w with
    | str a' =>
      obtain ⟨rfl, hst⟩ := renderString_append_inj h
      exact ⟨rfl, hst⟩
    | bool b => cases b <;> cases hleading
    | _ => cases hleading
  | .arr items, w, s, t, hv, hw, hs, ht, h => by
    have hleading := leading_eq hv hw h
    cases w with
    | arr items' =>
      simp only [toList_render_arr, List.cons_append, List.append_assoc, List.nil_append,
        List.cons.injEq, true_and] at h
      obtain ⟨rfl, hst⟩ := renderItems_inj hv hw h
      exact ⟨rfl, hst⟩
    | bool b => cases b <;> cases hleading
    | _ => cases hleading
  | .obj fields, w, s, t, hv, hw, hs, ht, h => by
    have hleading := leading_eq hv hw h
    cases w with
    | obj fields' =>
      simp only [toList_render_obj, List.cons_append, List.append_assoc, List.nil_append,
        List.cons.injEq, true_and] at h
      obtain ⟨rfl, hst⟩ := renderFields_inj hv hw h
      exact ⟨rfl, hst⟩
    | bool b => cases b <;> cases hleading
    | _ => cases hleading

theorem renderItems_inj : ∀ {items items' : List Json} {s t : List Char}, ExactItems items →
    ExactItems items' →
    (renderItems items).toList ++ ']' :: s = (renderItems items').toList ++ ']' :: t →
    items = items' ∧ s = t
  | [], [], s, t, _, _, h => by simpa [renderItems] using h
  | [], item' :: items', s, t, _, hw, h => by
    rw [renderItems_cons, List.append_assoc] at h
    exact absurd h.symm (render_append_ne hw.1 rfl)
  | item :: items, [], s, t, hv, _, h => by
    rw [renderItems_cons, List.append_assoc] at h
    exact absurd h (render_append_ne hv.1 rfl)
  | item :: items, item' :: items', s, t, hv, hw, h => by
    rw [renderItems_cons, renderItems_cons, List.append_assoc, List.append_assoc] at h
    obtain ⟨rfl, htail⟩ := render_append_inj hv.1 hw.1 (ends_renderItemsTail items)
      (ends_renderItemsTail items') h
    obtain ⟨rfl, hst⟩ := renderItemsTail_inj hv.2 hw.2 htail
    exact ⟨rfl, hst⟩

theorem renderItemsTail_inj : ∀ {items items' : List Json} {s t : List Char}, ExactItems items →
    ExactItems items' →
    renderItemsTail items ++ ']' :: s = renderItemsTail items' ++ ']' :: t →
    items = items' ∧ s = t
  | [], [], s, t, _, _, h => by simpa [renderItemsTail] using h
  | [], _ :: _, s, t, _, _, h => by simp [renderItemsTail] at h
  | _ :: _, [], s, t, _, _, h => by simp [renderItemsTail] at h
  | item :: items, item' :: items', s, t, hv, hw, h => by
    simp only [renderItemsTail, List.cons_append, List.append_assoc, List.cons.injEq,
      true_and] at h
    obtain ⟨rfl, htail⟩ := render_append_inj hv.1 hw.1 (ends_renderItemsTail items)
      (ends_renderItemsTail items') h
    obtain ⟨rfl, hst⟩ := renderItemsTail_inj hv.2 hw.2 htail
    exact ⟨rfl, hst⟩

theorem renderFields_inj : ∀ {fields fields' : List (String × Json)} {s t : List Char},
    ExactFields fields → ExactFields fields' →
    (renderFields fields).toList ++ '\x7d' :: s = (renderFields fields').toList ++ '\x7d' :: t →
    fields = fields' ∧ s = t
  | [], [], s, t, _, _, h => by simpa [renderFields] using h
  | [], (key', value') :: fields', s, t, _, hw, h => by
    rw [renderFields_cons, List.append_assoc, renderString, String.append_assoc,
      String.toList_append] at h
    cases h
  | (key, value) :: fields, [], s, t, hv, _, h => by
    rw [renderFields_cons, List.append_assoc, renderString, String.append_assoc,
      String.toList_append] at h
    cases h
  | (key, value) :: fields, (key', value') :: fields', s, t, hv, hw, h => by
    simp only [renderFields_cons, List.append_assoc, List.cons_append] at h
    obtain ⟨rfl, hvalue⟩ := renderString_append_inj h
    rw [List.cons.injEq] at hvalue
    obtain ⟨rfl, htail⟩ := render_append_inj hv.1 hw.1 (ends_renderFieldsTail fields)
      (ends_renderFieldsTail fields') hvalue.2
    obtain ⟨rfl, hst⟩ := renderFieldsTail_inj hv.2 hw.2 htail
    exact ⟨rfl, hst⟩

theorem renderFieldsTail_inj : ∀ {fields fields' : List (String × Json)} {s t : List Char},
    ExactFields fields → ExactFields fields' →
    renderFieldsTail fields ++ '\x7d' :: s = renderFieldsTail fields' ++ '\x7d' :: t →
    fields = fields' ∧ s = t
  | [], [], s, t, _, _, h => by simpa [renderFieldsTail] using h
  | [], (_, _) :: _, s, t, _, _, h => by simp [renderFieldsTail] at h
  | (_, _) :: _, [], s, t, _, _, h => by simp [renderFieldsTail] at h
  | (key, value) :: fields, (key', value') :: fields', s, t, hv, hw, h => by
    simp only [renderFieldsTail, List.cons_append, List.append_assoc, List.cons.injEq,
      true_and] at h
    obtain ⟨rfl, hvalue⟩ := renderString_append_inj h
    rw [List.cons.injEq] at hvalue
    obtain ⟨rfl, htail⟩ := render_append_inj hv.1 hw.1 (ends_renderFieldsTail fields)
      (ends_renderFieldsTail fields') hvalue.2
    obtain ⟨rfl, hst⟩ := renderFieldsTail_inj hv.2 hw.2 htail
    exact ⟨rfl, hst⟩

end

theorem render_inj {v w : Json} (hv : v.Exact) (hw : w.Exact) (h : render v = render w) :
    v = w := by
  have hnil : Ends [] := nofun
  have happend : (render v).toList ++ [] = (render w).toList ++ [] := by rw [h]
  exact (render_append_inj hv hw hnil hnil happend).1

theorem jsonBytes_inj {v w : Json} (hv : v.Exact) (hw : w.Exact) (h : jsonBytes v = jsonBytes w) :
    v = w := by
  refine render_inj hv hw (String.toByteArray_inj.mp ?_)
  exact ByteArray.ext (Array.toList_inj.mp h)

/-! ## Objects -/

theorem exactFields_iff {fields : List (String × Json)} :
    ExactFields fields ↔ ∀ field ∈ fields, field.2.Exact := by
  induction fields with
  | nil => simp [ExactFields]
  | cons field fields ih =>
    rw [List.forall_mem_cons, ← ih]
    exact Iff.rfl

/-- An object is exact when its fields are. -/
theorem exact_object {fs : List (String × Option Json)}
    (h : ∀ f ∈ fs, ∀ value, f.2 = some value → value.Exact) : (Serde.object fs).Exact := by
  refine exactFields_iff.mpr fun field hfield => ?_
  obtain ⟨f, hf, hvalue⟩ := List.mem_filterMap.mp (SortBy.mem_sortBy.mp hfield)
  obtain ⟨value, hsome, rfl⟩ := Option.map_eq_some_iff.mp hvalue
  exact h f hf value hsome

/-- Equal objects have equal fields. -/
theorem lookup_of_object_eq {fs fs' : List (String × Option Json)} (hfs : Serde.distinctKeys fs)
    (hfs' : Serde.distinctKeys fs') (h : Serde.object fs = Serde.object fs') (name : String) :
    (fs.lookup name).join = (fs'.lookup name).join := by
  rw [← Serde.lookup_entries hfs, ← Serde.lookup_entries hfs', Json.obj.inj h]

end OpenStrata.Json

namespace OpenStrata

theorem bytesOfHex_renderHex (bytes : Bytes) : bytesOfHex (renderHex bytes).toList = bytes := by
  rw [renderHex, String.toList_ofList]
  induction bytes with
  | nil => rfl
  | cons b bytes ih =>
    have hlt : b.toNat < 256 := b.toNat_lt
    have hhigh : b.toNat / 16 < 16 := by omega
    have hlow : b.toNat % 16 < 16 := Nat.mod_lt _ (by omega)
    simp only [List.flatMap_cons, List.cons_append, List.nil_append, bytesOfHex, ih,
      Json.hexValue_hexDigit hhigh, Json.hexValue_hexDigit hlow, Nat.div_add_mod,
      UInt8.ofNat_toNat]

theorem renderHex_injective : Function.Injective renderHex := by
  intro a b h
  rw [← bytesOfHex_renderHex a, h, bytesOfHex_renderHex]

/-- Where the hash has no collisions, the same digest means the same value. -/
theorem sha256Hex_jsonBytes_inj {codec : Codec} (hsha : Function.Injective codec.sha256)
    {v w : Json} (hv : v.Exact) (hw : w.Exact)
    (h : sha256Hex codec (jsonBytes v) = sha256Hex codec (jsonBytes w)) : v = w := by
  have hhex : renderHex (codec.sha256 (jsonBytes v)) = renderHex (codec.sha256 (jsonBytes w)) := by
    have hlist := congrArg String.toList h
    rw [sha256Hex, sha256Hex, String.toList_append, String.toList_append,
      List.append_cancel_left_eq] at hlist
    exact String.toList_inj.mp hlist
  exact Json.jsonBytes_inj hv hw (hsha (renderHex_injective hhex))

end OpenStrata
