import OpenStrata.Core.Printing

/-!
# Texts of a JSON value

A value has many texts: they differ in the gaps between the tokens, in how the characters of a
string are escaped, in the order of the fields of an object and, in relaxed dialects, in commas
behind the last element of a container. The texts are given by a grammar whose gaps are a
parameter, so that a dialect is compared with the strict one by its gaps.

## Main definitions

* `JsonText.Literal`: the literals of a string
* `JsonText.Written`: the texts of a value, with the gaps of a dialect between their tokens
* `JsonText.Document`: the same, with gaps around the value
* `JsonText.White`: the gaps of JSON

## Main results

* `JsonText.Written.mono`: a text of a dialect is one of every dialect with more gaps
* `JsonText.Written.opens`: how a text of a value begins
* `JsonText.document_renderPretty`: a pretty-printed value is a text of it
-/

namespace OpenStrata.JsonText

/-! ## Gaps -/

/-- The whitespace of JSON. -/
def isWhite (c : Char) : Bool := c == ' ' || c == '\t' || c == '\n' || c == '\r'

/-- The gaps of JSON are made of whitespace. -/
def White (gap : List Char) : Prop := ∀ c ∈ gap, isWhite c

theorem isWhitespace_of_isWhite {c : Char} (h : isWhite c) : Text.isWhitespace c := by
  simp only [isWhite, Bool.or_eq_true, beq_iff_eq] at h
  rcases h with ((rfl | rfl) | rfl) | rfl <;> rfl

theorem White.nil : White [] := by
  intro c hc
  cases hc

theorem White.cons {c : Char} {gap : List Char} (hc : isWhite c) (h : White gap) :
    White (c :: gap) := by
  intro d hd
  rcases List.mem_cons.mp hd with rfl | hd
  · exact hc
  · exact h d hd

theorem White.append {gap gap' : List Char} (h : White gap) (h' : White gap') :
    White (gap ++ gap') := by
  intro c hc
  rcases List.mem_append.mp hc with hc | hc
  · exact h c hc
  · exact h' c hc

/-! ## Strings -/

/-- The letters behind a backslash, and what they stand for. -/
def shortEscapes : List (Char × Char) :=
  [('"', '"'), ('\\', '\\'), ('/', '/'), ('b', '\x08'), ('f', '\x0c'), ('n', '\n'), ('r', '\r'),
    ('t', '\t')]

/-- The digit `d`, in either case, has the value `n`. -/
def IsHex (n : Nat) (d : Char) : Prop :=
  n < 16 ∧ (d = Json.hexDigit n ∨ d = (Json.hexDigit n).toUpper)

/-- Four digits that stand for a unit of UTF-16. -/
def CodeUnit (unit : Nat) (digits : List Char) : Prop :=
  unit < 0x10000 ∧
    List.Forall₂ IsHex [unit / 0x1000 % 16, unit / 0x100 % 16, unit / 0x10 % 16, unit % 16] digits

/-- What stands between the quotes of a string. -/
inductive Body : List Char → List Char → Prop
  | nil : Body [] []
  | plain {c : Char} {s t : List Char} (hquote : c ≠ '"') (hescape : c ≠ '\\')
      (hcontrol : 0x20 ≤ c.toNat) (h : Body s t) : Body (c :: s) (c :: t)
  | short {e c : Char} {s t : List Char} (he : (e, c) ∈ shortEscapes) (h : Body s t) :
      Body (c :: s) ('\\' :: e :: t)
  | unit {c : Char} {digits s t : List Char} (hc : CodeUnit c.toNat digits) (h : Body s t) :
      Body (c :: s) ('\\' :: 'u' :: digits ++ t)
  | pair {c : Char} {high low s t : List Char} (hc : 0x10000 ≤ c.toNat)
      (hhigh : CodeUnit (0xd800 + (c.toNat - 0x10000) / 0x400) high)
      (hlow : CodeUnit (0xdc00 + (c.toNat - 0x10000) % 0x400) low) (h : Body s t) :
      Body (c :: s) ('\\' :: 'u' :: high ++ '\\' :: 'u' :: low ++ t)

/-- The literals of a string. -/
def Literal (s : String) (text : List Char) : Prop :=
  ∃ body, Body s.toList body ∧ text = '"' :: body ++ ['"']

/-- Quotes are escaped: a scan that starts between quotes, and skips what follows a backslash,
meets none. -/
inductive Quoted : List Char → Prop
  | nil : Quoted []
  | plain {c : Char} {t : List Char} (hquote : c ≠ '"') (hescape : c ≠ '\\') (h : Quoted t) :
      Quoted (c :: t)
  | escape {c : Char} {t : List Char} (h : Quoted t) : Quoted ('\\' :: c :: t)

theorem IsHex.plain {n : Nat} {d : Char} (h : IsHex n d) : d ≠ '"' ∧ d ≠ '\\' := by
  obtain ⟨hn, h⟩ := h
  interval_cases n <;> rcases h with rfl | rfl <;> decide

/-- Hexadecimal digits are plain characters. -/
theorem Quoted.digits {units : List Nat} {digits t : List Char}
    (h : List.Forall₂ IsHex units digits) (ht : Quoted t) : Quoted (digits ++ t) := by
  induction h with
  | nil => exact ht
  | cons hd _ ih => exact .plain hd.plain.1 hd.plain.2 ih

theorem Body.quoted {s t : List Char} (h : Body s t) : Quoted t := by
  induction h with
  | nil => exact .nil
  | plain hquote hescape _ _ ih => exact .plain hquote hescape ih
  | short _ _ ih => exact .escape ih
  | unit hc _ ih => exact .escape (.digits hc.2 ih)
  | pair _ hhigh hlow _ ih =>
    rw [List.append_assoc]
    exact .escape (.digits hhigh.2 (.escape (.digits hlow.2 ih)))

/-! ## Values -/

/-- The characters that neither begin a string or a comment nor separate tokens. -/
def isPlain (c : Char) : Bool :=
  c != '"' && c != '#' && c != '/' && c != ',' && c != ']' && c != '\x7d' && !Text.isWhitespace c

/-- The literals of the values without parts that are no strings. -/
inductive Scalar : Json → List Char → Prop
  | null : Scalar .null ['n', 'u', 'l', 'l']
  | true : Scalar (.bool true) ['t', 'r', 'u', 'e']
  | false : Scalar (.bool false) ['f', 'a', 'l', 's', 'e']
  | int (n : Int) : Scalar (.int n) (toString n).toList
  | float {literal : String} (hne : literal ≠ "") (hnumber : Text.all Json.isNumberChar literal) :
      Scalar (.float literal) literal.toList

/-- A container, its brackets and its elements; the fields of an object come in any order. -/
inductive Container : Json → Char → Char → List (Option String × Json) → Prop
  | arr (items : List Json) : Container (.arr items) '[' ']' (items.map fun item => (none, item))
  | obj {fields order : List (String × Json)} (h : fields.Perm order) :
      Container (.obj fields) '\x7b' '\x7d' (order.map fun field => (some field.1, field.2))

/-- What a text can be of: a value, an element of a container, or its elements in order. -/
inductive Node
  | value (v : Json)
  | elem (key : Option String) (v : Json)
  | elems (elems : List (Option String × Json))

/-- What may stand behind the last element of a container. -/
def Trailer (gap : List Char → Prop) (trail : Bool) (text : List Char) : Prop :=
  text = [] ∨ trail = true ∧ ∃ w, gap w ∧ text = ',' :: w

/-- The texts of a value with these gaps between the tokens. -/
inductive Written (gap : List Char → Prop) (trail : Bool) : Node → List Char → Prop
  | scalar {v : Json} {t : List Char} (h : Scalar v t) : Written gap trail (.value v) t
  | string {s : String} {t : List Char} (h : Literal s t) : Written gap trail (.value (.str s)) t
  | empty {v : Json} {o c : Char} {w : List Char} (hc : Container v o c []) (hw : gap w) :
      Written gap trail (.value v) (o :: w ++ [c])
  | full {v : Json} {o c : Char} {elems : List (Option String × Json)} {t : List Char}
      (hc : Container v o c elems) (h : Written gap trail (.elems elems) t) :
      Written gap trail (.value v) (o :: t ++ [c])
  | item {v : Json} {t : List Char} (h : Written gap trail (.value v) t) :
      Written gap trail (.elem none v) t
  | member {key : String} {v : Json} {s a b t : List Char} (hkey : Literal key s) (ha : gap a)
      (hb : gap b) (h : Written gap trail (.value v) t) :
      Written gap trail (.elem (some key) v) (s ++ a ++ ':' :: b ++ t)
  | last {e : Option String × Json} {a t b c : List Char} (ha : gap a)
      (h : Written gap trail (.elem e.1 e.2) t) (hb : gap b) (hc : Trailer gap trail c) :
      Written gap trail (.elems [e]) (a ++ t ++ b ++ c)
  | cons {e e' : Option String × Json} {es : List (Option String × Json)} {a t b ts : List Char}
      (ha : gap a) (h : Written gap trail (.elem e.1 e.2) t) (hb : gap b)
      (hs : Written gap trail (.elems (e' :: es)) ts) :
      Written gap trail (.elems (e :: e' :: es)) (a ++ t ++ b ++ ',' :: ts)

/-- A text of a value with a gap before and one behind it. -/
def Document (gap final : List Char → Prop) (trail : Bool) (v : Json) (text : List Char) : Prop :=
  ∃ a t b, gap a ∧ Written gap trail (.value v) t ∧ final b ∧ text = a ++ t ++ b

section Dialects

variable {gap gap' final final' : List Char → Prop} {trail trail' : Bool} {node : Node}
  {v : Json} {t : List Char}

/-! ## How texts begin -/

theorem isPlain_of_isNumberChar {c : Char} (h : Json.isNumberChar c) : isPlain c := by
  simp only [Json.isNumberChar, Bool.or_eq_true, beq_iff_eq] at h
  rcases h with ((((hdigit | rfl) | rfl) | rfl) | rfl) | rfl
  · obtain ⟨hlow, hhigh⟩ : 48 ≤ c.toNat ∧ c.toNat ≤ 57 := Char.isDigit_iff_toNat.mp hdigit
    rw [← Char.ofNat_toNat c]
    generalize c.toNat = n at hlow hhigh
    interval_cases n <;> rfl
  all_goals decide

theorem Scalar.plain {c : Char} (h : Scalar v t) (hc : c ∈ t) : isPlain c := by
  cases h with
  | null => exact List.all_eq_true.mp (rfl : ['n', 'u', 'l', 'l'].all isPlain) c hc
  | true => exact List.all_eq_true.mp (rfl : ['t', 'r', 'u', 'e'].all isPlain) c hc
  | false => exact List.all_eq_true.mp (rfl : ['f', 'a', 'l', 's', 'e'].all isPlain) c hc
  | int n =>
    rw [Int.toString_eq_repr, Int.repr_eq_if] at hc
    split at hc
    · exact isPlain_of_isNumberChar (Json.isNumberChar_of_mem_repr hc)
    · rw [String.toList_append, List.mem_append] at hc
      rcases hc with hc | hc
      · rw [List.mem_singleton.mp hc]
        rfl
      · exact isPlain_of_isNumberChar (Json.isNumberChar_of_mem_repr hc)
  | float _ hnumber => exact isPlain_of_isNumberChar (List.all_eq_true.mp hnumber c hc)

theorem Scalar.ne_nil (h : Scalar v t) : t ≠ [] := by
  cases h with
  | null => exact List.cons_ne_nil _ _
  | true => exact List.cons_ne_nil _ _
  | false => exact List.cons_ne_nil _ _
  | int n =>
    rw [Int.toString_eq_repr, Int.repr_eq_if]
    split
    · rw [Nat.toList_repr]
      exact Nat.toDigits_ne_nil
    · rw [String.toList_append]
      exact List.cons_ne_nil _ _
  | float hne _ =>
    intro hnil
    exact hne (String.toList_eq_nil_iff.mp hnil)

theorem Container.brackets {o c : Char} {elems : List (Option String × Json)}
    (h : Container v o c elems) : isPlain o ∧ (c = ']' ∨ c = '\x7d') := by
  cases h with
  | arr items => exact ⟨rfl, .inl rfl⟩
  | obj h => exact ⟨rfl, .inr rfl⟩

theorem Container.perm {o c o' c' : Char} {elems elems' : List (Option String × Json)}
    (h : Container v o c elems) (h' : Container v o' c' elems') : elems.Perm elems' := by
  cases h with
  | arr items =>
    cases h'
    exact .refl _
  | obj h =>
    cases h' with
    | obj h' => exact (h.symm.trans h').map _

theorem Container.elems_eq_nil {o c o' c' : Char} {elems : List (Option String × Json)}
    (h : Container v o c elems) (h' : Container v o' c' []) : elems = [] :=
  (h.perm h').eq_nil

/-- The nodes that have a first character of their own. -/
def Node.isElem : Node → Prop
  | .value _ => True
  | .elem _ _ => True
  | .elems _ => False

/-- A value begins with a quote, or with a character that begins no gap and ends no container. -/
theorem Written.opens (h : Written gap trail node t) (hnode : node.isElem) :
    ∃ c rest, t = c :: rest ∧ (c = '"' ∨ isPlain c) := by
  induction h with
  | scalar h =>
    obtain ⟨c, rest, rfl⟩ := List.exists_cons_of_ne_nil h.ne_nil
    exact ⟨c, rest, rfl, .inr (h.plain List.mem_cons_self)⟩
  | string h =>
    obtain ⟨body, -, rfl⟩ := h
    exact ⟨'"', body ++ ['"'], rfl, .inl rfl⟩
  | empty hc hw => exact ⟨_, _, rfl, .inr hc.brackets.1⟩
  | full hc h ih => exact ⟨_, _, rfl, .inr hc.brackets.1⟩
  | item h ih => exact ih trivial
  | member hkey ha hb h ih =>
    obtain ⟨body, -, rfl⟩ := hkey
    exact ⟨'"', _, rfl, .inl rfl⟩
  | last => exact hnode.elim
  | cons => exact hnode.elim

end Dialects

/-! ## Pretty-printed values -/

theorem isHex_hexDigit {n : Nat} (h : n < 16) : IsHex n (Json.hexDigit n) := ⟨h, .inl rfl⟩

theorem body_escapeChar {c : Char} {s t : List Char} (h : Body s t) :
    Body (c :: s) (Json.escapeChar c ++ t) := by
  have hofNat {n : Nat} (hn : c.toNat = n) : c = Char.ofNat n := by
    rw [← hn, Char.ofNat_toNat]
  unfold Json.escapeChar
  split_ifs with h₁ h₂ h₃ h₄ h₅ h₆ h₇ h₈
  · rw [h₁]
    exact .short (by decide) h
  · rw [h₂]
    exact .short (by decide) h
  · rw [hofNat h₃]
    exact .short (by decide) h
  · rw [hofNat h₄]
    exact .short (by decide) h
  · rw [hofNat h₅]
    exact .short (by decide) h
  · rw [hofNat h₆]
    exact .short (by decide) h
  · rw [hofNat h₇]
    exact .short (by decide) h
  · refine Body.unit ⟨by omega, ?_⟩ h
    have hzero : IsHex 0 '0' := isHex_hexDigit (by decide)
    rw [show c.toNat / 0x1000 % 16 = 0 by omega, show c.toNat / 0x100 % 16 = 0 by omega,
      show c.toNat / 0x10 % 16 = c.toNat / 16 by omega]
    exact .cons hzero (.cons hzero (.cons (isHex_hexDigit (by omega))
      (.cons (isHex_hexDigit (by omega)) .nil)))
  · exact .plain h₁ h₂ (by omega) h

theorem literal_renderString (s : String) : Literal s (Json.renderString s).toList := by
  refine ⟨s.toList.flatMap Json.escapeChar, ?_, by simp [Json.renderString]⟩
  induction s.toList with
  | nil => exact .nil
  | cons c s ih =>
    rw [List.flatMap_cons]
    exact body_escapeChar ih

theorem white_lineStart (depth : Nat) : White (Json.lineStart depth).toList := by
  intro c hc
  rw [Json.lineStart, String.toList_append, String.toList_ofList] at hc
  rcases List.mem_append.mp hc with hc | hc
  · rw [List.mem_singleton.mp hc]
    rfl
  · rw [String.toList_ofList] at hc
    rw [List.eq_of_mem_replicate hc]
    rfl

/-- A value whose pretty-printed text is a text of it, at any depth. -/
def Pretty (v : Json) : Prop :=
  ∀ depth, Written White false (.value v) (v.renderPretty depth).toList

theorem Scalar.render_eq (h : Scalar v t) : t = v.render.toList := by
  cases h with
  | int n => rw [Json.render]
  | float => rw [Json.render]
  | _ => rfl

theorem elems_renderPrettyItems {items : List Json} (depth outer : Nat) (hne : items ≠ [])
    (h : ∀ v ∈ items, Pretty v) :
    Written White false (.elems (items.map fun item => (none, item)))
      ((Json.lineStart depth).toList ++ (Json.renderPrettyItems depth items).toList ++
        (Json.lineStart outer).toList) := by
  induction items with
  | nil => exact absurd rfl hne
  | cons v items ih =>
    have hv : Written White false (.elem none v) _ := .item (h v List.mem_cons_self depth)
    cases items with
    | nil =>
      rw [Json.renderPrettyItems]
      have hlast := Written.last (e := (none, v)) (white_lineStart depth) hv
        (white_lineStart outer) (.inl rfl)
      rwa [List.append_nil] at hlast
    | cons w items =>
      have hrest := ih (List.cons_ne_nil _ _) fun u hu => h u (List.mem_cons_of_mem _ hu)
      have hcons := Written.cons (e := (none, v)) (white_lineStart depth) hv White.nil hrest
      rw [Json.renderPrettyItems]
      · simpa using hcons
      · rintro ⟨⟩

theorem elems_renderPrettyFields {fields : List (String × Json)} (depth outer : Nat)
    (hne : fields ≠ []) (h : ∀ field ∈ fields, Pretty field.2) :
    Written White false (.elems (fields.map fun field => (some field.1, field.2)))
      ((Json.lineStart depth).toList ++ (Json.renderPrettyFields depth fields).toList ++
        (Json.lineStart outer).toList) := by
  induction fields with
  | nil => exact absurd rfl hne
  | cons field fields ih =>
    obtain ⟨key, v⟩ := field
    have hspace : White [' '] := .cons rfl .nil
    have hv : Written White false (.elem (some key) v)
        ((Json.renderString key).toList ++ [] ++ ':' :: [' '] ++ (v.renderPretty depth).toList) :=
      .member (literal_renderString key) White.nil hspace (h _ List.mem_cons_self depth)
    cases fields with
    | nil =>
      have hlast := Written.last (e := (some key, v)) (white_lineStart depth) hv
        (white_lineStart outer) (.inl rfl)
      rw [Json.renderPrettyFields]
      simpa using hlast
    | cons field fields =>
      have hrest := ih (List.cons_ne_nil _ _) fun f hf => h f (List.mem_cons_of_mem _ hf)
      have hcons := Written.cons (e := (some key, v)) (white_lineStart depth) hv White.nil hrest
      rw [Json.renderPrettyFields]
      · simpa using hcons
      · rintro ⟨⟩

theorem pretty_arr {items : List Json} (h : ∀ v ∈ items, Pretty v) : Pretty (.arr items) := by
  intro depth
  rcases eq_or_ne items [] with rfl | hne
  · rw [show (Json.renderPretty depth (.arr [])).toList = ['[', ']'] by rw [Json.renderPretty]; rfl]
    exact .empty (.arr []) White.nil
  · have hfull := Written.full (.arr items) (elems_renderPrettyItems (depth + 1) depth hne h)
    rw [Json.renderPretty]
    · simpa using hfull
    · exact hne

theorem pretty_obj {fields : List (String × Json)} (h : ∀ field ∈ fields, Pretty field.2) :
    Pretty (.obj fields) := by
  intro depth
  rcases eq_or_ne fields [] with rfl | hne
  · rw [show (Json.renderPretty depth (.obj [])).toList = ['\x7b', '\x7d'] by
      rw [Json.renderPretty]; rfl]
    exact .empty (.obj (.refl [])) White.nil
  · have hfull := Written.full (.obj (.refl fields))
      (elems_renderPrettyFields (depth + 1) depth hne h)
    rw [Json.renderPretty]
    · simpa using hfull
    · exact hne

/-- The values that a node is a text of. -/
def Node.values : Node → List Json
  | .value v => [v]
  | .elem _ v => [v]
  | .elems es => es.map Prod.snd

theorem Container.pretty {o c : Char} {elems : List (Option String × Json)}
    (hc : Container v o c elems) (h : ∀ e ∈ elems, Pretty e.2) : Pretty v := by
  cases hc with
  | arr items => exact pretty_arr fun v hv => h _ (List.mem_map_of_mem hv)
  | obj horder =>
    exact pretty_obj fun field hf => h _ (List.mem_map_of_mem (horder.mem_iff.mp hf))

theorem Scalar.pretty (h : Scalar v t) : Pretty v := by
  intro depth
  have hrender : v.renderPretty depth = v.render := by
    cases h <;> rfl
  rw [hrender, ← h.render_eq]
  exact .scalar h

theorem pretty_str (s : String) : Pretty (.str s) := by
  intro depth
  exact .string (literal_renderString s)

/-- A value with a text has a pretty-printed text: its literals are the same ones. -/
theorem Written.pretty {gap : List Char → Prop} {trail : Bool} {node : Node}
    (h : Written gap trail node t) : ∀ v ∈ node.values, Pretty v := by
  induction h with
  | scalar h => simpa [Node.values] using h.pretty
  | string h => simpa [Node.values] using pretty_str _
  | empty hc _ =>
    have hpretty := hc.pretty (by simp)
    simpa [Node.values] using hpretty
  | full hc _ ih =>
    have hpretty := hc.pretty fun e he => ih _ (List.mem_map_of_mem he)
    simpa [Node.values] using hpretty
  | item _ ih => exact ih
  | member _ _ _ _ ih => exact ih
  | last _ _ _ _ ih => simpa [Node.values] using ih
  | cons _ _ _ _ ih ihs =>
    intro v hv
    rcases List.mem_cons.mp hv with rfl | hv
    · exact ih _ List.mem_cons_self
    · exact ihs v hv

theorem Pretty.of_container {o c : Char} {elems : List (Option String × Json)} (h : Pretty v)
    (hc : Container v o c elems) {e : Option String × Json} (he : e ∈ elems) : Pretty e.2 := by
  have hwritten := h 0
  generalize (v.renderPretty 0).toList = t at hwritten
  cases hwritten with
  | scalar h => cases h <;> cases hc
  | string _ => cases hc
  | empty hc' _ => exact absurd he (by rw [hc.elems_eq_nil hc']; exact List.not_mem_nil)
  | full hc' h' => exact h'.pretty _ (List.mem_map_of_mem ((hc.perm hc').mem_iff.mp he))

theorem document_renderPretty (h : Pretty v) :
    Document White White false v (v.renderPretty 0).toList :=
  ⟨[], _, [], .nil, h 0, .nil, by simp⟩

end OpenStrata.JsonText
