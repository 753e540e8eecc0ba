import OpenStrata.Core.JsonText

/-!
# Relaxed `plugInfo.json` documents

USD reads its plugin metadata with comments and trailing commas, which a strict parser rejects.
The document is therefore relaxed in two passes over its characters before it is parsed: the
first drops the comments, the second the commas before a closing bracket. Both track the string
literals for themselves.

## Main definitions

* `stripComments`, `removeTrailingCommas`, `stripJsonc`: the two passes
* `parsePlugInfo`: the parser, behind the passes
* `Gap`, `FinalGap`: comments and whitespace

## Main results

* `written_stripComments`, `written_removeTrailingCommas`: a pass takes a text of a value to a
  text of the same value in a stricter dialect
* `parsePlugInfo_document`: a relaxed text of a value is parsed as the value
-/

namespace OpenStrata.Plugin

open JsonText

/-! ## The passes -/

/-- Where a pass is: outside of string literals, inside of one, or behind a backslash in one. -/
inductive InString
  | outside
  | inside
  | escaped

/-- The state behind a character of a literal. -/
def InString.next (c : Char) : InString :=
  if c = '\\' then .escaped
  else if c = '"' then .outside
  else .inside

/-- Where the first pass is: reading or inside of a comment. -/
inductive Scan
  | text (inStr : InString)
  | line
  | block (prev : Char)

/-- `strip_comments`, from a state on. -/
def stripComments : Scan → List Char → List Char
  | _, [] => []
  | .text .escaped, c :: rest => c :: stripComments (.text .inside) rest
  | .text .inside, c :: rest => c :: stripComments (.text (.next c)) rest
  | .line, c :: rest =>
    -- the line break itself is text
    if c = '\n' then c :: stripComments (.text .outside) rest else stripComments .line rest
  | .block prev, c :: rest =>
    if prev = '*' ∧ c = '/' then stripComments (.text .outside) rest
    else stripComments (.block c) rest
  | .text .outside, '/' :: '*' :: rest => stripComments (.block '\x00') rest
  | .text .outside, c :: rest =>
    if c = '"' then c :: stripComments (.text .inside) rest
    else if c = '#' ∨ c = '/' ∧ rest.head? = some '/' then stripComments .line rest
    else c :: stripComments (.text .outside) rest

/-- Whether a closing bracket follows, behind whitespace. -/
def closes (rest : List Char) : Bool :=
  match rest.find? fun c => !Text.isWhitespace c with
  | some c => c == '\x7d' || c == ']'
  | none => false

/-- `remove_trailing_commas`, from a state on. -/
def removeTrailingCommas : InString → List Char → List Char
  | _, [] => []
  | .escaped, c :: rest => c :: removeTrailingCommas .inside rest
  | .inside, c :: rest => c :: removeTrailingCommas (.next c) rest
  | .outside, c :: rest =>
    if c = '"' then c :: removeTrailingCommas .inside rest
    else if c = ',' ∧ closes rest then removeTrailingCommas .outside rest
    else c :: removeTrailingCommas .outside rest

def stripJsonc (src : String) : String :=
  String.ofList (removeTrailingCommas .outside (stripComments (.text .outside) src.toList))

/-- `parse_plug_info`, over `serde_json::from_str`. -/
def parsePlugInfo (fromStr : String → Option Json) (src : String) : Option Json :=
  fromStr (stripJsonc src)

/-! ## The relaxed dialect -/

/-- Whitespace, line comments and block comments between two tokens. -/
inductive Gap : List Char → Prop
  | nil : Gap []
  | white {c : Char} {w : List Char} (hc : isWhite c) (h : Gap w) : Gap (c :: w)
  | hash {body w : List Char} (hbody : '\n' ∉ body) (h : Gap w) : Gap ('#' :: body ++ '\n' :: w)
  | slashes {body w : List Char} (hbody : '\n' ∉ body) (h : Gap w) :
      Gap ('/' :: '/' :: body ++ '\n' :: w)
  | block {body w : List Char} (hbody : ¬ ['*', '/'] <:+: body) (h : Gap w) :
      Gap ('/' :: '*' :: body ++ '*' :: '/' :: w)

/-- Behind the value, a line comment may end with the document. -/
def FinalGap (gap : List Char) : Prop :=
  ∃ w final, Gap w ∧ gap = w ++ final ∧
    (final = [] ∨ ∃ body, '\n' ∉ body ∧ (final = '#' :: body ∨ final = '/' :: '/' :: body))

/-! ## The first pass -/

section Scan

variable {c prev : Char} {rest : List Char}

theorem stripComments_nil : stripComments (.text .outside) [] = [] := rfl

theorem stripComments_inside :
    stripComments (.text .inside) (c :: rest) = c :: stripComments (.text (.next c)) rest := rfl

theorem stripComments_escaped :
    stripComments (.text .escaped) (c :: rest) = c :: stripComments (.text .inside) rest := rfl

theorem stripComments_inLine : stripComments .line (c :: rest) =
    if c = '\n' then c :: stripComments (.text .outside) rest else stripComments .line rest := rfl

theorem stripComments_inBlock : stripComments (.block prev) (c :: rest) =
    if prev = '*' ∧ c = '/' then stripComments (.text .outside) rest
    else stripComments (.block c) rest := rfl

theorem stripComments_open :
    stripComments (.text .outside) ('/' :: '*' :: rest) = stripComments (.block '\x00') rest := rfl

/-- Outside of literals, where no block comment begins. -/
theorem stripComments_outside (h : ∀ tail, c = '/' → rest ≠ '*' :: tail) :
    stripComments (.text .outside) (c :: rest) =
      if c = '"' then c :: stripComments (.text .inside) rest
      else if c = '#' ∨ c = '/' ∧ rest.head? = some '/' then stripComments .line rest
      else c :: stripComments (.text .outside) rest := by
  rw [stripComments]
  exact h

theorem removeTrailingCommas_nil : removeTrailingCommas .outside [] = [] := rfl

theorem removeTrailingCommas_inside : removeTrailingCommas .inside (c :: rest) =
    c :: removeTrailingCommas (.next c) rest := rfl

theorem removeTrailingCommas_escaped : removeTrailingCommas .escaped (c :: rest) =
    c :: removeTrailingCommas .inside rest := rfl

theorem removeTrailingCommas_outside : removeTrailingCommas .outside (c :: rest) =
    if c = '"' then c :: removeTrailingCommas .inside rest
    else if c = ',' ∧ closes rest then removeTrailingCommas .outside rest
    else c :: removeTrailingCommas .outside rest := rfl

end Scan

/-- The first pass turns one text into another, whatever follows. -/
def Strips (t t' : List Char) : Prop :=
  ∀ rest, stripComments (.text .outside) (t ++ rest) = t' ++ stripComments (.text .outside) rest

section Comments

variable {t t' u u' : List Char}

theorem Strips.nil : Strips [] [] := fun _ => rfl

theorem Strips.append (h : Strips t t') (hu : Strips u u') : Strips (t ++ u) (t' ++ u') := by
  intro rest
  rw [List.append_assoc, h, hu, List.append_assoc]

theorem Strips.char {c : Char} (hquote : c ≠ '"') (hhash : c ≠ '#') (hslash : c ≠ '/') :
    Strips [c] [c] := by
  intro rest
  rw [List.singleton_append, List.singleton_append, stripComments_outside fun _ h =>
    absurd h hslash, if_neg hquote, if_neg (by rintro (h | ⟨h, -⟩) <;> contradiction)]

/-- A line comment leaves its line break. -/
theorem stripComments_line {body : List Char} (hbody : '\n' ∉ body) (rest : List Char) :
    stripComments .line (body ++ '\n' :: rest) =
      '\n' :: stripComments (.text .outside) rest := by
  induction body with
  | nil => rfl
  | cons c body ih =>
    obtain ⟨hc, hbody⟩ := not_or.mp (List.mem_cons.not.mp hbody)
    rw [List.cons_append, stripComments_inLine, if_neg (Ne.symm hc), ih hbody]

theorem stripComments_line_nil {body : List Char} (hbody : '\n' ∉ body) :
    stripComments .line body = [] := by
  induction body with
  | nil => rfl
  | cons c body ih =>
    obtain ⟨hc, hbody⟩ := not_or.mp (List.mem_cons.not.mp hbody)
    rw [stripComments_inLine, if_neg (Ne.symm hc), ih hbody]

/-- A block comment ends with its first `*/`. -/
theorem stripComments_block {body : List Char} (rest : List Char) {prev : Char}
    (hbody : ¬ ['*', '/'] <:+: prev :: body) :
    stripComments (.block prev) (body ++ '*' :: '/' :: rest) =
      stripComments (.text .outside) rest := by
  induction body generalizing prev with
  | nil =>
    rw [List.nil_append, stripComments_inBlock, if_neg (by rintro ⟨-, h⟩; cases h),
      stripComments_inBlock, if_pos ⟨rfl, rfl⟩]
  | cons c body ih =>
    rw [List.cons_append, stripComments_inBlock, if_neg, ih]
    · exact fun h => hbody (h.trans (List.suffix_cons _ _).isInfix)
    · rintro ⟨rfl, rfl⟩
      exact hbody (List.prefix_append ['*', '/'] body).isInfix

/-- Comments between two tokens become whitespace. -/
theorem Gap.strips {w : List Char} (h : Gap w) : ∃ w', White w' ∧ Strips w w' := by
  induction h with
  | nil => exact ⟨[], .nil, .nil⟩
  | @white c _ hc _ ih =>
    obtain ⟨w', hw', hstrips⟩ := ih
    have hne {d : Char} (hd : isWhite d = false) : c ≠ d := by
      rintro rfl
      rw [hd] at hc
      cases hc
    exact ⟨c :: w', hw'.cons hc, (Strips.char (hne rfl) (hne rfl) (hne rfl)).append hstrips⟩
  | hash hbody _ ih =>
    obtain ⟨w', hw', hstrips⟩ := ih
    refine ⟨'\n' :: w', hw'.cons rfl, fun rest => ?_⟩
    rw [List.append_assoc, List.cons_append, stripComments_outside (by rintro _ ⟨⟩),
      if_neg (by decide), if_pos (.inl rfl), List.cons_append, stripComments_line hbody, hstrips,
      List.cons_append]
  | slashes hbody _ ih =>
    obtain ⟨w', hw', hstrips⟩ := ih
    refine ⟨'\n' :: w', hw'.cons rfl, fun rest => ?_⟩
    rw [List.append_assoc, List.cons_append, List.cons_append,
      stripComments_outside (by rintro _ - ⟨⟩), if_neg (by decide), if_pos (.inr ⟨rfl, rfl⟩),
      stripComments_inLine, if_neg (by decide), List.cons_append, stripComments_line hbody,
      hstrips, List.cons_append]
  | block hbody _ ih =>
    obtain ⟨w', hw', hstrips⟩ := ih
    refine ⟨w', hw', fun rest => ?_⟩
    rw [List.append_assoc, List.cons_append, List.cons_append, stripComments_open,
      List.cons_append, List.cons_append, stripComments_block, hstrips]
    rw [List.infix_cons_iff]
    rintro (h | h)
    · cases (List.cons_prefix_cons.mp h).1
    · exact hbody h

theorem Strips.plain (h : ∀ c ∈ t, isPlain c) : Strips t t := by
  induction t with
  | nil => exact .nil
  | cons c t ih =>
    have hc := h c List.mem_cons_self
    simp only [isPlain, Bool.and_eq_true, bne_iff_ne] at hc
    exact (Strips.char hc.1.1.1.1.1.1 hc.1.1.1.1.1.2 hc.1.1.1.1.2).append
      (ih fun d hd => h d (List.mem_cons_of_mem _ hd))

/-- The first pass finds the end of a literal. -/
theorem stripComments_quoted {body : List Char} (h : Quoted body) (rest : List Char) :
    stripComments (.text .inside) (body ++ '"' :: rest) =
      body ++ '"' :: stripComments (.text .outside) rest := by
  induction h with
  | nil => rfl
  | plain hquote hescape _ ih =>
    rw [List.cons_append, stripComments_inside, InString.next, if_neg hescape, if_neg hquote, ih,
      List.cons_append]
  | escape _ ih =>
    rw [List.cons_append, List.cons_append, stripComments_inside, InString.next, if_pos rfl,
      stripComments_escaped, ih, List.cons_append, List.cons_append]

theorem Strips.literal {s : String} (h : Literal s t) : Strips t t := by
  obtain ⟨body, hbody, rfl⟩ := h
  intro rest
  rw [List.cons_append, List.cons_append, List.append_assoc, List.singleton_append,
    stripComments_outside (by rintro _ ⟨⟩), if_pos rfl, stripComments_quoted hbody.quoted]
  simp

theorem Strips.opening {v : Json} {o c : Char} {elems : List (Option String × Json)}
    (h : Container v o c elems) : Strips [o] [o] :=
  .plain fun _ hd => List.mem_singleton.mp hd ▸ h.brackets.1

theorem Strips.closing {v : Json} {o c : Char} {elems : List (Option String × Json)}
    (h : Container v o c elems) : Strips [c] [c] := by
  rcases h.brackets.2 with rfl | rfl
  all_goals exact .char (by decide) (by decide) (by decide)

/-- The first pass takes a text with these gaps to one without comments, once it does so with the
gaps. Where it changes no gap, it does not change the text. -/
theorem written_strips {gap : List Char → Prop} {trail : Bool} {node : Node} (same : Bool)
    (hgap : ∀ w, gap w → ∃ w', White w' ∧ Strips w w' ∧ (same = true → w' = w))
    (h : Written gap trail node t) :
    ∃ t', Written White trail node t' ∧ Strips t t' ∧ (same = true → t' = t) := by
  have hcolon : Strips [':'] [':'] := .char (by decide) (by decide) (by decide)
  have hcomma : Strips [','] [','] := .char (by decide) (by decide) (by decide)
  induction h with
  | scalar h => exact ⟨_, .scalar h, .plain fun c hc => h.plain hc, fun _ => rfl⟩
  | string h => exact ⟨_, .string h, .literal h, fun _ => rfl⟩
  | empty hc hw =>
    obtain ⟨w', hw', hstrips, hsame⟩ := hgap _ hw
    exact ⟨_, .empty hc hw', ((Strips.opening hc).append hstrips).append (.closing hc),
      fun he => by rw [hsame he]⟩
  | full hc _ ih =>
    obtain ⟨t', ht', hstrips, hsame⟩ := ih
    exact ⟨_, .full hc ht', ((Strips.opening hc).append hstrips).append (.closing hc),
      fun he => by rw [hsame he]⟩
  | item _ ih =>
    obtain ⟨t', ht', hstrips, hsame⟩ := ih
    exact ⟨t', .item ht', hstrips, hsame⟩
  | member hkey ha hb _ ih =>
    obtain ⟨a', ha', hstripsa, hsamea⟩ := hgap _ ha
    obtain ⟨b', hb', hstripsb, hsameb⟩ := hgap _ hb
    obtain ⟨t', ht', hstrips, hsame⟩ := ih
    exact ⟨_, .member hkey ha' hb' ht', (((Strips.literal hkey).append hstripsa).append
      (hcolon.append hstripsb)).append hstrips,
      fun he => by rw [hsamea he, hsameb he, hsame he]⟩
  | last ha _ hb hc ih =>
    obtain ⟨a', ha', hstripsa, hsamea⟩ := hgap _ ha
    obtain ⟨t', ht', hstrips, hsame⟩ := ih
    obtain ⟨b', hb', hstripsb, hsameb⟩ := hgap _ hb
    have hkept := (hstripsa.append hstrips).append hstripsb
    rcases hc with rfl | ⟨htrail, w, hw, rfl⟩
    · exact ⟨_, .last ha' ht' hb' (.inl rfl), hkept.append .nil,
        fun he => by rw [hsamea he, hsame he, hsameb he]⟩
    · obtain ⟨w', hw', hstripsw, hsamew⟩ := hgap _ hw
      exact ⟨_, .last ha' ht' hb' (.inr ⟨htrail, w', hw', rfl⟩),
        hkept.append (hcomma.append hstripsw),
        fun he => by rw [hsamea he, hsame he, hsameb he, hsamew he]⟩
  | cons ha _ hb _ ih ihs =>
    obtain ⟨a', ha', hstripsa, hsamea⟩ := hgap _ ha
    obtain ⟨t', ht', hstrips, hsame⟩ := ih
    obtain ⟨b', hb', hstripsb, hsameb⟩ := hgap _ hb
    obtain ⟨ts', hts', hstripss, hsames⟩ := ihs
    exact ⟨_, .cons ha' ht' hb' hts', ((hstripsa.append hstrips).append hstripsb).append
      (hcomma.append hstripss),
      fun he => by rw [hsamea he, hsame he, hsameb he, hsames he]⟩

/-- The first pass takes a relaxed text to one without comments. -/
theorem written_stripComments {trail : Bool} {node : Node} (h : Written Gap trail node t) :
    ∃ t', Written White trail node t' ∧ Strips t t' := by
  obtain ⟨t', ht', hstrips, -⟩ := written_strips false (fun w hw => by
    obtain ⟨w', hw', hstrips⟩ := hw.strips
    exact ⟨w', hw', hstrips, fun h => by cases h⟩) h
  exact ⟨t', ht', hstrips⟩

theorem Strips.white (h : White t) : Strips t t := by
  induction t with
  | nil => exact .nil
  | cons c t ih =>
    have hne {d : Char} (hd : isWhite d = false) : c ≠ d := by
      rintro rfl
      rw [h c List.mem_cons_self] at hd
      cases hd
    exact (Strips.char (hne rfl) (hne rfl) (hne rfl)).append
      (ih fun d hd => h d (List.mem_cons_of_mem _ hd))

/-- The first pass leaves a text without comments as it is. -/
theorem Strips.written {trail : Bool} {node : Node} (h : Written White trail node t) :
    Strips t t := by
  obtain ⟨t', -, hstrips, hsame⟩ := written_strips true
    (fun w hw => ⟨w, hw, .white hw, fun _ => rfl⟩) h
  rwa [hsame rfl] at hstrips

end Comments

/-! ## The second pass -/

/-- The second pass turns one text into another, whatever follows. -/
def Drops (t t' : List Char) : Prop :=
  ∀ rest, removeTrailingCommas .outside (t ++ rest) = t' ++ removeTrailingCommas .outside rest

section Commas

variable {t t' u u' : List Char}

theorem Drops.nil : Drops [] [] := fun _ => rfl

theorem Drops.append (h : Drops t t') (hu : Drops u u') : Drops (t ++ u) (t' ++ u') := by
  intro rest
  rw [List.append_assoc, h, hu, List.append_assoc]

theorem Drops.char {c : Char} (hquote : c ≠ '"') (hcomma : c ≠ ',') : Drops [c] [c] := by
  intro rest
  rw [List.singleton_append, List.singleton_append, removeTrailingCommas_outside, if_neg hquote,
    if_neg fun h => hcomma h.1]

theorem Drops.chars (h : ∀ c ∈ t, c ≠ '"' ∧ c ≠ ',') : Drops t t := by
  induction t with
  | nil => exact .nil
  | cons c t ih =>
    obtain ⟨hquote, hcomma⟩ := h c List.mem_cons_self
    exact (Drops.char hquote hcomma).append (ih fun d hd => h d (List.mem_cons_of_mem _ hd))

theorem Drops.white (h : White t) : Drops t t := by
  refine .chars fun c hc => ⟨?_, ?_⟩
  all_goals
    rintro rfl
    cases h _ hc

theorem Drops.plain (h : ∀ c ∈ t, isPlain c) : Drops t t := by
  refine .chars fun c hc => ⟨?_, ?_⟩
  all_goals
    rintro rfl
    cases h _ hc

/-- The second pass finds the end of a literal where the first one does. -/
theorem removeTrailingCommas_quoted {body : List Char} (h : Quoted body) (rest : List Char) :
    removeTrailingCommas .inside (body ++ '"' :: rest) =
      body ++ '"' :: removeTrailingCommas .outside rest := by
  induction h with
  | nil => rfl
  | plain hquote hescape _ ih =>
    rw [List.cons_append, removeTrailingCommas_inside, InString.next, if_neg hescape,
      if_neg hquote, ih, List.cons_append]
  | escape _ ih =>
    rw [List.cons_append, List.cons_append, removeTrailingCommas_inside, InString.next, if_pos rfl,
      removeTrailingCommas_escaped, ih, List.cons_append, List.cons_append]

theorem Drops.literal {s : String} (h : Literal s t) : Drops t t := by
  obtain ⟨body, hbody, rfl⟩ := h
  intro rest
  rw [List.cons_append, List.cons_append, List.append_assoc, List.singleton_append,
    removeTrailingCommas_outside, if_pos rfl, removeTrailingCommas_quoted hbody.quoted]
  simp

/-! ### Commas -/

theorem find?_white {w rest : List Char} (h : White w) :
    (w ++ rest).find? (fun c => !Text.isWhitespace c) =
      rest.find? fun c => !Text.isWhitespace c := by
  rw [List.find?_append, List.find?_eq_none.mpr, Option.none_or]
  intro c hc
  simp [isWhitespace_of_isWhite (h c hc)]

theorem closes_bracket {w rest : List Char} {c : Char} (hw : White w) (hc : c = ']' ∨ c = '\x7d') :
    closes (w ++ c :: rest) := by
  unfold closes
  rw [find?_white hw]
  rcases hc with rfl | rfl <;> rfl

/-- Elements do not begin with a closing bracket. -/
theorem not_closes_elems {trail : Bool} {elems : List (Option String × Json)}
    (h : Written White trail (.elems elems) t) (rest : List Char) : closes (t ++ rest) = false := by
  have hopens {a t u : List Char} {e : Option String × Json} (ha : White a)
      (ht : Written White trail (.elem e.1 e.2) t) : closes (a ++ t ++ u) = false := by
    obtain ⟨c, t, rfl, hc⟩ := ht.opens trivial
    unfold closes
    rw [List.append_assoc, find?_white ha, List.cons_append, List.find?_cons]
    rcases hc with rfl | hc
    · rfl
    · simp only [isPlain, Bool.and_eq_true, bne_iff_ne, Bool.not_eq_true'] at hc
      simp [hc]
  cases h with
  | last ha h _ _ =>
    rw [List.append_assoc, List.append_assoc]
    exact hopens ha h
  | cons ha h _ _ =>
    rw [List.append_assoc, List.append_assoc]
    exact hopens ha h

/-- The second pass on a text of a node; elements stand before a closing bracket. -/
def DropsNode : Node → List Char → List Char → Prop
  | .elems _, t, t' => ∀ c rest, c = ']' ∨ c = '\x7d' →
      removeTrailingCommas .outside (t ++ c :: rest) =
        t' ++ removeTrailingCommas .outside (c :: rest)
  | .value _, t, t' => Drops t t'
  | .elem _ _, t, t' => Drops t t'

/-- The second pass takes a text with trailing commas to one without, and leaves one without as it
is. -/
theorem written_removeTrailingCommas {trail : Bool} {node : Node}
    (h : Written White trail node t) :
    ∃ t', Written White false node t' ∧ DropsNode node t t' ∧ (trail = false → t' = t) := by
  have hbracket {c : Char} (hc : isPlain c ∨ c = ']' ∨ c = '\x7d' ∨ c = ':') : Drops [c] [c] := by
    rcases hc with hc | rfl | rfl | rfl
    · exact .plain fun d hd => List.mem_singleton.mp hd ▸ hc
    all_goals exact .char (by decide) (by decide)
  induction h with
  | scalar h => exact ⟨_, .scalar h, .plain fun c hc => h.plain hc, fun _ => rfl⟩
  | string h => exact ⟨_, .string h, .literal h, fun _ => rfl⟩
  | empty hc hw =>
    exact ⟨_, .empty hc hw, ((hbracket (.inl hc.brackets.1)).append (.white hw)).append
      (hbracket (.inr (hc.brackets.2.imp_right .inl))), fun _ => rfl⟩
  | @full v o c elems t hc _ ih =>
    obtain ⟨t', ht', hdrops, hsame⟩ := ih
    refine ⟨_, .full hc ht', fun rest => ?_, fun he => by rw [hsame he]⟩
    have hopen := hbracket (.inl hc.brackets.1)
    have hclose := hbracket (.inr (hc.brackets.2.imp_right .inl)) rest
    have hsplit : o :: t ++ [c] ++ rest = [o] ++ (t ++ c :: rest) := by simp
    rw [hsplit, hopen, hdrops _ _ hc.brackets.2]
    simpa using hclose
  | item _ ih =>
    obtain ⟨t', ht', hdrops, hsame⟩ := ih
    exact ⟨t', .item ht', hdrops, hsame⟩
  | member hkey ha hb _ ih =>
    obtain ⟨t', ht', hdrops, hsame⟩ := ih
    exact ⟨_, .member hkey ha hb ht', (((Drops.literal hkey).append (.white ha)).append
      ((hbracket (.inr (by decide))).append (.white hb))).append hdrops,
      fun he => by rw [hsame he]⟩
  | @last e a t b c ha _ hb hc ih =>
    obtain ⟨t', ht', hdrops, hsame⟩ := ih
    have hkept : Drops (a ++ t ++ b) (a ++ t' ++ b) :=
      ((Drops.white ha).append hdrops).append (.white hb)
    rcases hc with rfl | ⟨rfl, w, hw, rfl⟩
    · refine ⟨_, .last ha ht' hb (.inl rfl), fun d rest hd => ?_, fun he => by rw [hsame he]⟩
      simpa using hkept (d :: rest)
    · -- the comma goes, and the gap behind it joins the one before
      refine ⟨_, .last ha ht' (hb.append hw) (.inl rfl), fun d rest hd => ?_, fun he => by cases he⟩
      have hdropped : removeTrailingCommas .outside (',' :: w ++ d :: rest) =
          w ++ removeTrailingCommas .outside (d :: rest) := by
        rw [List.cons_append, removeTrailingCommas_outside, if_neg (by decide),
          if_pos ⟨rfl, closes_bracket hw hd⟩, Drops.white hw]
      rw [List.append_assoc _ _ (d :: rest), hkept, hdropped]
      simp
  | @cons e e' es a t b ts ha _ hb hs ih ihs =>
    obtain ⟨t', ht', hdrops, hsame⟩ := ih
    obtain ⟨ts', hts', hdropss, hsames⟩ := ihs
    refine ⟨_, .cons ha ht' hb hts', fun d rest hd => ?_,
      fun he => by rw [hsame he, hsames he]⟩
    have hkept : Drops (a ++ t ++ b) (a ++ t' ++ b) :=
      ((Drops.white ha).append hdrops).append (.white hb)
    have hcomma : removeTrailingCommas .outside (',' :: ts ++ d :: rest) =
        ',' :: removeTrailingCommas .outside (ts ++ d :: rest) := by
      have hopen : closes (ts ++ d :: rest) = false := not_closes_elems hs _
      rw [List.cons_append, removeTrailingCommas_outside, if_neg (by decide), if_neg (by simp [hopen])]
    rw [List.append_assoc _ _ (d :: rest), hkept, hcomma, hdropss d rest hd]
    simp

end Commas

/-! ## Relaxed documents -/

/-- A final line comment is dropped. -/
theorem FinalGap.strips {w : List Char} (h : FinalGap w) :
    ∃ w', White w' ∧ stripComments (.text .outside) w = w' := by
  obtain ⟨w, final, hw, rfl, hfinal⟩ := h
  obtain ⟨w', hw', hstrips⟩ := hw.strips
  have hnil : stripComments (.text .outside) final = [] := by
    rcases hfinal with rfl | ⟨body, hbody, rfl | rfl⟩
    · rfl
    · rw [stripComments_outside (by rintro _ ⟨⟩), if_neg (by decide), if_pos (.inl rfl),
        stripComments_line_nil hbody]
    · rw [stripComments_outside (by rintro _ - ⟨⟩), if_neg (by decide),
        if_pos (.inr ⟨rfl, rfl⟩), stripComments_inLine, if_neg (by decide),
        stripComments_line_nil hbody]
  exact ⟨w', hw', by rw [hstrips, hnil, List.append_nil]⟩

/-- The passes take a relaxed text of a value to a strict one. -/
theorem document_stripJsonc {v : Json} {text : List Char} (h : Document Gap FinalGap true v text) :
    Document White White false v (stripJsonc (String.ofList text)).toList := by
  obtain ⟨a, t, b, ha, ht, hb, rfl⟩ := h
  obtain ⟨a', ha', hstripsa⟩ := ha.strips
  obtain ⟨t', ht', hstrips⟩ := written_stripComments ht
  obtain ⟨b', hb', hstripsb⟩ := hb.strips
  obtain ⟨t'', ht'', hdrops, -⟩ := written_removeTrailingCommas ht'
  refine ⟨a', t'', b', ha', ht'', hb', ?_⟩
  have hkept : Drops (a' ++ t') (a' ++ t'') := (Drops.white ha').append hdrops
  have hb'' := Drops.white hb' []
  rw [List.append_nil, removeTrailingCommas_nil] at hb''
  rw [stripJsonc, String.toList_ofList, String.toList_ofList, hstripsa.append hstrips, hstripsb,
    hkept, hb'', List.append_nil]

/-- The passes leave a text without comments and trailing commas as it is. -/
theorem stripJsonc_written {v : Json} {text : List Char}
    (h : Written White false (.value v) text) :
    stripJsonc (String.ofList text) = String.ofList text := by
  obtain ⟨t', -, hdrops, hsame⟩ := written_removeTrailingCommas h
  have hstrips := Strips.written h []
  have hkept := hdrops []
  rw [hsame rfl] at hkept
  rw [List.append_nil, stripComments_nil, List.append_nil] at hstrips
  rw [List.append_nil, removeTrailingCommas_nil, List.append_nil] at hkept
  rw [stripJsonc, String.toList_ofList, hstrips, hkept]

/-- A relaxed text of a value is parsed as the value, when the parser reads the strict texts of
the value as the value. -/
theorem parsePlugInfo_document {fromStr : String → Option Json} {v : Json}
    (hread : ∀ text, Document White White false v text → fromStr (String.ofList text) = some v)
    {text : List Char} (h : Document Gap FinalGap true v text) :
    parsePlugInfo fromStr (String.ofList text) = some v := by
  rw [parsePlugInfo, ← String.ofList_toList (s := stripJsonc (String.ofList text))]
  exact hread _ (document_stripJsonc h)

namespace PlugInfo.Sample

def value : Json := .obj [("a", .arr [.str "#,]"])]

/-- A text of the value with comments and trailing commas. -/
def text : List Char := "# x\n\x7b\"a\": [\"#,]\",/* y */],\x7d// z".toList

/-- A parser that reads the strict texts of the value. -/
noncomputable def fromStr (src : String) : Option Json :=
  open Classical in if Document White White false value src.toList then some value else none

theorem body_plain {s : List Char}
    (h : s.all fun c => c != '"' && c != '\\' && decide (0x20 ≤ c.toNat)) : Body s s := by
  induction s with
  | nil => exact .nil
  | cons c t ih =>
    simp only [List.all_cons, Bool.and_eq_true, bne_iff_ne, decide_eq_true_eq] at h
    exact .plain h.1.1.1 h.1.1.2 h.1.2 (ih (by simpa using h.2))

theorem literal_plain {s : String}
    (h : s.toList.all fun c => c != '"' && c != '\\' && decide (0x20 ≤ c.toNat)) :
    Literal s ('"' :: s.toList ++ ['"']) :=
  ⟨s.toList, body_plain h, rfl⟩

theorem document_text : Document Gap FinalGap true value text := by
  have hspace : Gap [' '] := .white rfl .nil
  have hcomment : Gap ('/' :: '*' :: [' ', 'y', ' '] ++ ['*', '/']) := .block (by decide) .nil
  have hbanner : Gap ('#' :: [' ', 'x'] ++ ['\n']) := .hash (by decide) .nil
  have hitem : Written Gap true (.elem none (.str "#,]")) _ :=
    .item (.string (literal_plain (by decide)))
  have harr : Written Gap true (.value (.arr [.str "#,]"])) _ :=
    .full (.arr _) (.last (e := (none, .str "#,]")) .nil hitem .nil
      (.inr ⟨rfl, _, hcomment, rfl⟩))
  have hmember : Written Gap true (.elem (some "a") (.arr [.str "#,]"])) _ :=
    .member (literal_plain (by decide)) .nil hspace harr
  have hobj : Written Gap true (.value value) _ :=
    .full (.obj (.refl _)) (.last (e := (some "a", .arr [.str "#,]"])) .nil hmember .nil
      (.inr ⟨rfl, [], .nil, rfl⟩))
  have hfinal : FinalGap ('/' :: '/' :: [' ', 'z']) :=
    ⟨[], _, .nil, rfl, .inr ⟨[' ', 'z'], by decide, .inr rfl⟩⟩
  exact ⟨_, _, _, hbanner, hobj, hfinal, by decide⟩

end PlugInfo.Sample

open PlugInfo.Sample in
theorem parsePlugInfo_document_sample :
    parsePlugInfo fromStr (String.ofList text) = some value := by
  refine parsePlugInfo_document (fun strict h => ?_) document_text
  rw [fromStr, String.toList_ofList, if_pos h]

end OpenStrata.Plugin
