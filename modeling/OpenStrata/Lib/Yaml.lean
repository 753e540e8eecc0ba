import Mathlib.Data.List.DropRight
import Mathlib.Data.List.TakeWhile

/-!
# Block mappings in YAML

The part of YAML 1.2 that a block mapping of scalars needs, read line by line: plain and
double-quoted scalars of one line, literal block scalars, flow sequences of double-quoted scalars
and comments. Escapes, nested collections, anchors, tags and scalars of several lines are not
read.

## Main definitions

* `isPlain`, `readPlain`: plain scalars
* `readQuoted`, `readFlow`: double-quoted scalars and flow sequences of them
* `readBlock`: literal block scalars
* `readMapping`, `readItem`: block mappings, as such and as the item of a sequence

## Main results

* `readPlain_eq_self`: a scalar is read back when it is plain
* `readBlock_indent`, `aligned_of_readBlock`: which scripts an indented block gives back
* `readMapping_field`, `readMapping_stop`: a mapping is read field by field
-/

namespace Yaml

abbrev Line := List Char

/-- `nb-char`: a printable character that is neither a line break nor a byte order mark. -/
def isContentChar (c : Char) : Bool :=
  c.toNat == 0x9 || (0x20 ≤ c.toNat && c.toNat ≤ 0x7e) || c.toNat == 0x85 ||
    (0xa0 ≤ c.toNat && c.toNat ≤ 0xfffd && c.toNat != 0xfeff) || 0x10000 ≤ c.toNat

def isWhite (c : Char) : Bool := c == ' ' || c == '\t'

def isBreak (c : Char) : Bool := c == '\n'

/-- The lines of a text. A carriage return is left in its line, where it is no content. -/
def lines (s : List Char) : List Line := s.splitOnP isBreak

def indentation (l : Line) : Nat := (l.takeWhile (· == ' ')).length

def isBlank (l : Line) : Bool := l.all (· == ' ')

/-- A line of white space, a comment or both. -/
def isSeparation (l : Line) : Bool :=
  match l.dropWhile isWhite with
  | [] => true
  | c :: comment => c == '#' && comment.all isContentChar

/-- What may follow a node on its line: a comment stands apart from the node. -/
def isTrailing (l : Line) : Bool := l.head?.all isWhite && isSeparation l

def skip (ls : List Line) : List Line := ls.dropWhile isSeparation

/-! ## Plain scalars -/

/-- `c-indicator`: characters with a meaning of their own at the head of a node. -/
def isIndicator (c : Char) : Bool := "-?:,[]\x7b\x7d#&*!|>'\"%@`".toList.contains c

/-- `ns-plain-first`: no indicator, except one of `?`, `:` and `-` with the scalar going on. -/
def startsPlain : Line → Bool
  | [] => false
  | [c] => !isWhite c && !isIndicator c
  | c :: next :: _ =>
    !isWhite c && (!isIndicator c || ((c == '?' || c == ':' || c == '-') && !isWhite next))

/-- Where the line's comment starts, read after white space or not. -/
def cutComment : Bool → Line → Line
  | _, [] => []
  | afterWhite, c :: rest =>
    if afterWhite && c == '#' then [] else c :: cutComment (isWhite c) rest

/-- No mark of a mapping value inside: no `:` before white space or at the end. -/
def keepsColons : Line → Bool
  | [] => true
  | [c] => c != ':'
  | c :: next :: rest => !(c == ':' && isWhite next) && keepsColons (next :: rest)

/-- A plain scalar of one line in a block collection. -/
def isPlain (v : Line) : Bool :=
  startsPlain v && v.all isContentChar && keepsColons v && cutComment true v == v &&
    !v.getLast?.any isWhite

/-- A plain scalar with what may surround it on its line; without one the node is empty. -/
def readPlain (text : Line) : Option Line :=
  let v := (cutComment true (text.dropWhile isWhite)).rdropWhile isWhite
  if text.all isContentChar && (v.isEmpty || isPlain v) then some v else none

/-! ## Quoted scalars -/

/-- A double-quoted scalar without escapes, after its opening quote, and what follows it. -/
def readQuoted (text : Line) : Option (Line × Line) :=
  match text.dropWhile (· != '"') with
  | [] => none
  | _ :: after =>
    let v := text.takeWhile (· != '"')
    if v.all isContentChar && !v.contains '\\' then some (v, after) else none

/-- A flow sequence of double-quoted scalars, after its opening bracket. Every scalar takes two
quotes; `fuel` bounds their number. -/
def readFlow : Nat → Line → Option (List Line × Line)
  | 0, _ => none
  | fuel + 1, text =>
    match text.dropWhile isWhite with
    | ']' :: after => some ([], after)
    | '"' :: scalar =>
      (readQuoted scalar).bind fun (v, after) =>
        match after.dropWhile isWhite with
        | ',' :: more => (readFlow fuel more).map fun (vs, after) => (v :: vs, after)
        | ']' :: after => some ([v], after)
        | _ => none
    | _ => none

/-! ## Literal block scalars -/

/-- The text of lines, each ended by a line break. -/
def literal (ls : List Line) : List Char := (ls.map (· ++ ['\n'])).flatten

/-- The clip chomping: one final line break is kept. -/
def clip (s : List Char) : List Char :=
  let v := s.rdropWhile isBreak
  if v.isEmpty then [] else v ++ ['\n']

/-- Lines indented by `k`; empty lines stay empty. -/
def indentLine (k : Nat) (l : Line) : Line :=
  if l.isEmpty then [] else List.replicate k ' ' ++ l

/-- A text whose first line that is not empty does not start with a space. -/
def isAligned (s : List Char) : Bool := (s.dropWhile isBreak).head? != some ' '

/-- A literal block scalar below a node at the indentation `parent`. The first line that is not
blank gives the indentation of the content; a blank line above it must not be longer. -/
def readBlock (parent : Nat) (ls : List Line) : Option (List Char × List Line) :=
  match ls.dropWhile isBlank with
  | [] => some ([], [])
  | first :: rest =>
    let n := indentation first
    if n ≤ parent then some ([], first :: rest)
    else
      let inBlock := fun l => isBlank l || n ≤ indentation l
      let content := ls.takeWhile inBlock
      if (ls.takeWhile isBlank).all (·.length ≤ n) && content.all (·.all isContentChar) then
        some (clip (literal (content.map (·.drop n))), ls.dropWhile inBlock)
      else none

/-! ## Mappings -/

/-- A node that is the value of a key. -/
inductive Node
  | plain (s : Line)
  | quoted (s : Line)
  | block (s : List Char)
  | sequence (ss : List Line)
  deriving DecidableEq, Repr

def isKeyChar (c : Char) : Bool := c.isAlphanum || c == '_' || c == '-'

/-- A key: a word. -/
def isKey (key : Line) : Bool := key.head?.any Char.isAlpha && key.all isKeyChar

/-- A key and the text after its colon. -/
def readKey (l : Line) : Option (Line × Line) :=
  match l.dropWhile isKeyChar with
  | ':' :: text =>
    if isKey (l.takeWhile isKeyChar) && text.head?.all isWhite then
      some (l.takeWhile isKeyChar, text)
    else none
  | _ => none

/-- The value of a key at the indentation `n`: what stands on the line of the key and, for a block
scalar, the lines below. -/
def readValue (n : Nat) (text : Line) (rest : List Line) : Option (Node × List Line) :=
  match text.dropWhile isWhite with
  | '|' :: after =>
    if isTrailing after then (readBlock n rest).map fun (s, rest) => (.block s, rest) else none
  | '"' :: scalar =>
    (readQuoted scalar).bind fun (v, after) =>
      if isTrailing after then some (.quoted v, rest) else none
  | '[' :: flow =>
    (readFlow flow.length flow).bind fun (vs, after) =>
      if isTrailing after then some (.sequence vs, rest) else none
  | scalar => (readPlain scalar).map fun v => (.plain v, rest)

/-- The fields of a block mapping at the indentation `n`, and the lines after it. Every field
takes a line; `fuel` bounds their number. -/
def readMapping : Nat → Nat → List Line → Option (List (Line × Node) × List Line)
  | 0, _, _ => none
  | fuel + 1, n, ls =>
    match skip ls with
    | [] => some ([], [])
    | l :: rest =>
      if indentation l < n then some ([], l :: rest)
      else if n < indentation l then none
      else
        (readKey (l.drop n)).bind fun (key, text) =>
          (readValue n text rest).bind fun (node, rest) =>
            (readMapping fuel n rest).map fun (fields, rest) => ((key, node) :: fields, rest)

/-- An item at the indentation `n` of a block sequence that is a mapping with pairwise distinct
keys. -/
def readItem (n : Nat) : List Line → Option (List (Line × Node) × List Line)
  | [] => none
  | l :: rest =>
    let marker := List.replicate n ' ' ++ ['-', ' ']
    if marker.isPrefixOf l then
      (readMapping (rest.length + 2) (n + 2)
        ((List.replicate (n + 2) ' ' ++ l.drop (n + 2)) :: rest)).filter fun (fields, _) =>
          (fields.map Prod.fst).Nodup
    else none

/-! ## Lines -/

section Lines

variable {l : Line} {ls : List Line} {s : List Char}

theorem lines_append_break (h : ∀ c ∈ l, isBreak c = false) :
    lines (l ++ '\n' :: s) = l :: lines s :=
  List.splitOnP_append_cons_of_forall_mem h '\n' rfl s

/-- What has no line break stands at the head of the first line. -/
theorem lines_append {t : List Char} (h : ∀ c ∈ s, isBreak c = false) :
    ∃ l rest, lines (s ++ t) = (s ++ l) :: rest := by
  induction s with
  | nil => exact List.exists_cons_of_ne_nil (List.splitOnP_ne_nil isBreak t)
  | cons c s ih =>
    obtain ⟨l, rest, hlines⟩ := ih fun c hc => h c (List.mem_cons_of_mem _ hc)
    refine ⟨l, rest, ?_⟩
    have hc : isBreak c = false := h c List.mem_cons_self
    rw [lines] at hlines ⊢
    rw [List.cons_append, List.splitOnP_cons_eq_if_modifyHead, hc, hlines]
    rfl

theorem literal_cons : literal (l :: ls) = l ++ '\n' :: literal ls := by
  simp [literal]

theorem literal_append (ls' : List Line) : literal (ls ++ ls') = literal ls ++ literal ls' := by
  simp [literal]

theorem lines_literal_append (h : ∀ l ∈ ls, ∀ c ∈ l, isBreak c = false) :
    lines (literal ls ++ s) = ls ++ lines s := by
  induction ls with
  | nil => rfl
  | cons l ls ih =>
    rw [literal_cons, List.append_assoc, List.cons_append,
      lines_append_break (h l List.mem_cons_self), ih fun l hl => h l (List.mem_cons_of_mem _ hl),
      List.cons_append]

theorem literal_lines (s : List Char) : literal (lines s) = s ++ ['\n'] := by
  induction s with
  | nil => rfl
  | cons c s ih =>
    obtain ⟨l, rest, hlines⟩ := List.exists_cons_of_ne_nil (List.splitOnP_ne_nil isBreak s)
    rw [lines, hlines, literal_cons] at ih
    rw [lines, List.splitOnP_cons_eq_if_modifyHead]
    by_cases hc : isBreak c
    · have : c = '\n' := by simpa [isBreak] using hc
      rw [if_pos hc, hlines, literal_cons, literal_cons, ih, this]
      rfl
    · rw [if_neg hc, hlines, List.modifyHead_cons, literal_cons, List.cons_append, ih]
      rfl

theorem lines_append_cons (t : List Char) : lines (s ++ '\n' :: t) = lines s ++ lines t :=
  List.splitOnP_append_cons s t rfl

theorem mem_literal {c : Char} (h : c ∈ literal ls) : c = '\n' ∨ ∃ l ∈ ls, c ∈ l := by
  simp only [literal, List.mem_flatten, List.mem_map] at h
  obtain ⟨_, ⟨l, hl, rfl⟩, hc⟩ := h
  rcases List.mem_append.mp hc with hc | hc
  · exact .inr ⟨l, hl, hc⟩
  · exact .inl (List.mem_singleton.mp hc)

end Lines

/-! ## Trailing characters -/

section Trailing

variable {p : Char → Bool} {s t : List Char} {c : Char}

theorem rdropWhile_append_cons (h : p c = false) :
    (s ++ c :: t).rdropWhile p = s ++ c :: t.rdropWhile p := by
  rw [List.rdropWhile, List.rdropWhile, List.reverse_append, List.reverse_cons, List.append_assoc,
    List.dropWhile_append]
  split
  · next hnil => simp [List.isEmpty_iff.mp hnil, h]
  · simp

/-- Dropping at one end leaves the head at the other end. -/
theorem head?_dropWhile_rdropWhile :
    ((s.rdropWhile p).dropWhile p).head? = (s.dropWhile p).head? := by
  by_cases h : ∀ c ∈ s, p c
  · rw [List.rdropWhile_eq_nil_iff.mpr h, List.dropWhile_eq_nil_iff.mpr h, List.dropWhile_nil]
  · cases hs : s.dropWhile p with
    | nil => exact absurd (List.dropWhile_eq_nil_iff.mp hs) h
    | cons c t =>
      have hc : p c = false := by
        have := List.head?_dropWhile_not p s
        simpa [hs] using this
      have hsplit : s = s.takeWhile p ++ c :: t := by rw [← hs, List.takeWhile_append_dropWhile]
      rw [hsplit, rdropWhile_append_cons hc,
        List.dropWhile_append_of_pos fun a ha => List.mem_takeWhile_imp ha]
      simp [hc]

theorem rdropWhile_append_of_all (h : ∀ c ∈ t, p c) :
    (s ++ t).rdropWhile p = s.rdropWhile p := by
  rw [List.rdropWhile, List.rdropWhile, List.reverse_append,
    List.dropWhile_append_of_pos fun a ha => h a (List.mem_reverse.mp ha)]

theorem rdropWhile_clip : (clip s).rdropWhile isBreak = s.rdropWhile isBreak := by
  dsimp only [clip]
  split
  · next h => rw [List.isEmpty_iff.mp h, List.rdropWhile_nil]
  · rw [rdropWhile_append_of_all (by simp [isBreak]), List.rdropWhile_idempotent]

theorem mem_clip (h : c ∈ clip s) : c = '\n' ∨ c ∈ s := by
  dsimp only [clip] at h
  split at h
  · cases h
  · rcases List.mem_append.mp h with h | h
    · exact .inr ((List.rdropWhile_prefix _ _).subset h)
    · exact .inl (List.mem_singleton.mp h)

end Trailing

/-! ## Reading plain scalars -/

section Plain

variable {v : Line}

theorem dropWhile_of_startsPlain (h : startsPlain v) : v.dropWhile isWhite = v := by
  match v, h with
  | [c], h => simp_all [startsPlain]
  | c :: next :: rest, h => simp_all [startsPlain]

theorem content_of_isPlain (h : isPlain v) : v.all isContentChar := by
  simp only [isPlain, Bool.and_eq_true] at h
  exact h.1.1.1.2

/-- What stands where a plain scalar is read is read back when it is one, or is empty. -/
theorem readPlain_eq_self : readPlain v = some v ↔ v = [] ∨ isPlain v := by
  constructor
  · intro h
    dsimp only [readPlain] at h
    split_ifs at h with hread
    have hv := Option.some.inj h
    rw [hv, Bool.and_eq_true, Bool.or_eq_true] at hread
    exact hread.2.imp List.isEmpty_iff.mp id
  · rintro (rfl | h)
    · rfl
    · have hplain := h
      simp only [isPlain, Bool.and_eq_true, beq_iff_eq, Bool.not_eq_true'] at h
      obtain ⟨⟨⟨⟨hstart, hcontent⟩, -⟩, hcomment⟩, hlast⟩ := h
      have hend : v.rdropWhile isWhite = v := by
        refine List.rdropWhile_eq_self_iff.mpr fun hne => ?_
        rw [List.getLast?_eq_some_getLast hne] at hlast
        simpa using hlast
      rw [readPlain, dropWhile_of_startsPlain hstart, hcomment, hend, hplain, hcontent]
      simp

theorem isPrefix_cutComment (afterWhite : Bool) (v : Line) : cutComment afterWhite v <+: v := by
  induction v generalizing afterWhite with
  | nil => exact List.nil_prefix
  | cons c v ih =>
    rw [cutComment]
    split
    · exact List.nil_prefix
    · exact List.prefix_cons_inj c |>.mpr (ih _)

theorem cutComment_of_not_mem (h : '#' ∉ v) (afterWhite : Bool) : cutComment afterWhite v = v := by
  induction v generalizing afterWhite with
  | nil => rfl
  | cons c v ih =>
    rw [List.mem_cons, not_or] at h
    rw [cutComment, if_neg (by simp [Ne.symm h.1]), ih h.2]

theorem keepsColons_of_word (h : ∀ c ∈ v, isWhite c = false) (hlast : v.getLast? ≠ some ':') :
    keepsColons v := by
  induction v with
  | nil => rfl
  | cons c v ih =>
    cases v with
    | nil => simpa [keepsColons] using hlast
    | cons next v =>
      rw [keepsColons, h next (by simp), Bool.and_false, Bool.not_false, Bool.true_and]
      refine ih (fun c hc => h c (List.mem_cons_of_mem _ hc)) ?_
      rwa [List.getLast?_cons_cons] at hlast

/-- A word that starts with no indicator and does not end in a colon is a plain scalar. -/
theorem isPlain_word {c : Char} {rest : Line} (hv : v = c :: rest) (hhead : isIndicator c = false)
    (hchars : ∀ c ∈ v, isContentChar c ∧ isWhite c = false ∧ c ≠ '#')
    (hlast : v.getLast? ≠ some ':') : isPlain v := by
  have hwhite : ∀ c ∈ v, isWhite c = false := fun c hc => (hchars c hc).2.1
  have hmark : '#' ∉ v := fun h => (hchars _ h).2.2 rfl
  have hstart : startsPlain v := by
    have hc : isWhite c = false := hwhite c (by simp [hv])
    rw [hv]
    cases rest <;> simp [startsPlain, hc, hhead]
  have hend : v.getLast?.any isWhite = false := by
    cases hl : v.getLast? with
    | none => rfl
    | some c => exact hwhite c (List.mem_of_getLast? hl)
  rw [isPlain, hstart, List.all_eq_true.mpr fun c hc => (hchars c hc).1,
    keepsColons_of_word hwhite hlast, cutComment_of_not_mem hmark, hend]
  simp

/-- What is read is empty or a plain scalar, and stands in the text. -/
theorem readPlain_some {text : Line} (h : readPlain text = some v) :
    v = (cutComment true (text.dropWhile isWhite)).rdropWhile isWhite ∧ (v = [] ∨ isPlain v) := by
  dsimp only [readPlain] at h
  split_ifs at h with hread
  obtain rfl := Option.some.inj h
  exact ⟨rfl, ((Bool.or_eq_true _ _).mp ((Bool.and_eq_true _ _).mp hread).2).imp List.isEmpty_iff.mp
    id⟩

theorem subset_of_readPlain {text : Line} (h : readPlain text = some v) : v ⊆ text := by
  obtain ⟨rfl, -⟩ := readPlain_some h
  intro c hc
  have hcut := (List.rdropWhile_prefix _ _).subset hc
  exact List.dropWhile_subset _ ((isPrefix_cutComment _ _).subset hcut)

/-- A word without blanks and comment marks is read whole. -/
theorem eq_of_readPlain {text : Line} (h : readPlain text = some v)
    (htext : ∀ c ∈ text, isWhite c = false ∧ c ≠ '#') : v = text := by
  have hmark : '#' ∉ text := fun hmem => (htext _ hmem).2 rfl
  have hdrop : text.dropWhile isWhite = text := by
    cases text with
    | nil => rfl
    | cons c text => exact List.dropWhile_cons_of_neg (by simp [(htext c List.mem_cons_self).1])
  have hend : text.rdropWhile isWhite = text := by
    refine List.rdropWhile_eq_self_iff.mpr fun hne => ?_
    simp [(htext _ (List.getLast_mem hne)).1]
  rw [(readPlain_some h).1, hdrop, cutComment_of_not_mem hmark, hend]

end Plain

/-! ## Reading block scalars -/

section Block

variable {n k : Nat} {l : Line} {ls rest : List Line} {s : List Char} {c : Char}

/-- Lines at which a node that is indented by `n` ends: there are none left, or the next one is
neither indented as much nor a separation. -/
def Ends (n : Nat) (ls : List Line) : Prop :=
  ls = [[]] ∨ ∃ l rest, ls = l :: rest ∧ indentation l < n ∧ isSeparation l = false

theorem not_isBreak (h : isContentChar c) : isBreak c = false := by
  by_contra hc
  have : c = '\n' := by simpa [isBreak] using hc
  subst this
  exact absurd h (by decide)

theorem indentation_replicate : indentation (List.replicate k ' ' ++ l) = k + indentation l := by
  rw [indentation, List.takeWhile_append_of_pos (by simp), List.length_append,
    List.length_replicate, indentation]

theorem indentation_cons (h : c ≠ ' ') : indentation (c :: l) = 0 := by
  simp [indentation, h]

/-- The first line of a text that starts with an indented character. -/
theorem lines_head (hbreak : isBreak c = false) :
    ∃ l rest, lines (List.replicate k ' ' ++ c :: s) = (List.replicate k ' ' ++ c :: l) :: rest := by
  have hhead : ∀ d ∈ List.replicate k ' ' ++ [c], isBreak d = false := by
    intro d hd
    rcases List.mem_append.mp hd with hd | hd
    · rw [List.eq_of_mem_replicate hd]
      rfl
    · rw [List.mem_singleton.mp hd, hbreak]
  obtain ⟨l, rest, hlines⟩ := lines_append (t := s) hhead
  refine ⟨l, rest, ?_⟩
  simpa using hlines

/-- A text that starts with an indented character ends the nodes that are indented more. -/
theorem ends_of_head (hk : k < n) (hspace : c ≠ ' ') (htab : c ≠ '\t') (hmark : c ≠ '#')
    (hbreak : isBreak c = false) : Ends n (lines (List.replicate k ' ' ++ c :: s)) := by
  obtain ⟨l, rest, hlines⟩ := lines_head (k := k) (s := s) hbreak
  refine .inr ⟨_, rest, hlines, ?_, ?_⟩
  · rw [indentation_replicate, indentation_cons hspace]
    exact hk
  · rw [isSeparation, List.dropWhile_append_of_pos (by simp [isWhite]),
      List.dropWhile_cons_of_neg (by simp [isWhite, hspace, htab])]
    simp [hmark]

theorem isSeparation_of_isBlank (h : isBlank l) : isSeparation l := by
  have hwhite : l.dropWhile isWhite = [] := by
    refine List.dropWhile_eq_nil_iff.mpr fun c hc => ?_
    have := List.all_eq_true.mp h c hc
    simp_all [isWhite]
  rw [isSeparation, hwhite]

theorem replicate_indentation :
    List.replicate (indentation l) ' ' ++ l.drop (indentation l) = l := by
  induction l with
  | nil => rfl
  | cons a l ih =>
    by_cases ha : a = ' '
    · subst ha
      have : indentation (' ' :: l) = indentation l + 1 := by simp [indentation]
      rw [this, List.replicate_succ, List.cons_append, List.drop_succ_cons, ih]
    · rw [indentation_cons ha]
      rfl

theorem ne_space_of_drop {rest : Line} (h : l.drop (indentation l) = c :: rest) : c ≠ ' ' := by
  induction l with
  | nil => cases h
  | cons a l ih =>
    by_cases ha : a = ' '
    · subst ha
      have hindent : indentation (' ' :: l) = indentation l + 1 := by simp [indentation]
      rw [hindent, List.drop_succ_cons] at h
      exact ih h
    · rw [indentation_cons ha, List.drop_zero] at h
      cases h
      exact ha

/-- What is left after the indentation starts with another character than a space. -/
theorem drop_indentation (h : isBlank l = false) :
    ∃ c rest, l.drop (indentation l) = c :: rest ∧ c ≠ ' ' := by
  cases hdrop : l.drop (indentation l) with
  | nil =>
    have hl : l = List.replicate (indentation l) ' ' := by
      conv_lhs => rw [← replicate_indentation (l := l), hdrop, List.append_nil]
    rw [hl] at h
    simp [isBlank] at h
  | cons c rest => exact ⟨c, rest, rfl, ne_space_of_drop hdrop⟩

/-- Empty lines, and then the first line that is not empty. -/
theorem exists_first (h : ∃ l ∈ ls, l ≠ []) :
    ∃ j c l more, ls = List.replicate j [] ++ (c :: l) :: more := by
  induction ls with
  | nil => obtain ⟨_, hmem, _⟩ := h; cases hmem
  | cons first ls ih =>
    cases first with
    | cons c l => exact ⟨0, c, l, ls, rfl⟩
    | nil =>
      obtain ⟨l, hmem, hne⟩ := h
      obtain ⟨j, c, l, more, rfl⟩ := ih ⟨l, (List.mem_cons.mp hmem).resolve_left hne, hne⟩
      exact ⟨j + 1, c, l, more, rfl⟩

theorem literal_replicate (j : Nat) :
    literal (List.replicate j []) = List.replicate j '\n' := by
  induction j with
  | zero => rfl
  | succ j ih => rw [List.replicate_succ, literal_cons, ih]; rfl

theorem isAligned_first (hc : isBreak c = false) {j : Nat} {more : List Line} :
    isAligned (literal (List.replicate j [] ++ (c :: l) :: more)) = (c != ' ') := by
  rw [literal_append, literal_replicate, literal_cons, isAligned,
    List.dropWhile_append_of_pos (by simp [isBreak]), List.cons_append,
    List.dropWhile_cons_of_neg (by simp [hc]), List.head?_cons]
  rfl

theorem isAligned_rdropWhile : isAligned (s.rdropWhile isBreak) = isAligned s := by
  rw [isAligned, isAligned, head?_dropWhile_rdropWhile]

theorem isAligned_clip : isAligned (clip s) = isAligned s := by
  rw [← isAligned_rdropWhile, rdropWhile_clip, isAligned_rdropWhile]

theorem clip_append_break : clip (s ++ ['\n']) = clip s := by
  rw [clip, clip, rdropWhile_append_of_all (by simp [isBreak])]

theorem drop_indentLine : (indentLine k l).drop k = l := by
  cases l with
  | nil => simp [indentLine]
  | cons c l => exact List.drop_left' (List.length_replicate)

theorem not_isBreak_indentLine (h : ∀ c ∈ l, isBreak c = false) :
    ∀ c ∈ indentLine k l, isBreak c = false := by
  intro c hc
  rw [indentLine] at hc
  split at hc
  · cases hc
  · rcases List.mem_append.mp hc with hc | hc
    · rw [List.eq_of_mem_replicate hc]
      rfl
    · exact h c hc

/-- Where a node ends, no line belongs to a block of a larger indentation, but for an empty last
one. -/
theorem Ends.takeWhile (h : Ends n rest) (hk : n ≤ k) :
    (rest.takeWhile (fun l => isBlank l || k ≤ indentation l) = [] ∧
        rest.dropWhile (fun l => isBlank l || k ≤ indentation l) = rest) ∨
      (rest = [[]] ∧ rest.takeWhile (fun l => isBlank l || k ≤ indentation l) = [[]] ∧
        rest.dropWhile (fun l => isBlank l || k ≤ indentation l) = []) := by
  rcases h with rfl | ⟨l, rest, rfl, hn, hl⟩
  · exact .inr ⟨rfl, rfl, rfl⟩
  · have hblank : isBlank l = false := by
      by_contra h
      rw [isSeparation_of_isBlank (by simpa using h)] at hl
      cases hl
    have hout : (isBlank l || decide (k ≤ indentation l)) = false := by
      rw [hblank, Bool.false_or, decide_eq_false_iff_not]
      omega
    exact .inl ⟨List.takeWhile_cons_of_neg (by simp [hout]), List.dropWhile_cons_of_neg
      (by simp [hout])⟩

/-- An aligned text is read back from its indented lines. -/
theorem readBlock_indent (hk : n < k) (hne : ∃ l ∈ ls, l ≠ [])
    (hcontent : ∀ l ∈ ls, ∀ c ∈ l, isContentChar c) (haligned : isAligned (literal ls))
    (hends : Ends n rest) :
    ∃ rest', readBlock n (ls.map (indentLine k) ++ rest) = some (clip (literal ls), rest') ∧
      skip rest' = skip rest := by
  obtain ⟨j, c, l, more, rfl⟩ := exists_first hne
  have hc : isContentChar c := hcontent (c :: l) (by simp) c (by simp)
  have hspace : c ≠ ' ' := by
    rw [isAligned_first (not_isBreak hc)] at haligned
    simpa using haligned
  set ls := List.replicate j [] ++ (c :: l) :: more with hls
  have hmap : ls.map (indentLine k) ++ rest = List.replicate j [] ++
      (List.replicate k ' ' ++ c :: l) :: (more.map (indentLine k) ++ rest) := by
    simp [hls, indentLine]
  have hblank : isBlank (List.replicate k ' ' ++ c :: l) = false := by
    simp [isBlank, hspace]
  have hindent : indentation (List.replicate k ' ' ++ c :: l) = k := by
    rw [indentation_replicate, indentation_cons hspace, Nat.add_zero]
  have hdrop : (ls.map (indentLine k) ++ rest).dropWhile isBlank =
      (List.replicate k ' ' ++ c :: l) :: (more.map (indentLine k) ++ rest) := by
    rw [hmap, List.dropWhile_append_of_pos (by simp [isBlank]),
      List.dropWhile_cons_of_neg (by simp [hblank])]
  have htake : (ls.map (indentLine k) ++ rest).takeWhile isBlank = List.replicate j [] := by
    rw [hmap, List.takeWhile_append_of_pos (by simp [isBlank]),
      List.takeWhile_cons_of_neg (by simp [hblank]), List.append_nil]
  have hin : ∀ l ∈ ls.map (indentLine k), (isBlank l || decide (k ≤ indentation l)) = true := by
    intro l hl
    obtain ⟨l, -, rfl⟩ := List.mem_map.mp hl
    cases l with
    | nil => rfl
    | cons c l =>
      have : k ≤ indentation (indentLine k (c :: l)) := by
        rw [indentLine, if_neg (by simp), indentation_replicate]
        omega
      simp [this]
  have hall : ∀ l ∈ ls.map (indentLine k), l.all isContentChar := by
    intro l hl
    obtain ⟨l, hmem, rfl⟩ := List.mem_map.mp hl
    cases l with
    | nil => rfl
    | cons c l =>
      rw [indentLine, if_neg (by simp), List.all_append, Bool.and_eq_true]
      exact ⟨by simp [isContentChar], List.all_eq_true.mpr (hcontent _ hmem)⟩
  have hback : (ls.map (indentLine k)).map (·.drop k) = ls := by
    rw [List.map_map]
    exact (List.map_congr_left fun l _ => drop_indentLine).trans (List.map_id ls)
  have hpos : ¬ indentation (List.replicate k ' ' ++ c :: l) ≤ n := by omega
  have hfirst : (List.replicate j ([] : Line)).all (fun l => decide (l.length ≤ k)) = true := by
    simp
  rw [readBlock, hdrop]
  dsimp only
  rw [if_neg hpos, hindent, htake, List.takeWhile_append_of_pos hin, List.dropWhile_append_of_pos hin,
    hfirst, List.all_append, List.all_eq_true.mpr hall, List.map_append, hback, literal_append]
  rcases hends.takeWhile hk.le with ⟨htail, hrest⟩ | ⟨rfl, htail, hrest⟩
  · exact ⟨rest, by simp [htail, hrest, literal], rfl⟩
  · refine ⟨[], ?_, rfl⟩
    have hlast : literal (([[]] : List Line).map (·.drop k)) = ['\n'] := by simp [literal]
    rw [htail, hrest, hlast, clip_append_break]
    rfl

/-- Only aligned texts of content characters are read from a block. -/
theorem isAligned_of_readBlock (h : readBlock n ls = some (s, rest)) :
    isAligned s ∧ ∀ c ∈ s, c = '\n' ∨ isContentChar c := by
  unfold readBlock at h
  split at h
  · cases h
    exact ⟨rfl, by simp⟩
  · next first more hfirst =>
    dsimp only at h
    split_ifs at h with hn hread
    · cases h
      exact ⟨rfl, by simp⟩
    · cases h
      rw [Bool.and_eq_true] at hread
      obtain ⟨hblanks, hcontent⟩ := hread
      have hblank : isBlank first = false := by
        have := List.head?_dropWhile_not isBlank ls
        simpa [hfirst] using this
      obtain ⟨c, l, hdrop, hc⟩ := drop_indentation hblank
      set inBlock : Line → Bool := fun l => isBlank l || decide (indentation first ≤ indentation l)
      have hsplit : ls.takeWhile inBlock =
          ls.takeWhile isBlank ++ first :: more.takeWhile inBlock := by
        conv_lhs => rw [← List.takeWhile_append_dropWhile (p := isBlank) (l := ls), hfirst]
        rw [List.takeWhile_append_of_pos, List.takeWhile_cons_of_pos (by simp [inBlock])]
        intro l hl
        simp [inBlock, List.mem_takeWhile_imp hl]
      have hshort : (ls.takeWhile isBlank).map (·.drop (indentation first)) =
          List.replicate (ls.takeWhile isBlank).length [] := by
        refine List.eq_replicate_iff.mpr ⟨List.length_map .., fun l hl => ?_⟩
        obtain ⟨l, hmem, rfl⟩ := List.mem_map.mp hl
        exact List.drop_eq_nil_of_le (by simpa using List.all_eq_true.mp hblanks l hmem)
      have hchar : ∀ c ∈ literal ((ls.takeWhile inBlock).map (·.drop (indentation first))),
          c = '\n' ∨ isContentChar c := by
        intro c hc
        rcases mem_literal hc with rfl | ⟨l, hl, hc⟩
        · exact .inl rfl
        · obtain ⟨l, hmem, rfl⟩ := List.mem_map.mp hl
          have := List.all_eq_true.mp (List.all_eq_true.mp hcontent l hmem)
          exact .inr (this c (List.mem_of_mem_drop hc))
      refine ⟨?_, fun c hc => (mem_clip hc).elim .inl (hchar c)⟩
      have hbreak : isBreak c = false := by
        refine not_isBreak ?_
        have hmem : first ∈ ls.takeWhile inBlock := by simp [hsplit]
        have hin : c ∈ first := List.mem_of_mem_drop (by rw [hdrop]; simp)
        exact List.all_eq_true.mp (List.all_eq_true.mp hcontent first hmem) c hin
      rw [isAligned_clip, hsplit, List.map_append, List.map_cons, hshort, hdrop,
        isAligned_first hbreak]
      simpa using hc

/-- The next line stands at the indentation `n` or above, so that no node below it goes on. -/
def Blocks (n : Nat) (ls : List Line) : Prop :=
  ∃ l rest, ls = l :: rest ∧ isBlank l = false ∧ indentation l ≤ n

theorem blocks_of_head (hk : k ≤ n) (hspace : c ≠ ' ') (hbreak : isBreak c = false) :
    Blocks n (lines (List.replicate k ' ' ++ c :: s)) := by
  obtain ⟨l, rest, hlines⟩ := lines_head (k := k) (s := s) hbreak
  refine ⟨_, rest, hlines, by simp [isBlank, hspace], ?_⟩
  rw [indentation_replicate, indentation_cons hspace]
  exact hk

theorem readBlock_of_blocks (hblocks : Blocks n ls) (h : readBlock n ls = some (s, rest)) :
    s = [] := by
  obtain ⟨l, more, rfl, hblank, hindent⟩ := hblocks
  have hdrop : (l :: more).dropWhile isBlank = l :: more :=
    List.dropWhile_cons_of_neg (by simp [hblank])
  rw [readBlock, hdrop] at h
  dsimp only at h
  rw [if_pos hindent] at h
  cases h
  rfl

theorem length_literal_drop (k : Nat) (ls : List Line) :
    (literal (ls.map (·.drop k))).length ≤ (literal ls).length := by
  induction ls with
  | nil => exact Nat.le_refl _
  | cons l ls ih =>
    rw [List.map_cons, literal_cons, literal_cons, List.length_append, List.length_append,
      List.length_cons, List.length_cons, List.length_drop]
    omega

theorem length_clip_literal (ls : List Line) :
    (clip (literal ls)).length ≤ (literal ls).length := by
  induction ls using List.reverseRecOn with
  | nil => exact Nat.le_refl _
  | append_singleton ls l _ =>
    have hlast : literal (ls ++ [l]) = (literal ls ++ l) ++ ['\n'] := by simp [literal]
    rw [hlast, clip_append_break, List.length_append]
    dsimp only [clip]
    have := (List.rdropWhile_prefix isBreak (literal ls ++ l)).length_le
    split
    · exact Nat.zero_le _
    · rw [List.length_append]
      exact Nat.add_le_add_right this _

/-- A block that is cut off by a line of the surrounding node is no longer than its lines. -/
theorem length_readBlock {ls' : List Line} (hblocks : Blocks n ls')
    (h : readBlock n (ls ++ ls') = some (s, rest)) : s.length ≤ (literal ls).length := by
  obtain ⟨l, more, rfl, hblank, hindent⟩ := hblocks
  unfold readBlock at h
  split at h
  · cases h
    exact Nat.zero_le _
  · next first tail hfirst =>
    dsimp only at h
    split_ifs at h with hn
    · cases h
      exact Nat.zero_le _
    · cases h
      set inBlock : Line → Bool := fun l => isBlank l || decide (indentation first ≤ indentation l)
      have hout : inBlock l = false := by
        simp only [inBlock, hblank, Bool.false_or, decide_eq_false_iff_not]
        omega
      have htake : (ls ++ l :: more).takeWhile inBlock <+: ls := by
        rw [List.takeWhile_append]
        split
        · have hnone : ls ++ (l :: more).takeWhile inBlock = ls := by
            rw [List.takeWhile_cons_of_neg (by simp [hout]), List.append_nil]
          exact ⟨[], by rw [hnone, List.append_nil]⟩
        · exact List.takeWhile_prefix _
      obtain ⟨tail, htail⟩ := htake
      refine (length_clip_literal _).trans ((length_literal_drop _ _).trans ?_)
      conv_rhs => rw [← htail, literal_append, List.length_append]
      exact Nat.le_add_right _ _

end Block

/-! ## Reading values -/

section Value

variable {n : Nat} {v : Line} {vs : List Line} {rest : List Line} {after : Line}

/-- A text that can stand between double quotes as it is. -/
def isQuotable (v : Line) : Bool := v.all fun c => isContentChar c && c != '"' && c != '\\'

theorem isQuotable_iff : isQuotable v ↔ v.all isContentChar ∧ '"' ∉ v ∧ '\\' ∉ v := by
  simp only [isQuotable, List.all_eq_true, Bool.and_eq_true, bne_iff_ne]
  constructor
  · intro h
    exact ⟨fun c hc => (h c hc).1.1, fun hc => (h _ hc).1.2 rfl, fun hc => (h _ hc).2 rfl⟩
  · rintro ⟨hcontent, hquote, hslash⟩ c hc
    exact ⟨⟨hcontent c hc, fun h => hquote (h ▸ hc)⟩, fun h => hslash (h ▸ hc)⟩

theorem readQuoted_some {text : Line} (h : readQuoted text = some (v, after)) :
    v = text.takeWhile (· != '"') := by
  unfold readQuoted at h
  split at h
  · cases h
  · dsimp only at h
    split_ifs at h
    cases h
    rfl

theorem length_readQuoted {text : Line} (h : readQuoted text = some (v, after)) :
    v.length ≤ text.length := by
  rw [readQuoted_some h]
  exact (List.takeWhile_prefix _).length_le

theorem readQuoted_append (h : isQuotable v) : readQuoted (v ++ '"' :: after) = some (v, after) := by
  obtain ⟨hcontent, hquote, hslash⟩ := isQuotable_iff.mp h
  have hne : ∀ c ∈ v, (c != '"') = true := by
    intro c hc
    exact bne_iff_ne.mpr fun h => hquote (h ▸ hc)
  rw [readQuoted, List.dropWhile_append_of_pos hne, List.takeWhile_append_of_pos hne,
    List.dropWhile_cons_of_neg (by simp), List.takeWhile_cons_of_neg (by simp)]
  simp [hcontent, hslash]

/-- Double-quoted scalars, parted by commas. -/
def flow : List Line → Line
  | [] => []
  | [v] => '"' :: v ++ ['"']
  | v :: vs => '"' :: v ++ ['"', ',', ' '] ++ flow vs

theorem length_le_flow : 2 * vs.length ≤ (flow vs).length := by
  induction vs with
  | nil => exact Nat.le_refl 0
  | cons v vs ih =>
    cases vs with
    | nil => simp [flow]
    | cons w vs =>
      simp only [flow, List.length_append, List.length_cons, List.length_nil] at ih ⊢
      omega

theorem not_isBreak_of_quotable (h : isQuotable v) : ∀ c ∈ v, isBreak c = false :=
  fun c hc => not_isBreak (List.all_eq_true.mp (isQuotable_iff.mp h).1 c hc)

theorem not_isBreak_flow (h : ∀ v ∈ vs, isQuotable v) : ∀ c ∈ flow vs, isBreak c = false := by
  induction vs with
  | nil => exact fun c hc => by cases hc
  | cons v vs ih =>
    have hv := not_isBreak_of_quotable (h v List.mem_cons_self)
    have hmarks : ∀ c ∈ ['"', ',', ' '], isBreak c = false := by simp [isBreak]
    intro c hc
    cases vs with
    | nil =>
      simp only [flow, List.cons_append, List.mem_cons, List.mem_append, List.not_mem_nil,
        or_false] at hc
      rcases hc with hc | hc | hc
      · exact hmarks c (by simp [hc])
      · exact hv c hc
      · exact hmarks c (by simp [hc])
    | cons w vs =>
      have hflow : flow (v :: w :: vs) = '"' :: v ++ ['"', ',', ' '] ++ flow (w :: vs) := rfl
      rw [hflow, List.cons_append, List.cons_append, List.mem_cons, List.mem_append,
        List.mem_append] at hc
      rcases hc with hc | (hc | hc) | hc
      · exact hmarks c (by simp [hc])
      · exact hv c hc
      · exact hmarks c hc
      · exact ih (fun v hv => h v (List.mem_cons_of_mem _ hv)) c hc

theorem readFlow_flow (h : ∀ v ∈ vs, isQuotable v) {fuel : Nat} (hfuel : vs.length < fuel) :
    readFlow fuel (flow vs ++ ']' :: after) = some (vs, after) := by
  induction vs generalizing fuel with
  | nil =>
    obtain ⟨fuel, rfl⟩ : ∃ k, fuel = k + 1 := ⟨fuel - 1, by omega⟩
    rfl
  | cons v vs ih =>
    obtain ⟨fuel, rfl⟩ : ∃ k, fuel = k + 1 := ⟨fuel - 1, by omega⟩
    have hv : isQuotable v := h v List.mem_cons_self
    have hread : ∀ tail, readQuoted (v ++ '"' :: tail) = some (v, tail) :=
      fun tail => readQuoted_append hv
    cases vs with
    | nil => simp [flow, readFlow, hread, isWhite]
    | cons w vs =>
      have hrest : readFlow fuel (flow (w :: vs) ++ ']' :: after) = some (w :: vs, after) :=
        ih (fun v hv => h v (List.mem_cons_of_mem _ hv)) (by simp at hfuel ⊢; omega)
      have hspace : ∀ t, readFlow fuel (' ' :: t) = readFlow fuel t := by
        intro t
        cases fuel <;> simp [readFlow, isWhite]
      simp [flow, readFlow, hread, isWhite, hspace]
      simpa [flow] using hrest

theorem startsPlain_head {c : Char} (h : startsPlain (c :: v)) :
    isIndicator c = false ∨ c = '?' ∨ c = ':' ∨ c = '-' := by
  cases v with
  | nil => exact .inl (by simp_all [startsPlain])
  | cons next v =>
    simp only [startsPlain, Bool.and_eq_true, Bool.or_eq_true, Bool.not_eq_true', beq_iff_eq,
      or_assoc] at h
    exact h.2.imp id And.left

theorem readValue_plain (h : isPlain v) :
    readValue n (' ' :: v) rest = some (.plain v, rest) := by
  have hread := readPlain_eq_self.mpr (.inr h)
  simp only [isPlain, Bool.and_eq_true] at h
  obtain ⟨⟨⟨⟨hstart, -⟩, -⟩, -⟩, -⟩ := h
  have hdrop : (' ' :: v).dropWhile isWhite = v := by
    rw [List.dropWhile_cons_of_pos rfl, dropWhile_of_startsPlain hstart]
  unfold readValue
  split
  -- a node of another style would start with its indicator
  · next after heq =>
    rw [← hdrop, heq] at hstart
    exact absurd (startsPlain_head hstart) (by decide)
  · next after heq =>
    rw [← hdrop, heq] at hstart
    exact absurd (startsPlain_head hstart) (by decide)
  · next after heq =>
    rw [← hdrop, heq] at hstart
    exact absurd (startsPlain_head hstart) (by decide)
  · rw [hdrop, hread]
    rfl

theorem readValue_quoted (h : isQuotable v) :
    readValue n (' ' :: '"' :: v ++ ['"']) rest = some (.quoted v, rest) := by
  simp [readValue, isWhite, readQuoted_append h, isTrailing, isSeparation]

theorem readValue_sequence (h : ∀ v ∈ vs, isQuotable v) :
    readValue n (' ' :: '[' :: flow vs ++ [']']) rest = some (.sequence vs, rest) := by
  have hfuel : vs.length < (flow vs ++ [']']).length := by
    have : 2 * vs.length ≤ (flow vs).length := length_le_flow
    simp only [List.length_append, List.length_cons, List.length_nil]
    omega
  have hread : readFlow (flow vs ++ [']']).length (flow vs ++ [']']) = some (vs, []) :=
    readFlow_flow h hfuel
  have hdrop : (' ' :: '[' :: (flow vs ++ [']'])).dropWhile isWhite =
      '[' :: (flow vs ++ [']']) := by
    rw [List.dropWhile_cons_of_pos rfl, List.dropWhile_cons_of_neg (by decide)]
  rw [List.cons_append, List.cons_append, readValue, hdrop]
  show (readFlow (flow vs ++ [']']).length (flow vs ++ [']'])).bind _ = _
  rw [hread]
  rfl

end Value

/-! ## Reading mappings -/

section Mapping

variable {fuel n : Nat} {key text : Line} {rest : List Line}

/-- A field of a mapping at the indentation `n`. -/
def field (n : Nat) (key text : Line) : Line := List.replicate n ' ' ++ key ++ ':' :: ' ' :: text

theorem not_isBreak_field (hkey : ∀ c ∈ key, isBreak c = false)
    (htext : ∀ c ∈ text, isBreak c = false) : ∀ c ∈ field n key text, isBreak c = false := by
  intro c hc
  simp only [field, List.mem_append, List.mem_cons] at hc
  rcases hc with (hc | hc) | rfl | rfl | hc
  · rw [List.eq_of_mem_replicate hc]
    rfl
  · exact hkey c hc
  · rfl
  · rfl
  · exact htext c hc

theorem readKey_append (h : isKey key) :
    readKey (key ++ ':' :: ' ' :: text) = some (key, ' ' :: text) := by
  have hall := (Bool.and_eq_true _ _).mp h
  have hkey := List.all_eq_true.mp hall.2
  rw [readKey, List.dropWhile_append_of_pos hkey, List.takeWhile_append_of_pos hkey,
    List.dropWhile_cons_of_neg (by decide), List.takeWhile_cons_of_neg (by decide),
    List.append_nil]
  simp [h, isWhite]

theorem isKey_head (h : isKey key) : ∃ c k, key = c :: k ∧ c ≠ ' ' ∧ c ≠ '\t' ∧ c ≠ '#' := by
  cases key with
  | nil => exact absurd h (by decide)
  | cons c k =>
    have hc : c.isAlpha := ((Bool.and_eq_true _ _).mp h).1
    refine ⟨c, k, rfl, ?_, ?_, ?_⟩ <;> (rintro rfl; exact absurd hc (by decide))

theorem indentation_field (h : isKey key) : indentation (field n key text) = n := by
  obtain ⟨c, k, rfl, hc, -⟩ := isKey_head h
  rw [field, List.append_assoc, indentation_replicate, List.cons_append, indentation_cons hc,
    Nat.add_zero]

theorem isSeparation_field (h : isKey key) : isSeparation (field n key text) = false := by
  obtain ⟨c, k, rfl, hspace, htab, hmark⟩ := isKey_head h
  have hdrop : (field n (c :: k) text).dropWhile isWhite = (c :: k) ++ ':' :: ' ' :: text := by
    rw [field, List.append_assoc, List.dropWhile_append_of_pos (by simp [isWhite]),
      List.cons_append, List.dropWhile_cons_of_neg (by simp [isWhite, hspace, htab])]
  rw [isSeparation, hdrop]
  simp [hmark]

/-- A mapping is read field by field. -/
theorem readMapping_field (h : isKey key) :
    readMapping (fuel + 1) n (field n key text :: rest) =
      (readValue n (' ' :: text) rest).bind fun (node, rest) =>
        (readMapping fuel n rest).map fun (fields, rest) => ((key, node) :: fields, rest) := by
  have hskip : skip (field n key text :: rest) = field n key text :: rest :=
    List.dropWhile_cons_of_neg (by simp [isSeparation_field h])
  have hdrop : (field n key text).drop n = key ++ ':' :: ' ' :: text := by
    rw [field, List.append_assoc]
    exact List.drop_left' List.length_replicate
  simp only [readMapping, hskip, indentation_field h, lt_irrefl, if_false, hdrop, readKey_append h,
    Option.bind_some]

/-- A field in front of the fields of a mapping. -/
def consField (key : Line) (node : Node) (read : List (Line × Node) × List Line) :
    List (Line × Node) × List Line :=
  ((key, node) :: read.1, read.2)

theorem readMapping_field_some {node : Node} {rest' : List Line} (h : isKey key)
    (hvalue : readValue n (' ' :: text) rest = some (node, rest')) :
    readMapping (fuel + 1) n (field n key text :: rest) =
      (readMapping fuel n rest').map (consField key node) := by
  rw [readMapping_field h, hvalue]
  rfl

theorem skip_skip (ls : List Line) : skip (skip ls) = skip ls :=
  List.dropWhile_idempotent _ ls

/-- Separations before a field make no difference. -/
theorem readMapping_skip : readMapping fuel n (skip rest) = readMapping fuel n rest := by
  cases fuel with
  | zero => rfl
  | succ fuel => simp only [readMapping, skip_skip]

/-- A mapping ends where its node ends. -/
theorem readMapping_stop (h : Ends n rest) :
    readMapping (fuel + 1) n rest = some ([], skip rest) := by
  rcases h with rfl | ⟨l, rest, rfl, hindent, hl⟩
  · rfl
  · have hskip : skip (l :: rest) = l :: rest := List.dropWhile_cons_of_neg (by simp [hl])
    simp only [readMapping, hskip, if_pos hindent]

/-- The item of a sequence is a mapping below its marker. -/
theorem readItem_field :
    readItem n (field n ('-' :: ' ' :: key) text :: rest) =
      (readMapping (rest.length + 2) (n + 2) (field (n + 2) key text :: rest)).filter
        fun (fields, _) => (fields.map Prod.fst).Nodup := by
  have hline : field n ('-' :: ' ' :: key) text =
      (List.replicate n ' ' ++ ['-', ' ']) ++ (key ++ ':' :: ' ' :: text) := by
    simp [field]
  have hpfx : (List.replicate n ' ' ++ ['-', ' ']).isPrefixOf
      (field n ('-' :: ' ' :: key) text) := by
    rw [hline]
    exact List.isPrefixOf_iff_prefix.mpr (List.prefix_append _ _)
  have hdrop : (field n ('-' :: ' ' :: key) text).drop (n + 2) = key ++ ':' :: ' ' :: text := by
    rw [hline]
    exact List.drop_left' (by simp)
  rw [readItem]
  dsimp only
  rw [if_pos hpfx, hdrop, field, List.append_assoc]

end Mapping

end Yaml
