import OpenStrata.Ci.Charset
import OpenStrata.Ci.SourceChecks
import OpenStrata.Lib.YamlSchema

/-!
# Entries read back

An entry of `matrix.include`, read back from the document, and the texts its values have for
GitHub. Quoted values always come back; a plain value does when it is a plain scalar that keeps
its text, which the values that validation holds to fixed words and digests always do.

## Main definitions

* `NumberText`: the texts that GitHub gives to numbers
* `KeepsText`: a plain value keeps its text
* `EntryReadBack`: an entry gives back its keys and values
* `freeTexts`: the texts of an entry that validation leaves open

## Main results

* `entryReadBack_iff_survives`: an entry is read back when each of its values survives
* `entryReadBack_iff`: the entries of an accepted matrix that are read back
-/

namespace OpenStrata.Ci

open Yaml (Line Node)

/-! ## The texts of values -/

/-- The texts that GitHub gives to the numbers of a document. -/
structure NumberText where
  print : Line → Line
  /-- A natural number of at most 15 digits is printed in decimal. -/
  print_nat : ∀ n < 10 ^ 15, print (toString n).toList = (toString n).toList
  print_ne_nil : ∀ v, print v ≠ []
  /-- Digits, a sign, a point, an exponent or the name of a value that is not finite. -/
  print_chars : ∀ v, ∀ c ∈ print v, c.isAlphanum ∨ c ∈ ['+', '-', '.']

namespace NumberText

variable (numbers : NumberText)

/-- The text of a resolved scalar in an expression. -/
def text : Yaml.Scalar → Line
  | .null => []
  | .bool b => (toString b).toList
  | .number v => numbers.print v
  | .str s => s

def nodeText : Node → Option Line
  | .plain v => some (numbers.text (Yaml.resolve v))
  | .quoted v | .block v => some v
  | .sequence _ => none

end NumberText

/-- The line of a value. -/
def EntryValue.line : EntryValue → Line
  | .plain s => s.toList
  | .quoted s => '"' :: s.toList ++ ['"']
  | .labels ss => '[' :: Yaml.flow (ss.map String.toList) ++ [']']

section Values

variable (numbers : NumberText)

/-- A node gives back a value. -/
def Gives (value : EntryValue) (node : Node) : Prop :=
  match value with
  | .plain s | .quoted s => numbers.nodeText node = some s.toList
  | .labels ss => node = .sequence (ss.map String.toList)

/-- A text that, written as it is, is a scalar with the same text. -/
def KeepsText (s : String) : Prop :=
  Yaml.isPlain s.toList ∧ numbers.text (Yaml.resolve s.toList) = s.toList

/-- A value that is read back. -/
def Survives : EntryValue → Prop
  | .plain s => KeepsText numbers s
  | .quoted s => Yaml.isQuotable s.toList
  | .labels ss => ∀ s ∈ ss, Yaml.isQuotable s.toList

/-- A value that is not empty when it is plain, and can be quoted when it is quoted. -/
def Admissible : EntryValue → Prop
  | .plain s => s.toList ≠ []
  | .quoted s => Yaml.isQuotable s.toList
  | .labels ss => ∀ s ∈ ss, Yaml.isQuotable s.toList

/-- The node of a value that is read back. -/
def EntryValue.node : EntryValue → Node
  | .plain s => .plain s.toList
  | .quoted s => .quoted s.toList
  | .labels ss => .sequence (ss.map String.toList)

variable {numbers} {value : EntryValue} {n : Nat} {rest rest' : List Line} {node : Node}
  {s : String}

theorem isQuotable_labels {ss : List String} (h : ∀ s ∈ ss, Yaml.isQuotable s.toList) :
    ∀ v ∈ ss.map String.toList, Yaml.isQuotable v :=
  List.forall_mem_map.mpr h

theorem readValue_of_survives (h : Survives numbers value) :
    Yaml.readValue n (' ' :: value.line) rest = some (value.node, rest) := by
  cases value with
  | plain s => exact Yaml.readValue_plain h.1
  | quoted s => exact Yaml.readValue_quoted h
  | labels ss => exact Yaml.readValue_sequence (isQuotable_labels h)

theorem gives_node (h : Survives numbers value) : Gives numbers value value.node := by
  cases value with
  | plain s => exact congrArg some h.2
  | quoted s => rfl
  | labels ss => rfl

theorem print_word {v : Line} : ∀ c ∈ numbers.print v, Yaml.isWhite c = false ∧ c ≠ '#' ∧
    Yaml.isBreak c = false := by
  intro c hc
  have hword : ∀ c : Char, c.isAlphanum →
      (!Yaml.isWhite c && c != '#' && !Yaml.isBreak c) = true :=
    fun c hc => Ascii.imp (q := fun c => !Yaml.isWhite c && c != '#' && !Yaml.isBreak c)
      Ascii.isAscii_isAlphanum (by decide) hc
  have hmarks : ∀ c ∈ ['+', '-', '.'],
      (!Yaml.isWhite c && c != '#' && !Yaml.isBreak c) = true :=
    Ascii.forall_mem_of_all (by decide)
  have hall : (!Yaml.isWhite c && c != '#' && !Yaml.isBreak c) = true :=
    (numbers.print_chars v c hc).elim (hword c) (hmarks c)
  simpa [and_assoc] using hall

/-- The text of a scalar, by what it resolves to. -/
theorem text_resolve (v : Line) :
    numbers.text (Yaml.resolve v) ∈ [[], "true".toList, "false".toList, numbers.print v, v] := by
  unfold Yaml.resolve
  split
  · simp [NumberText.text]
  · split
    · show "true".toList ∈ _
      simp
    · split
      · show "false".toList ∈ _
        simp
      · split <;> simp [NumberText.text]

/-- A plain value whose text is read back survives. -/
theorem keepsText_of_readPlain {v : Line} (hne : s.toList ≠ [])
    (hread : Yaml.readPlain (s.toList.dropWhile Yaml.isWhite) = some v)
    (htext : numbers.text (Yaml.resolve v) = s.toList) : KeepsText numbers s := by
  have hplain : v = s.toList → KeepsText numbers s := by
    intro hv
    rw [hv] at hread htext
    refine ⟨?_, htext⟩
    exact (Yaml.readPlain_some hread).2.resolve_left hne
  have hmem : numbers.text (Yaml.resolve v) ∈
      [[], "true".toList, "false".toList, numbers.print v, v] := text_resolve v
  rw [htext] at hmem
  simp only [List.mem_cons, List.not_mem_nil, or_false] at hmem
  rcases hmem with h | h | h | h | h
  · exact absurd h hne
  · have hs : s = "true" := String.toList_inj.mp h
    subst hs
    exact ⟨by decide, rfl⟩
  · have hs : s = "false" := String.toList_inj.mp h
    subst hs
    exact ⟨by decide, rfl⟩
  · -- a printed number is one word, which is read whole
    have hword : ∀ c ∈ s.toList, Yaml.isWhite c = false ∧ c ≠ '#' := by
      rw [h]
      exact fun c hc => ⟨(print_word c hc).1, (print_word c hc).2.1⟩
    have hdrop : s.toList.dropWhile Yaml.isWhite = s.toList := by
      cases hs : s.toList with
      | nil => rfl
      | cons c cs =>
        rw [hs] at hword
        exact List.dropWhile_cons_of_neg (by simp [(hword c List.mem_cons_self).1])
    rw [hdrop] at hread
    exact hplain (Yaml.eq_of_readPlain hread hword)
  · exact hplain h.symm

/-- What a value's line, where the next line is one of the surrounding mapping, can be read as. -/
theorem survives_of_read (hadmissible : Admissible value) (hblocks : Yaml.Blocks n rest)
    (hread : Yaml.readValue n (' ' :: value.line) rest = some (node, rest'))
    (hgives : Gives numbers value node) : Survives numbers value ∧ rest' = rest := by
  cases value with
  | quoted s =>
    have hsurvives : Survives numbers (.quoted s) := hadmissible
    have hnode : Yaml.readValue n (' ' :: (EntryValue.quoted s).line) rest =
        some ((EntryValue.quoted s).node, rest) := readValue_of_survives hsurvives
    rw [hread] at hnode
    exact ⟨hadmissible, (Prod.mk.inj (Option.some.inj hnode)).2⟩
  | labels ss =>
    have hsurvives : Survives numbers (.labels ss) := hadmissible
    have hnode : Yaml.readValue n (' ' :: (EntryValue.labels ss).line) rest =
        some ((EntryValue.labels ss).node, rest) := readValue_of_survives hsurvives
    rw [hread] at hnode
    exact ⟨hadmissible, (Prod.mk.inj (Option.some.inj hnode)).2⟩
  | plain s =>
    have hne : s.toList ≠ [] := hadmissible
    have hdrop : (' ' :: s.toList).dropWhile Yaml.isWhite = s.toList.dropWhile Yaml.isWhite :=
      List.dropWhile_cons_of_pos rfl
    unfold Yaml.readValue at hread
    rw [show EntryValue.line (.plain s) = s.toList from rfl, hdrop] at hread
    split at hread
    -- a block scalar would be empty
    · split_ifs at hread
      obtain ⟨⟨v, tail⟩, hblock, heq⟩ := Option.map_eq_some_iff.mp hread
      cases heq
      have hv := Yaml.readBlock_of_blocks hblocks hblock
      rw [hv] at hgives
      exact absurd (Option.some.inj hgives).symm hne
    -- a quoted scalar would be shorter
    · next scalar hscalar =>
      obtain ⟨⟨v, after⟩, hquoted, heq⟩ := Option.bind_eq_some_iff.mp hread
      dsimp only at heq
      split_ifs at heq
      cases heq
      have hv : v = s.toList := Option.some.inj hgives
      have hshort := Yaml.length_readQuoted hquoted
      have hlong := (List.dropWhile_suffix (l := s.toList) Yaml.isWhite).length_le
      rw [hscalar, List.length_cons] at hlong
      rw [hv] at hshort
      omega
    -- a sequence has no text
    · obtain ⟨⟨vs, after⟩, -, heq⟩ := Option.bind_eq_some_iff.mp hread
      dsimp only at heq
      split_ifs at heq
      cases heq
      cases hgives
    · obtain ⟨v, hplain, heq⟩ := Option.map_eq_some_iff.mp hread
      cases heq
      exact ⟨keepsText_of_readPlain hne hplain (Option.some.inj hgives), rfl⟩

/-- A value with a line break is not read back. -/
theorem not_gives_of_break {a b : Line} (hs : s.toList = a ++ '\n' :: b)
    (ha : ∀ c ∈ a, Yaml.isBreak c = false) (hblocks : Yaml.Blocks n rest)
    (hread : Yaml.readValue n (' ' :: a) (Yaml.lines b ++ rest) = some (node, rest')) :
    ¬ Gives numbers (.plain s) node := by
  intro hgives
  have hbreak : '\n' ∈ s.toList := by simp [hs]
  have hshort : ∀ v : Line, (∀ c ∈ v, Yaml.isBreak c = false) → v ≠ s.toList := by
    rintro v hv rfl
    exact absurd (hv _ hbreak) (by decide)
  have hdrop : (' ' :: a).dropWhile Yaml.isWhite = a.dropWhile Yaml.isWhite :=
    List.dropWhile_cons_of_pos rfl
  have hsubset : ∀ c ∈ a.dropWhile Yaml.isWhite, Yaml.isBreak c = false :=
    fun c hc => ha c (List.dropWhile_subset _ hc)
  unfold Yaml.readValue at hread
  rw [hdrop] at hread
  split at hread
  -- a block scalar has no more than the lines after the first
  · next after hafter =>
    split_ifs at hread
    obtain ⟨⟨v, tail⟩, hblock, heq⟩ := Option.map_eq_some_iff.mp hread
    cases heq
    have hv : v = s.toList := Option.some.inj hgives
    have hlength := Yaml.length_readBlock hblocks hblock
    have hlong := (List.dropWhile_suffix (l := a) Yaml.isWhite).length_le
    rw [hafter, List.length_cons] at hlong
    rw [hv, hs, Yaml.literal_lines, List.length_append, List.length_append, List.length_cons,
      List.length_singleton] at hlength
    omega
  · next scalar hscalar =>
    obtain ⟨⟨v, after⟩, hquoted, heq⟩ := Option.bind_eq_some_iff.mp hread
    dsimp only at heq
    split_ifs at heq
    cases heq
    refine hshort v (fun c hc => hsubset c ?_) (Option.some.inj hgives)
    rw [hscalar]
    rw [Yaml.readQuoted_some hquoted] at hc
    exact List.mem_cons_of_mem _ (List.takeWhile_subset _ hc)
  · obtain ⟨⟨vs, after⟩, -, heq⟩ := Option.bind_eq_some_iff.mp hread
    dsimp only at heq
    split_ifs at heq
    cases heq
    cases hgives
  · obtain ⟨v, hplain, heq⟩ := Option.map_eq_some_iff.mp hread
    cases heq
    refine hshort _ ?_ (Option.some.inj hgives)
    have hmem : numbers.text (Yaml.resolve v) ∈
      [[], "true".toList, "false".toList, numbers.print v, v] := text_resolve v
    simp only [List.mem_cons, List.not_mem_nil, or_false] at hmem
    rcases hmem with h | h | h | h | h
    all_goals rw [h]
    · simp
    · exact Ascii.forall_mem_of_all (by decide)
    · exact Ascii.forall_mem_of_all (by decide)
    · exact fun c hc => (print_word c hc).2.2
    · exact fun c hc => hsubset c (Yaml.subset_of_readPlain hplain hc)

theorem not_isBreak_line (h : match value with
      | .plain s => ∀ c ∈ s.toList, Yaml.isBreak c = false
      | .quoted s => Yaml.isQuotable s.toList
      | .labels ss => ∀ s ∈ ss, Yaml.isQuotable s.toList) :
    ∀ c ∈ value.line, Yaml.isBreak c = false := by
  cases value with
  | plain s => exact h
  | quoted s =>
    intro c hc
    simp only [EntryValue.line, List.cons_append, List.mem_cons, List.mem_append, List.not_mem_nil,
      or_false] at hc
    rcases hc with rfl | hc | rfl
    · rfl
    · exact Yaml.not_isBreak_of_quotable h c hc
    · rfl
  | labels ss =>
    intro c hc
    simp only [EntryValue.line, List.cons_append, List.mem_cons, List.mem_append, List.not_mem_nil,
      or_false] at hc
    rcases hc with rfl | hc | rfl
    · rfl
    · exact Yaml.not_isBreak_flow (isQuotable_labels h) c hc
    · rfl

/-- A value of several lines is plain. -/
theorem exists_break (hadmissible : Admissible value)
    (h : ¬ ∀ c ∈ value.line, Yaml.isBreak c = false) :
    ∃ s a b, value = .plain s ∧ s.toList = a ++ '\n' :: b ∧ ∀ c ∈ a, Yaml.isBreak c = false := by
  cases value with
  | quoted s =>
    refine absurd ?_ h
    apply not_isBreak_line
    exact hadmissible
  | labels ss =>
    refine absurd ?_ h
    apply not_isBreak_line
    exact hadmissible
  | plain s =>
    cases hrest : s.toList.dropWhile (fun c => !Yaml.isBreak c) with
    | nil =>
      refine absurd (fun c hc => ?_) h
      simpa using List.dropWhile_eq_nil_iff.mp hrest c hc
    | cons c b =>
      have hc : c = '\n' := by
        have := List.head?_dropWhile_not (fun c => !Yaml.isBreak c) s.toList
        rw [hrest] at this
        simpa [Yaml.isBreak] using this
      subst hc
      refine ⟨s, s.toList.takeWhile fun c => !Yaml.isBreak c, b, rfl, ?_, fun c hc => ?_⟩
      · rw [← hrest, List.takeWhile_append_dropWhile]
      · simpa using List.mem_takeWhile_imp hc

end Values

/-! ## Reading entries -/

section Entries

variable {numbers : NumberText} {n : Nat} {fs : List EntryField} {post : List Char}

/-- The line of a field. -/
def fieldLine (n : Nat) (field : EntryField) : Line :=
  Yaml.field n field.key.text.toList field.value.line

/-- The fields read are those written, with values that give theirs back. -/
def Reads (numbers : NumberText) (fs : List EntryField) (read : List (Line × Node)) : Prop :=
  List.Forall₂ (fun field read =>
    read.1 = field.key.text.toList ∧ Gives numbers field.value read.2) fs read

theorem isKey_text (key : MatrixKey) : Yaml.isKey key.text.toList := by
  cases key <;> decide

theorem not_isBreak_key (key : MatrixKey) : ∀ c ∈ key.text.toList, Yaml.isBreak c = false := by
  cases key <;> exact Ascii.forall_mem_of_all (by decide)

/-- Below the lines of a mapping, every line is one of the mapping or ends it. -/
theorem blocks_fields (hblocks : Yaml.Blocks n (Yaml.lines post)) :
    Yaml.Blocks n (Yaml.lines (Yaml.literal (fs.map (fieldLine n)) ++ post)) := by
  cases fs with
  | nil => exact hblocks
  | cons field fs =>
    obtain ⟨c, k, hkey, hspace, -, -⟩ := Yaml.isKey_head (isKey_text field.key)
    have hbreak : Yaml.isBreak c = false := not_isBreak_key field.key c (by simp [hkey])
    rw [List.map_cons, Yaml.literal_cons, fieldLine, Yaml.field, hkey]
    simp only [List.append_assoc, List.cons_append]
    exact Yaml.blocks_of_head (Nat.le_refl n) hspace hbreak

/-- The fields of a mapping are read back exactly when the value of each survives. -/
theorem readMapping_fields_iff (hadmissible : ∀ field ∈ fs, Admissible field.value)
    (hends : Yaml.Ends n (Yaml.lines post)) (hblocks : Yaml.Blocks n (Yaml.lines post)) {fuel : Nat}
    (hfuel : fs.length < fuel) :
    (∃ read, Yaml.readMapping fuel n (Yaml.lines (Yaml.literal (fs.map (fieldLine n)) ++ post)) =
        some (read, Yaml.skip (Yaml.lines post)) ∧ Reads numbers fs read) ↔
      ∀ field ∈ fs, Survives numbers field.value := by
  induction fs generalizing fuel with
  | nil =>
    obtain ⟨fuel, rfl⟩ : ∃ k, fuel = k + 1 := ⟨fuel - 1, by omega⟩
    refine ⟨fun _ => by simp, fun _ => ⟨[], ?_, .nil⟩⟩
    exact Yaml.readMapping_stop hends
  | cons field fs ih =>
    obtain ⟨fuel, rfl⟩ : ∃ k, fuel = k + 1 := ⟨fuel - 1, by omega⟩
    have hvalue := hadmissible field List.mem_cons_self
    have hshort : fs.length < fuel := Nat.lt_of_succ_lt_succ hfuel
    have hrest := ih (fun f hf => hadmissible f (List.mem_cons_of_mem _ hf)) hshort
    have hnext : Yaml.Blocks n (Yaml.lines (Yaml.literal (fs.map (fieldLine n)) ++ post)) :=
      blocks_fields hblocks
    have hkey := isKey_text field.key
    by_cases hline : ∀ c ∈ field.value.line, Yaml.isBreak c = false
    · have hlines : Yaml.lines (Yaml.literal ((field :: fs).map (fieldLine n)) ++ post) =
          fieldLine n field :: Yaml.lines (Yaml.literal (fs.map (fieldLine n)) ++ post) := by
        rw [List.map_cons, Yaml.literal_cons, List.append_assoc, List.cons_append,
          Yaml.lines_append_break]
        exact Yaml.not_isBreak_field (fun c hc => not_isBreak_key field.key c hc) hline
      rw [hlines, fieldLine, List.forall_mem_cons, ← hrest]
      constructor
      · rintro ⟨read, hread, hreads⟩
        rw [Yaml.readMapping_field hkey] at hread
        obtain ⟨⟨node, rest⟩, hvalue', htail⟩ := Option.bind_eq_some_iff.mp hread
        obtain ⟨⟨tail, rest'⟩, htail, heq⟩ := Option.map_eq_some_iff.mp htail
        cases heq
        obtain ⟨⟨-, hgives⟩, htails⟩ := List.forall₂_cons.mp hreads
        obtain ⟨hsurvives, rfl⟩ := survives_of_read hvalue hnext hvalue' hgives
        exact ⟨hsurvives, tail, htail, htails⟩
      · rintro ⟨hsurvives, tail, htail, htails⟩
        refine ⟨(field.key.text.toList, field.value.node) :: tail, ?_, ?_⟩
        · rw [Yaml.readMapping_field_some hkey (readValue_of_survives hsurvives), htail]
          rfl
        · exact .cons ⟨rfl, gives_node hsurvives⟩ htails
    · -- a value of several lines is neither read back nor a plain scalar
      obtain ⟨s, a, b, hplain, hs, ha⟩ := exists_break hvalue hline
      refine iff_of_false ?_ fun hall => ?_
      · rintro ⟨read, hread, hreads⟩
        have hlines : Yaml.lines (Yaml.literal ((field :: fs).map (fieldLine n)) ++ post) =
            Yaml.field n field.key.text.toList a :: (Yaml.lines b ++
              Yaml.lines (Yaml.literal (fs.map (fieldLine n)) ++ post)) := by
          have hfield : fieldLine n field =
              Yaml.field n field.key.text.toList a ++ '\n' :: b := by
            rw [fieldLine, hplain, EntryValue.line, hs, Yaml.field, Yaml.field]
            simp
          rw [List.map_cons, Yaml.literal_cons, hfield]
          simp only [List.append_assoc, List.cons_append]
          rw [Yaml.lines_append_break (Yaml.not_isBreak_field (not_isBreak_key field.key) ha),
            Yaml.lines_append_cons]
        rw [hlines, Yaml.readMapping_field hkey] at hread
        obtain ⟨⟨node, rest⟩, hvalue', htail⟩ := Option.bind_eq_some_iff.mp hread
        obtain ⟨⟨tail, rest'⟩, -, heq⟩ := Option.map_eq_some_iff.mp htail
        cases heq
        obtain ⟨⟨-, hgives⟩, -⟩ := List.forall₂_cons.mp hreads
        rw [hplain] at hgives
        exact not_gives_of_break hs ha hnext hvalue' hgives
      · have hsurvives := hall field List.mem_cons_self
        rw [hplain] at hsurvives
        have hcontent := Yaml.content_of_isPlain hsurvives.1
        rw [hs, List.all_append, List.all_cons] at hcontent
        simp [Yaml.isContentChar] at hcontent

/-- The entry, read where the document goes on with `post`, has the keys that the renderer wrote
and values that give theirs back; nothing else is read before `post`. -/
def EntryReadBack (numbers : NumberText) (entry : Entry) (post : Document) : Prop :=
  ∃ read, Yaml.readItem 10 (Yaml.lines (Document.render (entry.pieces ++ post)).toList) =
      some (read, Yaml.skip (Yaml.lines (Document.render post).toList)) ∧
    Reads numbers entry read

theorem toList_render_labels (labels : List String) :
    (Document.render (labelPieces labels)).toList = Yaml.flow (labels.map String.toList) := by
  induction labels with
  | nil => rfl
  | cons label rest ih =>
    cases rest with
    | nil => simp [labelPieces, Document.render, Piece.render, Yaml.flow]
    | cons next rest =>
      rw [labelPieces, toList_render_append, ih]
      · simp [Document.render, Piece.render, Yaml.flow]
      · simp

theorem toList_render_value (value : EntryValue) :
    (Document.render value.pieces).toList = value.line := by
  cases value with
  | plain s => simp [EntryValue.pieces, EntryValue.line, Document.render, Piece.render]
  | quoted s => simp [EntryValue.pieces, EntryValue.line, Document.render, Piece.render]
  | labels ss =>
    rw [EntryValue.pieces, toList_render_append, toList_render_append, toList_render_labels]
    simp [EntryValue.line, Document.render, Piece.render]

theorem toList_render_field (indent : String) (field : EntryField) :
    (Document.render (Entry.fieldPieces indent field)).toList =
      indent.toList ++ field.key.text.toList ++ ':' :: ' ' :: field.value.line ++ ['\n'] := by
  rw [Entry.fieldPieces, toList_render_append, toList_render_append, toList_render_value]
  simp [Document.render, Piece.render]

theorem toList_render_fields (fs : List EntryField) :
    (Document.render (fs.flatMap (Entry.fieldPieces "            "))).toList =
      Yaml.literal (fs.map (fieldLine 12)) := by
  induction fs with
  | nil => rfl
  | cons field fs ih =>
    have hindent : "            ".toList = List.replicate 12 ' ' := rfl
    rw [List.flatMap_cons, toList_render_append, ih, toList_render_field, List.map_cons,
      Yaml.literal_cons, fieldLine, Yaml.field, hindent]
    simp

theorem render_entry (field : EntryField) (fs : List EntryField) (post : Document) :
    (Document.render (Entry.pieces (field :: fs) ++ post)).toList =
      Yaml.field 10 ('-' :: ' ' :: field.key.text.toList) field.value.line ++
        '\n' :: (Yaml.literal (fs.map (fieldLine 12)) ++ (Document.render post).toList) := by
  have hindent : "          - ".toList = List.replicate 10 ' ' ++ ['-', ' '] := rfl
  rw [Entry.pieces, toList_render_append, toList_render_append, toList_render_fields,
    toList_render_field, hindent, Yaml.field]
  simp

/-- A document that goes on after an entry: with another entry or with the steps of the job. -/
def Follows (post : Document) : Prop :=
  Yaml.Ends 12 (Yaml.lines (Document.render post).toList) ∧
    Yaml.Blocks 12 (Yaml.lines (Document.render post).toList)

theorem length_lines_fields (fs : List EntryField) (post : List Char) :
    fs.length + 1 ≤ (Yaml.lines (Yaml.literal (fs.map (fieldLine n)) ++ post)).length := by
  induction fs with
  | nil => exact List.length_pos_iff.mpr (List.splitOnP_ne_nil Yaml.isBreak _)
  | cons field fs ih =>
    rw [List.map_cons, Yaml.literal_cons, List.append_assoc, List.cons_append,
      Yaml.lines_append_cons, List.length_append, List.length_cons]
    have : 0 < (Yaml.lines (fieldLine n field)).length :=
      List.length_pos_iff.mpr (List.splitOnP_ne_nil Yaml.isBreak _)
    omega

/-- The keys in the order they are declared. -/
def allKeys : List MatrixKey :=
  [.name, .lane, .runtimeArtifact, .requireOpenusd, .requireOpenusdVersion, .openusdFlags,
    .targetTrust, .minimumTrust, .requireEvidence, .evidenceFlags, .platform, .profile, .upTo,
    .runsOn, .hosted, .runnerProfile, .pluginArtifact, .bundle, .verify, .intentFlags,
    .runtimeRemote, .hostPython, .hostPackagesApt, .hostPackagesBrew]

theorem text_injective : Function.Injective fun key : MatrixKey => key.text.toList := by
  have hall : ∀ key, key ∈ allKeys := by
    intro key
    cases key <;> decide
  have hnodup : (allKeys.map fun key => key.text.toList).Nodup := by decide
  exact fun a b hab => List.inj_on_of_nodup_map hnodup (hall a) (hall b) hab

theorem Reads.keys {read : List (Line × Node)} (h : Reads numbers fs read) :
    read.map Prod.fst = (Entry.keys fs).map fun key => key.text.toList := by
  induction h with
  | nil => rfl
  | cons hfield _ ih =>
    rw [List.map_cons, ih, hfield.1]
    rfl

/-- An entry is read back exactly when each of its values survives. -/
theorem entryReadBack_iff_survives {field : EntryField} {fs : List EntryField} {post : Document}
    (hadmissible : ∀ f ∈ field :: fs, Admissible f.value)
    (hline : ∀ c ∈ field.value.line, Yaml.isBreak c = false)
    (hkeys : (Entry.keys (field :: fs)).Nodup) (hpost : Follows post) :
    EntryReadBack numbers (field :: fs) post ↔ ∀ f ∈ field :: fs, Survives numbers f.value := by
  have hmarker : ∀ c ∈ '-' :: ' ' :: field.key.text.toList, Yaml.isBreak c = false := by
    intro c hc
    rcases List.mem_cons.mp hc with rfl | hc
    · rfl
    · rcases List.mem_cons.mp hc with rfl | hc
      · rfl
      · exact not_isBreak_key field.key c hc
  have hlines : Yaml.lines (Yaml.literal ((field :: fs).map (fieldLine 12)) ++
      (Document.render post).toList) = Yaml.field 12 field.key.text.toList field.value.line ::
        Yaml.lines (Yaml.literal (fs.map (fieldLine 12)) ++ (Document.render post).toList) := by
    rw [List.map_cons, Yaml.literal_cons, List.append_assoc, List.cons_append,
      Yaml.lines_append_break]
    · rfl
    · exact Yaml.not_isBreak_field (not_isBreak_key field.key) hline
  have hlength := length_lines_fields (n := 12) fs (Document.render post).toList
  have hfuel : (field :: fs).length < (Yaml.lines (Yaml.literal (fs.map (fieldLine 12)) ++
      (Document.render post).toList)).length + 2 := by
    rw [List.length_cons]
    omega
  rw [EntryReadBack, render_entry,
    Yaml.lines_append_break (Yaml.not_isBreak_field hmarker hline), Yaml.readItem_field, ← hlines,
    ← readMapping_fields_iff hadmissible hpost.1 hpost.2 hfuel]
  constructor
  · rintro ⟨read, hread, hreads⟩
    exact ⟨read, (Option.filter_eq_some_iff.mp hread).1, hreads⟩
  · rintro ⟨read, hread, hreads⟩
    refine ⟨read, Option.filter_eq_some_iff.mpr ⟨hread, decide_eq_true ?_⟩, hreads⟩
    rw [hreads.keys]
    exact hkeys.map text_injective

end Entries

/-! ## Entries of accepted matrices -/

section Accepted

variable {catalog : Catalog} {m : SupportMatrix} {cell : SupportCell} {numbers : NumberText}
  {s : String}

/-- A string of the schema that is a plain scalar. -/
theorem keepsText_of_str (hplain : Yaml.isPlain s.toList)
    (hstr : Yaml.resolve s.toList = .str s.toList) : KeepsText numbers s :=
  ⟨hplain, by rw [hstr]; rfl⟩

theorem keepsText_bool (b : Bool) : KeepsText numbers (toString b) := by
  cases b
  · exact ⟨by decide, rfl⟩
  · exact ⟨by decide, rfl⟩

theorem keepsText_level {level : Nat} (h : level ≤ MAX_LEVEL) :
    KeepsText numbers (toString level) := by
  have hnumber : Yaml.isPlain (toString level).toList ∧
      Yaml.resolve (toString level).toList = .number (toString level).toList := by
    have hlevel : level ≤ 6 := h
    interval_cases level <;> exact ⟨by decide, by decide⟩
  refine ⟨hnumber.1, ?_⟩
  rw [hnumber.2]
  exact numbers.print_nat level (lt_of_le_of_lt h (by decide))

theorem keepsText_sha256Ref (h : isSha256Ref s) : KeepsText numbers s := by
  unfold isSha256Ref at h
  split at h
  · next hex hpfx =>
    rw [Bool.and_eq_true, beq_iff_eq] at h
    have hs : s.toList = 's' :: ("ha256:".toList ++ hex.toList) := by
      rw [Text.stripPrefix_eq_some.mp hpfx, String.toList_append]
      rfl
    have hne : hex.toList ≠ [] := by
      intro hnil
      have := h.1
      rw [← String.length_toList, hnil] at this
      cases this
    have hchar : ∀ c, Text.isHexDigit c →
        (Yaml.isContentChar c && !Yaml.isWhite c && c != '#' && c != ':') = true :=
      fun c hc => Ascii.imp
        (q := fun c => Yaml.isContentChar c && !Yaml.isWhite c && c != '#' && c != ':')
        isAscii_isHexDigit (by decide) hc
    have hhex : ∀ c ∈ hex.toList, Text.isHexDigit c := List.all_eq_true.mp h.2
    have hword : ∀ c ∈ "sha256:".toList,
        Yaml.isContentChar c ∧ Yaml.isWhite c = false ∧ c ≠ '#' :=
      Ascii.forall_mem_of_all (by decide)
    refine keepsText_of_str (Yaml.isPlain_word hs (by decide) ?_ ?_) ?_
    · intro c hc
      rw [hs] at hc
      rcases List.mem_append.mp (List.cons_append ▸ hc : c ∈ "sha256:".toList ++ hex.toList)
        with hc | hc
      · exact hword c hc
      · have := hchar c (hhex c hc)
        simp only [Bool.and_eq_true, Bool.not_eq_true', bne_iff_ne] at this
        exact ⟨this.1.1.1, this.1.1.2, this.1.2⟩
    · rw [hs, List.getLast?_cons, List.getLast?_append_of_ne_nil _ hne,
        List.getLast?_eq_some_getLast hne]
      have := hchar _ (hhex _ (List.getLast_mem hne))
      simp only [Bool.and_eq_true, bne_iff_ne] at this
      simpa using this.2
    · rw [hs]
      exact Yaml.resolve_of_head (by decide)
  · cases h

theorem isAscii_isValueChar : Ascii.IsAscii isValueChar :=
  Ascii.isAscii_or Ascii.isAscii_isAlphanum
    (Ascii.isAscii_contains (Ascii.forall_mem_of_all (by decide)))

theorem isQuotable_of_isValue (h : IsValue s) : Yaml.isQuotable s.toList :=
  List.all_eq_true.mpr fun c hc =>
    Ascii.imp (q := fun c => Yaml.isContentChar c && c != '"' && c != '\\') isAscii_isValueChar
      (by decide) (h c hc)

theorem not_isBreak_of_isValue (h : IsValue s) : ∀ c ∈ s.toList, Yaml.isBreak c = false := by
  intro c hc
  have := Ascii.imp (q := fun c => !Yaml.isBreak c) isAscii_isValueChar (by decide) (h c hc)
  simpa using this

/-- The texts of a cell's entry that are written plain and not held to fixed words. -/
def freeTexts (cell : SupportCell) (entry : Entry) : List String :=
  [cell.name, cell.platform, cell.profile] ++ cell.runner.toList ++
    if .bundle ∈ entry.keys then [cell.bundle.getD "."] else []

/-- The fields that a job appends to the entry of a cell. -/
inductive Extra (cell : SupportCell) : Entry → Prop
  | support (plugin : String) (h : cell.pluginArtifact = some plugin) :
      Extra cell [⟨.pluginArtifact, .plain plugin⟩]
  | source (shape : JobShape) (h : shape ≠ .bundle → cell.isWorkspace) :
      Extra cell (shape.includeKeys cell)

/-- A field that survives in every entry, or has one of the free texts. -/
def Settled (numbers : NumberText) (free : List String) (field : EntryField) : Prop :=
  Survives numbers field.value ∨ ∃ s ∈ free, field.value = .plain s

theorem keepsText_trust (trust : TrustLevel) : KeepsText numbers trust.asStr := by
  cases trust <;> exact keepsText_of_str (by decide) (by decide)

theorem keepsText_evidence (evidence : RequireEvidence) : KeepsText numbers evidence.asStr := by
  cases evidence <;> exact keepsText_of_str (by decide) (by decide)

theorem keepsText_lane (lane : Lane) : KeepsText numbers lane.asStr := by
  cases lane <;> exact keepsText_of_str (by decide) (by decide)

theorem keepsText_verify (rung : WorkspaceVerify) : KeepsText numbers rung.asStr := by
  cases rung <;> exact keepsText_of_str (by decide) (by decide)

section Fields

variable {free : List String} (h : CellAccepted catalog m cell)

include h

theorem survives_runtimeKeys : ∀ field ∈ runtimeKeys m cell, Survives numbers field.value := by
  unfold runtimeKeys
  cases hsome : cell.runtimeArtifact with
  | none => exact fun field hfield => by cases hfield
  | some runtime =>
    have hevidence : IsValue (m.cellEvidence cell).verifyFlags := by
      cases m.cellEvidence cell <;> decide
    simp only [Option.elim_some, List.forall_mem_cons, Survives]
    exact ⟨keepsText_sha256Ref (h.runtimeRef runtime hsome),
      isQuotable_of_isValue h.isValue_requireOpenusd, isQuotable_of_isValue h.isValue_version,
      isQuotable_of_isValue h.isValue_openusdFlags, keepsText_trust _, keepsText_trust _,
      keepsText_evidence _, isQuotable_of_isValue hevidence, fun field hfield => by cases hfield⟩

theorem survives_prerequisites :
    ∀ field ∈ prerequisiteIncludeKeys cell, Survives numbers field.value := by
  simp only [prerequisiteIncludeKeys, List.forall_mem_cons, Survives]
  exact ⟨isQuotable_of_isValue h.isValue_remoteUri, isQuotable_of_isValue h.isValue_hostPython,
    isQuotable_of_isValue h.isValue_hostPackages.1, isQuotable_of_isValue h.isValue_hostPackages.2,
    fun field hfield => by cases hfield⟩

/-- Of what a job appends, only the bundle is free. -/
theorem settled_extra {extra : Entry} (hextra : Extra cell extra)
    (hbundle : .bundle ∈ extra.keys → cell.bundle.getD "." ∈ free) :
    ∀ field ∈ extra, Settled numbers free field := by
  cases hextra with
  | support plugin hplugin =>
    exact List.forall_mem_singleton.mpr (.inl (keepsText_sha256Ref (h.pluginRef plugin hplugin)))
  | source shape hshape =>
    have hrest : ∀ field ∈ prerequisiteIncludeKeys cell, Settled numbers free field :=
      fun field hfield => .inl (survives_prerequisites h field hfield)
    have hverify : Settled numbers free ⟨.verify, .plain cell.verifyRung.asStr⟩ :=
      .inl (keepsText_verify _)
    have hintent : Settled numbers free ⟨.intentFlags, .quoted (intentFlags cell)⟩ :=
      .inl (isQuotable_of_isValue h.isValue_intentFlags)
    cases shape with
    | bundle =>
      refine List.forall_mem_append.mpr ⟨List.forall_mem_singleton.mpr ?_, hrest⟩
      exact .inr ⟨_, hbundle (by rw [keys_includeKeys]; decide), rfl⟩
    | workspace =>
      refine List.forall_mem_append.mpr ⟨?_, hrest⟩
      simp only [List.forall_mem_cons]
      exact ⟨hverify, hintent, .inl (keepsText_level h.atoms.2.2), fun field hfield => by
        cases hfield⟩
    | workspaceRuntimeFree =>
      simp only [JobShape.includeKeys, runtimeFreeWorkspaceIncludeKeys, List.forall_mem_cons]
      exact ⟨hverify, hintent, .inl (isQuotable_of_isValue h.isValue_hostPackages.1),
        .inl (isQuotable_of_isValue h.isValue_hostPackages.2), fun field hfield => by
          cases hfield⟩
    | workspaceGraph => exact List.forall_mem_singleton.mpr hverify

end Fields

/-- Each field of a cell's entry survives or has one of the free texts. -/
theorem settled_includeEntry (h : Accepted catalog m) (hcell : cell ∈ m.cells) {extra : Entry}
    (hextra : Extra cell extra) : ∀ field ∈ includeEntry m cell extra,
      Settled numbers (freeTexts cell (includeEntry m cell extra)) field := by
  have hvalid := h.cells cell hcell
  have hbundle : .bundle ∈ extra.keys →
      cell.bundle.getD "." ∈ freeTexts cell (includeEntry m cell extra) := by
    intro hkey
    have hmem : .bundle ∈ (includeEntry m cell extra).keys := by
      rw [keys_includeEntry]
      exact List.mem_append_right _ hkey
    simp [freeTexts, hmem]
  have hextra : ∀ field ∈ extra,
      Settled numbers (freeTexts cell (includeEntry m cell extra)) field :=
    settled_extra hvalid hextra hbundle
  generalize hfree : freeTexts cell (includeEntry m cell extra) = free at hextra
  have hin : ∀ s ∈ [cell.name, cell.platform, cell.profile] ++ cell.runner.toList, s ∈ free := by
    intro s hs
    rw [← hfree]
    exact List.mem_append_left _ hs
  have hlabels : Survives numbers (.labels (m.runsOn cell)) := fun s hs =>
    isQuotable_of_isValue (h.isValue_runsOn hcell s hs)
  have hrunner : Settled numbers free ⟨.runnerProfile, runnerProfileValue cell⟩ := by
    unfold runnerProfileValue
    cases hrunner : cell.runner with
    | none => exact .inl (isQuotable_of_isValue isValue_empty)
    | some runner => exact .inr ⟨runner, hin runner (by simp [hrunner]), rfl⟩
  have hname : ∀ s ∈ [cell.name, cell.platform, cell.profile], s ∈ free := fun s hs =>
    hin s (List.mem_append_left _ hs)
  have hnil : ∀ field ∈ ([] : Entry), Settled numbers free field := fun field hfield => by
    cases hfield
  have hlevel : ∀ field ∈ (if cell.isWorkspace then []
      else [⟨.upTo, .plain (toString cell.upToLevel)⟩] : Entry), Settled numbers free field := by
    split
    · exact hnil
    · exact List.forall_mem_singleton.mpr (.inl (keepsText_level hvalid.atoms.2.2))
  unfold includeEntry
  refine List.forall_mem_append.mpr ⟨List.forall_mem_append.mpr ⟨List.forall_mem_append.mpr
    ⟨List.forall_mem_append.mpr ⟨List.forall_mem_append.mpr ⟨?_, ?_⟩, ?_⟩, hlevel⟩, ?_⟩, hextra⟩
  · simp only [List.forall_mem_cons]
    exact ⟨.inr ⟨_, hname _ (by simp), rfl⟩, .inl (keepsText_lane _), hnil⟩
  · exact fun field hfield => .inl (survives_runtimeKeys hvalid field hfield)
  · simp only [List.forall_mem_cons]
    exact ⟨.inr ⟨_, hname _ (by simp), rfl⟩, .inr ⟨_, hname _ (by simp), rfl⟩, hnil⟩
  · simp only [List.forall_mem_cons]
    exact ⟨.inl hlabels, .inl (keepsText_bool _), hrunner, hnil⟩

/-- Each free text is a value of the entry. -/
theorem exists_field_of_free {extra : Entry} (hextra : Extra cell extra) {s : String}
    (hs : s ∈ freeTexts cell (includeEntry m cell extra)) :
    ∃ field ∈ includeEntry m cell extra, field.value = .plain s := by
  unfold freeTexts at hs
  rcases List.mem_append.mp hs with hs | hs
  · rcases List.mem_append.mp hs with hs | hs
    · simp only [List.mem_cons, List.not_mem_nil, or_false] at hs
      rcases hs with rfl | rfl | rfl
      · exact ⟨⟨.name, .plain cell.name⟩, by simp [includeEntry], rfl⟩
      · exact ⟨⟨.platform, .plain cell.platform⟩, by simp [includeEntry], rfl⟩
      · exact ⟨⟨.profile, .plain cell.profile⟩, by simp [includeEntry], rfl⟩
    · have hrunner : cell.runner = some s := Option.mem_toList.mp hs
      refine ⟨⟨.runnerProfile, runnerProfileValue cell⟩, by simp [includeEntry], ?_⟩
      rw [runnerProfileValue, hrunner]
      rfl
  · split at hs
    · next hkey =>
      obtain rfl := List.mem_singleton.mp hs
      have hfield : ⟨.bundle, .plain (cell.bundle.getD ".")⟩ ∈ extra := by
        rw [keys_includeEntry, List.mem_append] at hkey
        rcases hkey with hkey | hkey
        · exfalso
          revert hkey
          cases cell.isRuntimeFree <;> cases cell.isWorkspace <;> decide
        · cases hextra with
          | support plugin hplugin =>
            have hkeys : Entry.keys [⟨.pluginArtifact, .plain plugin⟩] = [.pluginArtifact] := rfl
            exact absurd hkey (by rw [hkeys]; decide)
          | source shape hshape =>
            cases shape with
            | bundle => exact List.mem_cons_self
            | workspace => exact absurd hkey (by rw [keys_includeKeys]; decide)
            | workspaceRuntimeFree => exact absurd hkey (by rw [keys_includeKeys]; decide)
            | workspaceGraph => exact absurd hkey (by rw [keys_includeKeys]; decide)
      exact ⟨_, List.mem_append_right _ hfield, rfl⟩
    · cases hs

/-- No free text is empty. -/
theorem ne_nil_of_free (h : Accepted catalog m) (hcell : cell ∈ m.cells) {entry : Entry}
    {s : String} (hs : s ∈ freeTexts cell entry) : s.toList ≠ [] := by
  have hvalid := h.cells cell hcell
  have hkebab : ∀ s, isKebab s → s.toList ≠ [] := by
    intro s hs hnil
    obtain rfl := String.toList_eq_nil_iff.mp hnil
    exact absurd hs (by decide)
  have hatom : ∀ s, isCiAtom s → s.toList ≠ [] := by
    intro s hs hnil
    obtain rfl := String.toList_eq_nil_iff.mp hnil
    exact absurd hs (by decide)
  unfold freeTexts at hs
  rcases List.mem_append.mp hs with hs | hs
  · rcases List.mem_append.mp hs with hs | hs
    · simp only [List.mem_cons, List.not_mem_nil, or_false] at hs
      rcases hs with rfl | rfl | rfl
      · exact hkebab _ hvalid.name
      · exact hatom _ hvalid.atoms.1
      · exact hatom _ hvalid.atoms.2.1
    · exact hkebab s (h.runnerName hcell s (Option.mem_toList.mp hs))
  · split at hs
    · obtain rfl := List.mem_singleton.mp hs
      cases hbundle : cell.bundle with
      | none => decide
      | some bundle =>
        intro hnil
        obtain rfl := String.toList_eq_nil_iff.mp hnil
        exact hvalid.bundle _ hbundle (by decide)
    · cases hs

theorem admissible_of_survives {value : EntryValue} (h : Survives numbers value) :
    Admissible value := by
  cases value with
  | plain s =>
    intro hnil
    have hplain : Yaml.isPlain s.toList := h.1
    rw [hnil] at hplain
    cases hplain
  | quoted s => exact h
  | labels ss => exact h

/-- The keys of an entry are those that its job may append after those of every cell. -/
theorem nodup_includeEntry {extra : Entry} (hextra : Extra cell extra) :
    (includeEntry m cell extra).keys.Nodup := by
  rw [keys_includeEntry]
  cases hextra with
  | support plugin hplugin =>
    have hkeys : Entry.keys [⟨.pluginArtifact, .plain plugin⟩] = [.pluginArtifact] := rfl
    rw [hkeys]
    cases cell.isRuntimeFree <;> cases cell.isWorkspace <;> decide
  | source shape hshape =>
    rw [keys_includeKeys]
    cases shape with
    | bundle => cases cell.isRuntimeFree <;> cases cell.isWorkspace <;> decide
    | workspace =>
      rw [hshape (by decide)]
      cases cell.isRuntimeFree <;> decide
    | workspaceRuntimeFree => cases cell.isRuntimeFree <;> cases cell.isWorkspace <;> decide
    | workspaceGraph => cases cell.isRuntimeFree <;> cases cell.isWorkspace <;> decide

/-- The entry of an accepted cell is read back exactly when its free texts keep their texts. -/
theorem entryReadBack_includeEntry (h : Accepted catalog m) (hcell : cell ∈ m.cells)
    {extra : Entry} (hextra : Extra cell extra) {post : Document} (hpost : Follows post) :
    EntryReadBack numbers (includeEntry m cell extra) post ↔
      ∀ s ∈ freeTexts cell (includeEntry m cell extra), KeepsText numbers s := by
  have hsettled : ∀ field ∈ includeEntry m cell extra,
      Settled numbers (freeTexts cell (includeEntry m cell extra)) field :=
    settled_includeEntry h hcell hextra
  have hadmissible : ∀ field ∈ includeEntry m cell extra, Admissible field.value := by
    intro field hfield
    rcases hsettled field hfield with hsurvives | ⟨s, hs, hvalue⟩
    · exact admissible_of_survives hsurvives
    · rw [hvalue]
      exact ne_nil_of_free h hcell hs
  have hbreak : ∀ c ∈ cell.name.toList, Yaml.isBreak c = false :=
    not_isBreak_of_isValue (isValue_kebab (h.cells cell hcell).name)
  have hread : EntryReadBack numbers (includeEntry m cell extra) post ↔
      ∀ f ∈ includeEntry m cell extra, Survives numbers f.value :=
    entryReadBack_iff_survives hadmissible hbreak (nodup_includeEntry hextra) hpost
  refine hread.trans ⟨fun hall s hs => ?_, fun hall field hfield => ?_⟩
  · obtain ⟨field, hfield, hvalue⟩ := exists_field_of_free hextra hs
    have hsurvives := hall field hfield
    rw [hvalue] at hsurvives
    exact hsurvives
  · rcases hsettled field hfield with hsurvives | ⟨s, hs, hvalue⟩
    · exact hsurvives
    · rw [hvalue]
      exact hall s hs

/-! ## Entries of jobs -/

theorem follows_of_indent {post : Document} {k : Nat} {c : Char} (hk : k < 12)
    (hspace : c ≠ ' ') (htab : c ≠ '\t') (hmark : c ≠ '#') (hbreak : Yaml.isBreak c = false)
    (hpost : ∃ rest, (Document.render post).toList = List.replicate k ' ' ++ c :: rest) :
    Follows post := by
  obtain ⟨rest, hpost⟩ := hpost
  rw [Follows, hpost]
  exact ⟨Yaml.ends_of_head hk hspace htab hmark hbreak, Yaml.blocks_of_head hk.le hspace hbreak⟩

theorem follows_entry {extra : Entry} (tail : Document) :
    Follows ((includeEntry m cell extra).pieces ++ tail) := by
  have hindent : "          - ".toList = List.replicate 10 ' ' ++ '-' :: [' '] := rfl
  refine follows_of_indent (k := 10) (c := '-') (by decide) (by decide) (by decide) (by decide)
    rfl ?_
  unfold includeEntry
  rw [List.append_assoc, List.append_assoc, List.append_assoc, List.append_assoc,
    List.cons_append, Entry.pieces, toList_render_append, toList_render_append,
    toList_render_field, hindent]
  simp only [List.append_assoc, List.cons_append]
  exact ⟨_, rfl⟩

theorem follows_steps {steps : Document} (hsteps : ∃ rest, steps = .text "    steps:" :: rest)
    (tail : Document) : Follows (steps ++ tail) := by
  obtain ⟨rest, rfl⟩ := hsteps
  have hword : "    steps:".toList = List.replicate 4 ' ' ++ 's' :: "teps:".toList := rfl
  refine follows_of_indent (k := 4) (c := 's') (by decide) (by decide) (by decide) (by decide)
    rfl ?_
  rw [List.cons_append, toList_render_cons, Piece.render, hword, List.append_assoc,
    List.cons_append]
  exact ⟨_, rfl⟩

/-- What a job over accepted cells writes: an entry for each cell, then its steps. -/
structure WritesEntries (m : SupportMatrix) (job : Job) : Prop where
  entry : ∀ cell ∈ job.cells, ∃ extra, Extra cell extra ∧ job.entry cell = includeEntry m cell extra
  entries : ∀ cell, ∃ extra, job.entry cell = includeEntry m cell extra
  cells : ∀ cell ∈ job.cells, cell ∈ m.cells
  steps : ∃ rest, job.steps = .text "    steps:" :: rest

theorem writesEntries_sourceJob (id condition : String) (lane : Lane) (shape : JobShape) :
    WritesEntries m (sourceJob m id condition shape (laneCells m lane shape)) where
  entry := by
    intro cell hcell
    refine ⟨_, .source shape fun hshape => ?_, rfl⟩
    have hcases := jobShape_cases cell
    rw [(mem_laneCells.mp hcell).2.2.2] at hcases
    cases shape with
    | bundle => exact absurd rfl hshape
    | workspace => exact hcases.1
    | workspaceRuntimeFree => exact hcases.1
    | workspaceGraph => exact hcases
  entries := fun _ => ⟨_, rfl⟩
  cells := fun _ hcell => (mem_laneCells.mp hcell).1
  steps := by cases shape <;> exact ⟨_, rfl⟩

theorem writesEntries_supportJob (h : Accepted catalog m) (id event : String) (lane : Lane) :
    WritesEntries m (supportJob m id event (supportLane m lane)) where
  entry := by
    intro cell hcell
    obtain ⟨hmem, hsupport, -⟩ := mem_supportLane.mp hcell
    have hplugin := (h.cells cell hmem).plugin
    rw [validatePluginArtifact] at hplugin
    cases hsome : cell.pluginArtifact with
    | none =>
      rw [hsome, Result.failIf_ok, hsupport] at hplugin
      exact absurd (by decide) hplugin
    | some plugin =>
      refine ⟨_, .support plugin hsome, ?_⟩
      show includeEntry m cell [⟨.pluginArtifact, .plain (cell.pluginArtifact.getD "")⟩] = _
      rw [hsome]
      rfl
  entries := fun _ => ⟨_, rfl⟩
  cells := fun _ hcell => (mem_supportLane.mp hcell).1
  steps := ⟨_, rfl⟩

theorem writesEntries_candidateJob (release : ReleaseLane) (policy : String) :
    WritesEntries m (candidateJob m release policy) where
  entry := fun _ _ => ⟨_, .source .bundle fun hshape => absurd rfl hshape, rfl⟩
  entries := fun _ => ⟨_, rfl⟩
  cells := fun _ hcell => (List.mem_filter.mp hcell).1
  steps := ⟨_, rfl⟩

/-- Every job of the generated workflows that is a matrix over cells. -/
theorem writesEntries_of_mem (h : Accepted catalog m) (mode : SourceWorkflowMode) {job : Job}
    (hjob : job ∈ workflowJobs m mode ++ releaseJobs m) : WritesEntries m job := by
  rcases List.mem_append.mp hjob with hjob | hjob
  · rcases List.mem_append.mp hjob with hjob | hjob
    · obtain ⟨lane, id, event, rfl, -⟩ := mem_supportJobs hjob
      exact writesEntries_supportJob h id event lane
    · obtain ⟨lane, id, condition, shape, rfl, -⟩ := mem_sourceJobs hjob
      exact writesEntries_sourceJob id condition lane shape
  · unfold releaseJobs at hjob
    split at hjob
    · next release policy hrelease hpolicy =>
      obtain rfl := List.mem_singleton.mp hjob
      exact writesEntries_candidateJob release policy
    · cases hjob

theorem WritesEntries.follows {job : Job} (h : WritesEntries m job) (after : List SupportCell)
    (tail : Document) :
    Follows ((after.map job.entry).flatMap Entry.pieces ++ job.steps ++ tail) := by
  cases after with
  | nil => exact follows_steps h.steps tail
  | cons next rest =>
    obtain ⟨extra, hentry⟩ := h.entries next
    rw [List.map_cons, List.flatMap_cons, hentry, List.append_assoc, List.append_assoc]
    exact follows_entry _

/-- The entry of a cell, with the document going on after it, is read back exactly when the name,
the platform, the profile, the runner profile and the bundle that it writes keep their texts. -/
theorem entryReadBack_iff (h : m.validate catalog = .ok ()) (numbers : NumberText)
    (mode : SourceWorkflowMode) {job : Job} (hjob : job ∈ workflowJobs m mode ++ releaseJobs m)
    {before after : List SupportCell} (hcells : job.cells = before ++ cell :: after)
    (tail : Document) :
    EntryReadBack numbers (job.entry cell)
        ((after.map job.entry).flatMap Entry.pieces ++ job.steps ++ tail) ↔
      ∀ s ∈ freeTexts cell (job.entry cell), KeepsText numbers s := by
  have haccepted := SupportMatrix.accepted_of_validate h
  have hwrites := writesEntries_of_mem haccepted mode hjob
  have hcell : cell ∈ job.cells := by simp [hcells]
  obtain ⟨extra, hextra, hentry⟩ := hwrites.entry cell hcell
  rw [hentry]
  exact entryReadBack_includeEntry haccepted (hwrites.cells cell hcell) hextra
    (hwrites.follows after tail)

/-! ### A cell that is read back, and one that is not -/

/-- Words of number characters as they are, anything else as a number that is not finite. -/
def plainNumbers : NumberText where
  print v := if v ≠ [] ∧ v.all fun c => c.isAlphanum || ['+', '-', '.'].contains c then v
    else ['N', 'a', 'N']
  print_nat := by
    intro n _
    have hdigits : ∀ c ∈ n.repr.toList, c.isDigit := fun c hc => by
      rw [Nat.toList_repr] at hc
      exact Nat.isDigit_of_mem_toDigits (by decide) (by decide) hc
    have hne : n.repr.toList ≠ [] := by
      rw [Nat.toList_repr]
      exact Nat.toDigits_ne_nil
    refine if_pos ⟨hne, List.all_eq_true.mpr fun c hc => ?_⟩
    rw [isAlphanum_of_isDigit (hdigits c hc), Bool.true_or]
  print_ne_nil v := by
    split
    · next h => exact h.1
    · decide
  print_chars v := by
    split
    · next h =>
      intro c hc
      simpa using List.all_eq_true.mp h.2 c hc
    · exact Ascii.forall_mem_of_all (by decide)

/-- The only cell of a matrix that builds a workspace graph without a runtime has its entry in a
job of the source workflow. -/
theorem exists_graphJob (name : String) : ∃ job ∈ workflowJobs (bareMatrix [graphCell name none])
    .direct ++ releaseJobs (bareMatrix [graphCell name none]),
      job.cells = [] ++ graphCell name none :: [] ∧
        job.entry (graphCell name none) = includeEntry (bareMatrix [graphCell name none])
          (graphCell name none) (workspaceGraphIncludeKeys (graphCell name none)) :=
  ⟨sourceJob (bareMatrix [graphCell name none]) "pr-workspace-graph"
      "github.event_name == 'pull_request'" .workspaceGraph [graphCell name none],
    List.mem_cons_self, rfl, rfl⟩

theorem entryReadBack_plainGraph : ∃ job ∈ workflowJobs plainGraph .direct ++
    releaseJobs plainGraph, job.cells = [] ++ graphCell "free" none :: [] ∧
      EntryReadBack plainNumbers (job.entry (graphCell "free" none)) (job.steps ++ []) := by
  obtain ⟨job, hjob, hcells, hentry⟩ := exists_graphJob "free"
  have hvalid : plainGraph.validate (.ok []) = .ok () := by decide
  refine ⟨job, hjob, hcells, (entryReadBack_iff hvalid plainNumbers .direct hjob hcells []).mpr ?_⟩
  have hfree : freeTexts (graphCell "free" none) (job.entry (graphCell "free" none)) =
      ["free", "cy2026", "usd"] := by
    rw [hentry, freeTexts, keys_includeEntry]
    decide
  rw [hfree]
  simp only [List.forall_mem_cons]
  exact ⟨keepsText_of_str (by decide) (by decide), keepsText_of_str (by decide) (by decide),
    keepsText_of_str (by decide) (by decide), fun s hs => by cases hs⟩

/-- A cell may be named `null`, which is read back as no text at all. -/
theorem entryReadBack_fails : ¬ ∀ (catalog : Catalog) (m : SupportMatrix) (numbers : NumberText)
    (mode : SourceWorkflowMode) (job : Job) (before : List SupportCell) (cell : SupportCell)
    (after : List SupportCell) (tail : Document), m.validate catalog = .ok () →
      job ∈ workflowJobs m mode ++ releaseJobs m → job.cells = before ++ cell :: after →
      EntryReadBack numbers (job.entry cell)
        ((after.map job.entry).flatMap Entry.pieces ++ job.steps ++ tail) := by
  intro hall
  obtain ⟨job, hjob, hcells, hentry⟩ := exists_graphJob "null"
  have hvalid : (bareMatrix [graphCell "null" none]).validate (.ok []) = .ok () := by decide
  have hread := hall _ _ plainNumbers .direct job [] _ [] [] hvalid hjob hcells
  have haccepted := SupportMatrix.accepted_of_validate hvalid
  have hfollows := (writesEntries_of_mem haccepted .direct hjob).follows [] []
  rw [hentry] at hread
  have hkeeps := (entryReadBack_includeEntry haccepted List.mem_cons_self
    (.source .workspaceGraph fun _ => rfl) hfollows).mp hread
  have hnull := (hkeeps "null" List.mem_cons_self).2
  have hresolve : Yaml.resolve "null".toList = .null := by decide
  rw [hresolve] at hnull
  cases hnull

end Accepted

end OpenStrata.Ci
