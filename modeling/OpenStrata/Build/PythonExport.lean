import OpenStrata.Build.ExternalBuild
import OpenStrata.Lib.Replace
import OpenStrata.Transport.Challenge

/-!
# Exported Python paths

The producer's Python paths in the CMake files of an exported runtime. A line that assigns one of
the Python variables an absolute path becomes a comment; in every other line the assigned paths
are exchanged for references to their variables, in the spelling of the assignment and with either
separator. The files stay as they are: what is returned is the new text of each file that changes.

## Main definitions

* `producerPythonAssignment`: the variable and the path that a line assigns
* `relocatablePythonCmakeOverrides`: the new texts by archive path
* `Exported`: line by line, a comment for an assignment and references for paths

## Main results

* `relocatablePythonCmakeOverrides_exported`: what is exported, with no producer path left
-/

namespace OpenStrata

/-- The lines with the line feeds that end them. -/
def Text.splitInclusiveList : List Char → List (List Char)
  | [] => []
  | c :: cs =>
    if c = '\n' then [c] :: Text.splitInclusiveList cs
    else match Text.splitInclusiveList cs with
      | [] => [[c]]
      | line :: rest => (c :: line) :: rest

/-- `str::split_inclusive` at line feeds. -/
def Text.splitInclusive (s : String) : List String :=
  (Text.splitInclusiveList s.toList).map String.ofList

/-- `str::replace` of a text that is not empty. -/
def Text.replace (old new s : String) : String :=
  String.ofList (Replace.replace old.toList new.toList s.toList)

/-- `Utf8Path::extension`. -/
def Path.extension (os : Os) (path : String) : Option String :=
  match (Path.components os path).getLast? with
  | none => none
  | some name =>
    if name = ".." then none
    else match Text.rsplitOnce '.' name with
      | none => none
      | some (stem, extension) => if stem = "" then none else some extension

namespace Build.PythonExport

/-! ## Assignments -/

/-- A drive-rooted or POSIX-absolute path with real content. -/
def isAbsolutePath (s : String) : Bool :=
  match s.toList with
  | '/' :: _ :: _ => true
  | drive :: ':' :: '/' :: _ :: _ => drive.isAlpha
  | _ => false

def VARIABLES : List String :=
  ["Python3_EXECUTABLE", "Python3_LIBRARY", "Python3_INCLUDE_DIR", "Python3_INCLUDE_DIRS",
    "Python_EXECUTABLE", "Python_LIBRARY", "Python_INCLUDE_DIR", "Python_INCLUDE_DIRS"]

/-- What stands before the first `d`. -/
def before (d s : String) : String := ((Text.splitOnce d s).map (·.1)).getD s

/-- `split_whitespace().next()`. -/
def firstWord (s : String) : Option String :=
  match s.toList.dropWhile Text.isWhitespace with
  | [] => none
  | cs => some (String.ofList (cs.takeWhile fun c => !Text.isWhitespace c))

/-- The value of an assignment: bracketed, quoted, or up to white space. -/
def assignedValue (rest : String) : Option String :=
  match Text.stripPrefix "[[" rest with
  | some rest => some (before "]]" rest)
  | none =>
    match Text.stripPrefix "\"" rest with
    | some rest => some (before "\"" rest)
    | none => firstWord rest

/-- White space follows the name at the start of the text. -/
def startsWithName (body name : String) : Bool :=
  ((Text.stripPrefix name body).bind fun rest => rest.toList.head?).any Text.isWhitespace

def producerPythonAssignment (line : String) : Option (String × String) := do
  let body ← Text.stripPrefix "set(" (Text.trim line)
  let name ← VARIABLES.find? (startsWithName body)
  let value ← assignedValue
    (Text.trimStart (String.ofList (body.toList.drop name.toList.length)))
  if isAbsolutePath (Path.slashed value) then some (name, value) else none

/-! ## Texts -/

/-- The reference to a variable. -/
def reference (name : String) : String := "$\x7b" ++ name ++ "\x7d"

/-- A path as it was assigned, with forward slashes, and with backslashes. -/
def spellings (path : String) : List String :=
  [path, Path.slashed path, Text.replaceChar '/' '\\' path]

/-- The comment in place of an assignment. -/
def removal (name line : String) : String :=
  let newline := if Text.endsWith "\r\n" line then "\r\n" else if Text.endsWith "\n" line then "\n"
    else ""
  String.ofList (line.toList.takeWhile Text.isWhitespace) ++ "# OpenStrata export: producer " ++
    name ++ " removed; resolve it on the consumer." ++ newline

/-- The line with one path exchanged for its variable. -/
def exchangePath (line : String) (item : String × String) : String :=
  (spellings item.1).foldl (fun line spelling =>
    if spelling.isEmpty then line else Text.replace spelling (reference item.2) line) line

/-- A line of the output. -/
def exportLine (producerPaths : List (String × String)) (line : String) : String :=
  match producerPythonAssignment line with
  | some (name, _) => removal name line
  | none => producerPaths.foldl exchangePath line

def exportText (producerPaths : List (String × String)) (source : String) : String :=
  String.join ((Text.splitInclusive source).map (exportLine producerPaths))

/-! ## Files -/

section Files

variable (os : Os) (readToString : String → Except String String) (root : String)

def cmakeFiles (files : List String) : List String :=
  files.filter fun file => Path.extension os file == some "cmake"

/-- The paths assigned in a text, each with its variable. -/
def assignments (source : String) : List (String × String) :=
  ((Text.lines source).filterMap producerPythonAssignment).map Prod.swap

/-- The variables by the paths assigned to them. -/
def producerPaths : List String → List (String × String) → Except String (List (String × String))
  | [], paths => .ok paths
  | file :: files, paths => do
    let source ← readToString file
    producerPaths files (KeyMap.insertAll (assignments source) paths)

/-- The overrides with those of the files added. -/
def addOverrides (paths : List (String × String)) :
    List String → List (String × String) → Except String (List (String × String))
  | [], overrides => .ok overrides
  | file :: files, overrides => do
    let source ← readToString file
    let output := exportText paths source
    if output = source then addOverrides paths files overrides
    else match Path.stripPrefix os root file with
      | none => .error "prefix not found"
      | some relative => addOverrides paths files (KeyMap.insert relative output overrides)

def relocatablePythonCmakeOverrides (files : List String) :
    Except String (List (String × String)) := do
  let paths ← producerPaths readToString (cmakeFiles os files) []
  if paths.isEmpty then .ok []
  else addOverrides os readToString root paths (cmakeFiles os files) []

end Files

/-! ## What is exported -/

/-- Some CMake file assigns the path to the variable. -/
def Assigned (os : Os) (readToString : String → Except String String) (files : List String)
    (path name : String) : Prop :=
  ∃ file ∈ cmakeFiles os files, ∃ source, readToString file = .ok source ∧
    (path, name) ∈ assignments source

/-- A piece of an exported line: a character of the original, or the reference in place of a
path. -/
inductive Piece
  | char (c : Char)
  | reference (path name : String)

namespace Piece

def exported : Piece → List Char
  | .char c => [c]
  | .reference _ name => (PythonExport.reference name).toList

/-- The piece with the path put back. -/
def restored : Piece → List Char
  | .char c => [c]
  | .reference path _ => path.toList

end Piece

section Exported

variable (Producer : String → String → Prop)

/-- What becomes of a line: an assignment becomes a comment, and any other line is, up to
separators, the exported one with the paths put back. -/
inductive ExportedLine (line : String) : String → Prop
  | removed {name value : String} (h : producerPythonAssignment line = some (name, value)) :
    ExportedLine line (removal name line)
  | rewritten (h : producerPythonAssignment line = none) (pieces : List Piece)
    (hpieces : ∀ path name, Piece.reference path name ∈ pieces → Producer path name)
    (hline : Path.slashed line = Path.slashed (String.ofList (pieces.flatMap Piece.restored))) :
    ExportedLine line (String.ofList (pieces.flatMap Piece.exported))

/-- No producer path is in the text, in any of its spellings. -/
def Relocatable (text : String) : Prop :=
  ∀ path name, Producer path name → ∀ spelling ∈ spellings path,
    ¬ spelling.toList <:+: text.toList

/-- The text that a source is exported as. -/
structure Exported (source text : String) : Prop where
  lines : ∃ lines, List.Forall₂ (ExportedLine Producer) (Text.splitInclusive source) lines ∧
    text = String.join lines
  relocatable : Relocatable Producer text

end Exported

/-! ## Spellings -/

/-- A text with a separator that starts with one, or with a drive. -/
def Rooted (l : List Char) : Prop :=
  (∃ c ∈ l, c = '/' ∨ c = '\\') ∧
    ∃ c rest, l = c :: rest ∧ (c = '/' ∨ c = '\\' ∨ (c.isAlpha ∧ rest.head? = some ':'))

/-- An exchange of separators leaves a rooted text rooted. -/
theorem Rooted.map {f : Char → Char} (hf : ∀ c, c ≠ '/' → c ≠ '\\' → f c = c)
    (hsep : ∀ c, c = '/' ∨ c = '\\' → f c = '/' ∨ f c = '\\') {l : List Char} (h : Rooted l) :
    Rooted (l.map f) := by
  obtain ⟨⟨d, hd, hds⟩, c, rest, rfl, hc⟩ := h
  refine ⟨⟨f d, List.mem_map_of_mem hd, hsep d hds⟩, f c, rest.map f, rfl, ?_⟩
  rcases hc with hc | hc | ⟨hc, hrest⟩
  · exact (hsep c (Or.inl hc)).imp id Or.inl
  · exact (hsep c (Or.inr hc)).imp id Or.inl
  · have hcs : f c = c := hf c (by rintro rfl; simp at hc) (by rintro rfl; simp at hc)
    refine Or.inr (Or.inr ⟨by rwa [hcs], ?_⟩)
    rw [List.head?_map, hrest, Option.map_some, hf ':' (by decide) (by decide)]

theorem rooted_of_isAbsolutePath {path : String} (h : isAbsolutePath path) :
    Rooted path.toList := by
  rw [isAbsolutePath] at h
  split at h
  · rename_i c rest heq
    rw [heq]
    exact ⟨⟨'/', List.mem_cons_self, Or.inl rfl⟩, '/', c :: rest, rfl, Or.inl rfl⟩
  · rename_i drive c rest _ heq
    rw [heq]
    exact ⟨⟨'/', by simp, Or.inl rfl⟩, drive, _, rfl, Or.inr (Or.inr ⟨h, rfl⟩)⟩
  · cases h

theorem rooted_of_slashed {path : String} (h : Rooted (Path.slashed path).toList) :
    Rooted path.toList := by
  have hslash : ∀ c : Char, (if c = '\\' then '/' else c) = '/' ∨
      (if c = '\\' then '/' else c) = '\\' → c = '/' ∨ c = '\\' := by
    intro c hc
    split_ifs at hc with h
    · exact Or.inr h
    · exact hc
  rw [Path.toList_slashed] at h
  obtain ⟨⟨e, he, hes⟩, c, rest, hl, hc⟩ := h
  obtain ⟨d, hd, rfl⟩ := List.mem_map.mp he
  refine ⟨⟨d, hd, hslash d hes⟩, ?_⟩
  obtain ⟨c, rest, hpath, rfl, rfl⟩ := List.map_eq_cons_iff.mp hl
  refine ⟨c, rest, hpath, ?_⟩
  rcases hc with hc | hc | ⟨hc, hrest⟩
  · exact (hslash c (Or.inl hc)).imp id Or.inl
  · exact (hslash c (Or.inr hc)).imp id Or.inl
  · by_cases hcs : c = '\\'
    · exact Or.inr (Or.inl hcs)
    · rw [if_neg hcs] at hc
      refine Or.inr (Or.inr ⟨hc, ?_⟩)
      rw [List.head?_map] at hrest
      obtain ⟨e, he, heq⟩ := Option.map_eq_some_iff.mp hrest
      split_ifs at heq with hes
      · simp at heq
      · rw [he, heq]

theorem rooted_spelling {path spelling : String} (h : isAbsolutePath (Path.slashed path))
    (hs : spelling ∈ spellings path) : Rooted spelling.toList := by
  have hpath := rooted_of_slashed (rooted_of_isAbsolutePath h)
  simp only [spellings, List.mem_cons, List.not_mem_nil, or_false] at hs
  rcases hs with rfl | rfl | rfl
  · exact hpath
  · exact rooted_of_isAbsolutePath h
  · rw [Text.toList_replaceChar]
    refine hpath.map (fun c hc _ => if_neg hc) ?_
    rintro c (rfl | rfl) <;> decide

/-- A path is not read inside a text without separators and colons that ends in no letter. -/
theorem detached_of_rooted {x p : List Char} (hx : Rooted x)
    (hp : ∀ c ∈ p, c ≠ '/' ∧ c ≠ '\\' ∧ c ≠ ':') (hlast : ∀ c ∈ p.getLast?, ¬ c.isAlpha) :
    Replace.Detached x p := by
  obtain ⟨-, c, rest, rfl, hc⟩ := hx
  intro s v hs hne hpre
  obtain ⟨d, s, rfl⟩ := List.exists_cons_of_ne_nil hne
  obtain ⟨rfl, htail⟩ := List.cons_prefix_cons.mp hpre
  have hmem := hp c (hs.subset List.mem_cons_self)
  rcases hc with hc | hc | ⟨hc, hrest⟩
  · exact hmem.1 hc
  · exact hmem.2.1 hc
  · cases s with
    | nil =>
      refine hlast c ?_ hc
      obtain ⟨before, rfl⟩ := hs
      simp
    | cons e s =>
      obtain ⟨rest', rfl⟩ : ∃ rest', rest = ':' :: rest' := by
        cases rest with
        | nil => simp at hrest
        | cons f rest' => exact ⟨rest', by simpa using hrest⟩
      have hcolon : ':' = e := (List.cons_prefix_cons.mp htail).1
      exact (hp e (hs.subset (by simp))).2.2 hcolon.symm

/-! ## Assignments read back -/

theorem mem_of_trim {s : String} {c : Char} (h : c ∈ (Text.trim s).toList) : c ∈ s.toList := by
  rw [Text.trim, String.toList_ofList, List.mem_reverse] at h
  have h := (List.dropWhile_suffix _).subset h
  exact (List.dropWhile_suffix _).subset (List.mem_reverse.mp h)

theorem mem_of_stripPrefix {p s rest : String} {c : Char} (h : Text.stripPrefix p s = some rest)
    (hc : c ∈ rest.toList) : c ∈ s.toList := by
  rw [Text.stripPrefix_eq_some.mp h, String.toList_append]
  exact List.mem_append_right _ hc

theorem mem_of_before {d s : String} {c : Char} (hd : d ≠ "") (h : c ∈ (before d s).toList) :
    c ∈ s.toList := by
  rw [before] at h
  cases hs : Text.splitOnce d s with
  | none =>
    rw [hs] at h
    exact h
  | some parts =>
    rw [hs] at h
    rw [Text.splitOnce_eq hd hs, String.toList_append, String.toList_append]
    exact List.mem_append_left _ (List.mem_append_left _ h)

theorem mem_of_assignedValue {rest value : String} {c : Char} (h : assignedValue rest = some value)
    (hc : c ∈ value.toList) : c ∈ rest.toList := by
  rw [assignedValue] at h
  split at h
  · rename_i inner hinner
    obtain rfl := Option.some.inj h
    exact mem_of_stripPrefix hinner (mem_of_before (by decide) hc)
  · split at h
    · rename_i inner hinner
      obtain rfl := Option.some.inj h
      exact mem_of_stripPrefix hinner (mem_of_before (by decide) hc)
    · rw [firstWord] at h
      split at h
      · cases h
      · obtain rfl := Option.some.inj h
        rw [String.toList_ofList] at hc
        exact (List.dropWhile_suffix _).subset ((List.takeWhile_prefix _).subset hc)

/-- A line assigns an absolute path that stands in it to one of the variables. -/
theorem producerPythonAssignment_some {line name value : String}
    (h : producerPythonAssignment line = some (name, value)) :
    name ∈ VARIABLES ∧ isAbsolutePath (Path.slashed value) ∧
      ∀ c ∈ value.toList, c ∈ line.toList := by
  simp only [producerPythonAssignment, Option.bind_eq_bind, Option.bind_eq_some_iff] at h
  obtain ⟨body, hbody, found, hfound, v, hv, h⟩ := h
  split_ifs at h with habs
  cases h
  refine ⟨List.mem_of_find?_eq_some hfound, habs, fun c hc => ?_⟩
  have hc := mem_of_assignedValue hv hc
  rw [Text.trimStart, String.toList_ofList, String.toList_ofList] at hc
  have hc := List.mem_of_mem_drop ((List.dropWhile_suffix _).subset hc)
  exact mem_of_trim (mem_of_stripPrefix hbody hc)

/-- What an assignment of a text says. -/
structure Assignment (path name : String) : Prop where
  name_mem : name ∈ VARIABLES
  absolute : isAbsolutePath (Path.slashed path)
  newline : '\n' ∉ path.toList

theorem assignment_of_mem {source path name : String} (h : (path, name) ∈ assignments source) :
    Assignment path name := by
  obtain ⟨⟨name', path'⟩, hitem, heq⟩ := List.mem_map.mp h
  obtain ⟨rfl, rfl⟩ := Prod.mk.inj heq
  obtain ⟨line, hline, hassign⟩ := List.mem_filterMap.mp hitem
  obtain ⟨hname, habs, hmem⟩ := producerPythonAssignment_some hassign
  exact ⟨hname, habs, fun hn => ExternalBuild.newline_not_mem_lines hline (hmem _ hn)⟩

/-! ## A line -/

/-- The replacements in a line that is no assignment. -/
def replacements (paths : List (String × String)) : List (List Char × List Char) :=
  paths.flatMap fun item => ((spellings item.1).filter fun spelling => !spelling.isEmpty).map
    fun spelling => (spelling.toList, (reference item.2).toList)

theorem mem_replacements {paths : List (String × String)} {step : List Char × List Char} :
    step ∈ replacements paths ↔ ∃ path name, (path, name) ∈ paths ∧
      ∃ spelling ∈ spellings path, spelling ≠ "" ∧
        step = (spelling.toList, (reference name).toList) := by
  simp only [replacements, List.mem_flatMap, List.mem_map, List.mem_filter, Prod.exists]
  constructor
  · rintro ⟨path, name, hitem, spelling, ⟨hs, hne⟩, rfl⟩
    exact ⟨path, name, hitem, spelling, hs, by simpa using hne, rfl⟩
  · rintro ⟨path, name, hitem, spelling, hs, hne, rfl⟩
    exact ⟨path, name, hitem, spelling, ⟨hs, by simpa using hne⟩, rfl⟩

theorem toList_exchangePath (item : String × String) (line : String) :
    (exchangePath line item).toList = Replace.replaceAll (replacements [item]) line.toList := by
  have hspellings : ∀ (texts : List String) (line : String),
      (texts.foldl (fun line spelling =>
        if spelling.isEmpty then line else Text.replace spelling (reference item.2) line)
        line).toList =
      Replace.replaceAll ((texts.filter fun spelling => !spelling.isEmpty).map
        fun spelling => (spelling.toList, (reference item.2).toList)) line.toList := by
    intro texts
    induction texts with
    | nil => exact fun _ => rfl
    | cons spelling texts ih =>
      intro line
      rw [List.foldl_cons, ih]
      by_cases he : spelling.isEmpty
      · simp [he]
      · simp [he, Replace.replaceAll, Text.replace]
  rw [exchangePath, hspellings, replacements, List.flatMap_singleton]

theorem toList_foldl_exchangePath (paths : List (String × String)) (line : String) :
    (paths.foldl exchangePath line).toList =
      Replace.replaceAll (replacements paths) line.toList := by
  induction paths generalizing line with
  | nil => rfl
  | cons item paths ih =>
    have happend : replacements (item :: paths) = replacements [item] ++ replacements paths := by
      rw [replacements, List.flatMap_cons, replacements, List.flatMap_singleton]
      rfl
    rw [List.foldl_cons, ih, happend, toList_exchangePath, Replace.replaceAll,
      Replace.replaceAll, Replace.replaceAll, List.foldl_append]

theorem toList_reference (name : String) :
    (reference name).toList = '$' :: '\x7b' :: (name.toList ++ ['\x7d']) := by
  rw [reference, String.toList_append, String.toList_append]
  rfl

theorem variables_chars : ∀ name ∈ VARIABLES, ∀ c ∈ name.toList, c.isAlphanum || c == '_' := by
  have h : VARIABLES.all (Text.all fun c => c.isAlphanum || c == '_') = true := by decide +kernel
  exact fun name hname => List.all_eq_true.mp (List.all_eq_true.mp h name hname)

theorem ne_of_name {c d : Char} (h : (c.isAlphanum || c == '_') = true)
    (hd : (d.isAlphanum || d == '_') = false) : c ≠ d := by
  rintro rfl
  rw [h] at hd
  cases hd

theorem mem_reference {name : String} (hname : name ∈ VARIABLES) {c : Char}
    (hc : c ∈ (reference name).toList) : c ≠ '/' ∧ c ≠ '\\' ∧ c ≠ ':' ∧ c ≠ '\n' := by
  rw [toList_reference] at hc
  simp only [List.mem_cons, List.mem_append, List.not_mem_nil, or_false] at hc
  rcases hc with rfl | rfl | hc | rfl
  · decide
  · decide
  · have h := variables_chars name hname c hc
    exact ⟨ne_of_name h (by decide), ne_of_name h (by decide), ne_of_name h (by decide),
      ne_of_name h (by decide)⟩
  · decide

section Line

variable {paths : List (String × String)}

theorem not_mem_spelling {path spelling : String} {c : Char} (hc : c ≠ '/') (hc' : c ≠ '\\')
    (h : c ∉ path.toList) (hs : spelling ∈ spellings path) : c ∉ spelling.toList := by
  have hreplace : ∀ a b : Char, c ≠ b → c ∉ (Text.replaceChar a b path).toList := by
    intro a b hb hm
    rw [Text.toList_replaceChar] at hm
    obtain ⟨d, hd, heq⟩ := List.mem_map.mp hm
    split_ifs at heq
    · exact hb heq.symm
    · exact h (heq ▸ hd)
  simp only [spellings, List.mem_cons, List.not_mem_nil, or_false] at hs
  rcases hs with rfl | rfl | rfl
  · exact h
  · exact hreplace _ _ hc
  · exact hreplace _ _ hc'

theorem slashed_spelling {path spelling : String} (hs : spelling ∈ spellings path) :
    Path.slashed spelling = Path.slashed path := by
  simp only [spellings, List.mem_cons, List.not_mem_nil, or_false] at hs
  rcases hs with rfl | rfl | rfl
  · rfl
  · exact Path.slashed_eq_self (Path.backslash_not_mem_slashed path)
  · rw [← String.toList_inj]
    simp only [Path.toList_slashed, Text.toList_replaceChar, List.map_map]
    refine List.map_congr_left fun c _ => ?_
    by_cases hc : c = '/'
    · subst hc
      decide
    · rw [Function.comp_apply, if_neg hc]

/-- The references begin with a dollar sign, which is in no path. -/
theorem marked_replacements (hpaths : ∀ path name, (path, name) ∈ paths → Assignment path name)
    (hdollar : ∀ path name, (path, name) ∈ paths → '$' ∉ path.toList) :
    Replace.Marked '$' (replacements paths) where
  ne_nil step hstep := by
    obtain ⟨path, name, -, spelling, -, hne, rfl⟩ := mem_replacements.mp hstep
    exact fun h => hne (String.toList_eq_nil_iff.mp h)
  head step hstep := by
    obtain ⟨path, name, -, spelling, -, -, rfl⟩ := mem_replacements.mp hstep
    rw [toList_reference]
    rfl
  not_mem step hstep := by
    obtain ⟨path, name, hitem, spelling, hs, -, rfl⟩ := mem_replacements.mp hstep
    exact not_mem_spelling (by decide) (by decide) (hdollar path name hitem) hs
  detached step hstep other hother := by
    obtain ⟨path, name, hitem, spelling, hs, -, rfl⟩ := mem_replacements.mp hstep
    obtain ⟨path', name', hitem', spelling', -, -, rfl⟩ := mem_replacements.mp hother
    refine detached_of_rooted (rooted_spelling (hpaths path name hitem).absolute hs) ?_ ?_
    · intro c hc
      have h := mem_reference (hpaths path' name' hitem').name_mem hc
      exact ⟨h.1, h.2.1, h.2.2.1⟩
    · intro c hc
      have hlast : (reference name').toList.getLast? = some '\x7d' := by
        rw [toList_reference]
        simp [List.getLast?_cons]
      obtain rfl : c = '\x7d' := by
        rw [hlast] at hc
        exact (Option.some.inj hc).symm
      decide

/-- An exchange of paths for references, piece by piece. -/
theorem exists_pieces {line line' : List Char}
    (h : Replace.Exchange (fun old new => (old, new) ∈ replacements paths) line line') :
    ∃ pieces : List Piece,
      (∀ path name, Piece.reference path name ∈ pieces → (path, name) ∈ paths) ∧
      Path.slashed (String.ofList line) =
        Path.slashed (String.ofList (pieces.flatMap Piece.restored)) ∧
      line' = pieces.flatMap Piece.exported := by
  induction h with
  | nil => exact ⟨[], by simp, rfl, rfl⟩
  | @keep c l l' _ ih =>
    obtain ⟨pieces, hpieces, hline, rfl⟩ := ih
    refine ⟨.char c :: pieces, ?_, ?_, rfl⟩
    · intro path name hmem
      rcases List.mem_cons.mp hmem with heq | hmem
      · cases heq
      · exact hpieces path name hmem
    · have hcons : ∀ l : List Char, String.ofList (c :: l) = String.ofList [c] ++ String.ofList l :=
        fun l => by rw [← String.ofList_append]; rfl
      rw [hcons, Path.slashed_append, hline, ← Path.slashed_append, ← hcons]
      rfl
  | @swap old new l l' hR _ ih =>
    obtain ⟨pieces, hpieces, hline, rfl⟩ := ih
    obtain ⟨path, name, hitem, spelling, hs, -, heq⟩ := mem_replacements.mp hR
    obtain ⟨rfl, rfl⟩ := Prod.mk.inj heq
    refine ⟨.reference path name :: pieces, ?_, ?_, rfl⟩
    · intro path' name' hmem
      rcases List.mem_cons.mp hmem with heq | hmem
      · cases heq
        exact hitem
      · exact hpieces path' name' hmem
    · have hslashed : Path.slashed spelling = Path.slashed path := slashed_spelling hs
      rw [String.ofList_append, Path.slashed_append, String.ofList_toList, hslashed, hline,
        ← Path.slashed_append, List.flatMap_cons, String.ofList_append]
      congr 2
      exact String.ofList_toList.symm

/-- No path is in the comment that stands for an assignment. -/
theorem not_infix_removal {path spelling name line : String} (hname : name ∈ VARIABLES)
    (hpath : Assignment path name') (hs : spelling ∈ spellings path) :
    ¬ spelling.toList <:+: (removal name line).toList := by
  intro h
  obtain ⟨⟨c, hc, hsep⟩, -⟩ := rooted_spelling hpath.absolute hs
  have hplain : ∀ d : Char, d = '/' ∨ d = '\\' → d ∉ (removal name line).toList := by
    intro d hd hm
    rw [removal] at hm
    simp only [String.toList_append, List.mem_append, String.toList_ofList] at hm
    have hspace : Text.isWhitespace d = false := by rcases hd with rfl | rfl <;> decide
    rcases hm with (((hm | hm) | hm) | hm) | hm
    · rw [List.mem_takeWhile_imp hm] at hspace
      cases hspace
    · rcases hd with rfl | rfl <;> exact absurd hm (by decide)
    · have hn := variables_chars name hname d hm
      rcases hd with rfl | rfl <;> exact absurd hn (by decide)
    · rcases hd with rfl | rfl <;> exact absurd hm (by decide)
    · rcases hd with rfl | rfl <;> (split_ifs at hm <;> exact absurd hm (by decide))
  exact hplain c hsep (h.subset hc)

theorem exportLine_of_assignment {line name value : String}
    (h : producerPythonAssignment line = some (name, value)) :
    exportLine paths line = removal name line := by
  simp only [exportLine, h]

theorem exportLine_of_none {line : String} (h : producerPythonAssignment line = none) :
    exportLine paths line = paths.foldl exchangePath line := by
  simp only [exportLine, h]

/-- What a line is exported as. -/
theorem exportLine_exported {Producer : String → String → Prop}
    (hpaths : ∀ path name, (path, name) ∈ paths → Assignment path name)
    (hproducer : ∀ path name, (path, name) ∈ paths → Producer path name)
    (hdollar : ∀ path name, (path, name) ∈ paths → '$' ∉ path.toList) (line : String) :
    ExportedLine Producer line (exportLine paths line) := by
  cases hassign : producerPythonAssignment line with
  | some item =>
    rw [exportLine_of_assignment hassign]
    exact .removed hassign
  | none =>
    rw [exportLine_of_none hassign]
    obtain ⟨pieces, hpieces, hline, heq⟩ :=
      exists_pieces (Replace.replaceAll_exchange (marked_replacements hpaths hdollar) line.toList)
    rw [← toList_foldl_exchangePath] at heq
    have hexported : paths.foldl exchangePath line =
        String.ofList (pieces.flatMap Piece.exported) := by
      rw [← heq, String.ofList_toList]
    rw [String.ofList_toList] at hline
    rw [hexported]
    exact .rewritten hassign pieces (fun path name hm => hproducer path name (hpieces path name hm))
      hline

/-- No path is left in an exported line. -/
theorem not_infix_exportLine (hpaths : ∀ path name, (path, name) ∈ paths → Assignment path name)
    (hdollar : ∀ path name, (path, name) ∈ paths → '$' ∉ path.toList) {path name : String}
    (hitem : (path, name) ∈ paths) {spelling : String} (hs : spelling ∈ spellings path)
    (line : String) : ¬ spelling.toList <:+: (exportLine paths line).toList := by
  cases hassign : producerPythonAssignment line with
  | some item =>
    rw [exportLine_of_assignment hassign]
    exact not_infix_removal (producerPythonAssignment_some hassign).1 (hpaths path name hitem) hs
  | none =>
    have hne : spelling ≠ "" := by
      rintro rfl
      obtain ⟨⟨c, hc, -⟩, -⟩ := rooted_spelling (hpaths path name hitem).absolute hs
      cases hc
    rw [exportLine_of_none hassign, toList_foldl_exchangePath]
    exact Replace.not_infix_replaceAll (marked_replacements hpaths hdollar)
      (mem_replacements.mpr ⟨path, name, hitem, spelling, hs, hne, rfl⟩) line.toList

/-- An exported line ends as the original does. -/
theorem exportLine_concat (hpaths : ∀ path name, (path, name) ∈ paths → Assignment path name)
    (hdollar : ∀ path name, (path, name) ∈ paths → '$' ∉ path.toList) {line : String}
    {u : List Char} (hline : line.toList = u ++ ['\n']) :
    ∃ u', (exportLine paths line).toList = u' ++ ['\n'] := by
  cases hassign : producerPythonAssignment line with
  | some item =>
    have hend : Text.endsWith "\n" line := by
      rw [Text.endsWith, List.isSuffixOf_iff_suffix, hline]
      exact List.suffix_append _ _
    rw [exportLine_of_assignment hassign, removal, String.toList_append]
    split_ifs
    · exact ⟨_ ++ ['\x0d'], by rw [List.append_assoc]; rfl⟩
    · exact ⟨_, rfl⟩
  | none =>
    rw [exportLine_of_none hassign, toList_foldl_exchangePath]
    refine (Replace.replaceAll_exchange (marked_replacements hpaths hdollar) line.toList).concat
      ?_ u hline
    intro old new hR
    obtain ⟨path, name, hitem, spelling, hs, hne, heq⟩ := mem_replacements.mp hR
    obtain ⟨rfl, -⟩ := Prod.mk.inj heq
    exact ⟨fun h => hne (String.toList_eq_nil_iff.mp h),
      not_mem_spelling (by decide) (by decide) (hpaths path name hitem).newline hs⟩

end Line

/-! ## A text -/

theorem terminated_splitInclusiveList (cs : List Char) :
    ∀ line ∈ (Text.splitInclusiveList cs).dropLast, ∃ u, line = u ++ ['\n'] := by
  induction cs with
  | nil => simp [Text.splitInclusiveList]
  | cons c cs ih =>
    rw [Text.splitInclusiveList]
    split_ifs with hc
    · subst hc
      intro line hline
      cases hcs : Text.splitInclusiveList cs with
      | nil =>
        rw [hcs] at hline
        cases hline
      | cons next rest =>
        rw [hcs, List.dropLast_cons_cons] at hline
        rcases List.mem_cons.mp hline with rfl | hline
        · exact ⟨[], rfl⟩
        · exact ih line (hcs ▸ hline)
    · cases hcs : Text.splitInclusiveList cs with
      | nil => simp
      | cons next rest =>
        rw [hcs] at ih
        cases rest with
        | nil => simp
        | cons other rest =>
          intro line hline
          dsimp only at hline
          rw [List.dropLast_cons_cons] at hline ih
          rcases List.mem_cons.mp hline with rfl | hline
          · obtain ⟨u, rfl⟩ := ih next List.mem_cons_self
            exact ⟨c :: u, rfl⟩
          · exact ih line (List.mem_cons_of_mem _ hline)

theorem toList_exportText (paths : List (String × String)) (source : String) :
    (exportText paths source).toList =
      ((Text.splitInclusiveList source.toList).map fun line =>
        (exportLine paths (String.ofList line)).toList).flatten := by
  rw [exportText, Text.splitInclusive, List.map_map]
  generalize Text.splitInclusiveList source.toList = lines
  induction lines with
  | nil => rfl
  | cons line lines ih =>
    rw [List.map_cons, List.map_cons, List.flatten_cons, ← ih, String.join_cons,
      String.toList_append, Function.comp_apply]

theorem exportText_exported {paths : List (String × String)} {Producer : String → String → Prop}
    (hpaths : ∀ path name, (path, name) ∈ paths → Assignment path name)
    (hproducer : ∀ path name, (path, name) ∈ paths → Producer path name)
    (hall : ∀ path name, Producer path name → path ∈ paths.map (·.1))
    (hdollar : ∀ path name, (path, name) ∈ paths → '$' ∉ path.toList) (source : String) :
    Exported Producer source (exportText paths source) where
  lines := by
    refine ⟨(Text.splitInclusive source).map (exportLine paths), ?_, rfl⟩
    rw [List.forall₂_map_right_iff]
    exact List.forall₂_same.mpr fun line _ => exportLine_exported hpaths hproducer hdollar line
  relocatable := by
    intro path name hP spelling hs h
    obtain ⟨⟨path', name'⟩, hitem, rfl⟩ := List.mem_map.mp (hall path name hP)
    have hassign := hpaths _ _ hitem
    rw [toList_exportText] at h
    have hne : spelling.toList ≠ [] := by
      obtain ⟨⟨c, hc, -⟩, -⟩ := rooted_spelling hassign.absolute hs
      exact List.ne_nil_of_mem hc
    have hnewline : '\n' ∉ spelling.toList :=
      not_mem_spelling (by decide) (by decide) hassign.newline hs
    obtain ⟨out, hout, hin⟩ := Replace.exists_infix_of_flatten hnewline hne (by
      intro out hout
      rw [← List.map_dropLast] at hout
      obtain ⟨line, hline, rfl⟩ := List.mem_map.mp hout
      obtain ⟨u, rfl⟩ := terminated_splitInclusiveList _ line hline
      exact exportLine_concat hpaths hdollar (u := u) (String.toList_ofList)) h
    obtain ⟨line, -, rfl⟩ := List.mem_map.mp hout
    exact not_infix_exportLine hpaths hdollar hitem hs _ hin

/-! ## The files -/

section Files

variable {os : Os} {readToString : String → Except String String} {root : String}
  {files : List String} {paths start overrides : List (String × String)}

theorem producerPaths_spec : ∀ (files : List String) (start : List (String × String)),
    producerPaths readToString files start = .ok paths →
      (∀ item ∈ paths, item ∈ start ∨ ∃ file ∈ files, ∃ source,
        readToString file = .ok source ∧ item ∈ assignments source) ∧
      ∀ path, path ∈ start.map (·.1) ∨ (∃ file ∈ files, ∃ source,
        readToString file = .ok source ∧ path ∈ (assignments source).map (·.1)) →
          path ∈ paths.map (·.1)
  | [], start, h => by
    cases h
    refine ⟨fun item hitem => Or.inl hitem, ?_⟩
    rintro path (h | ⟨file, hfile, -⟩)
    · exact h
    · cases hfile
  | file :: files, start, h => by
    rw [producerPaths] at h
    cases hread : readToString file with
    | error e =>
      rw [hread] at h
      cases h
    | ok source =>
      rw [hread] at h
      obtain ⟨hmem, hkeys⟩ := producerPaths_spec files _ h
      constructor
      · intro item hitem
        rcases hmem item hitem with hstart | ⟨other, hother, hrest⟩
        · rcases KeyMap.mem_insertAll hstart with hnew | hstart
          · exact Or.inr ⟨file, List.mem_cons_self, source, hread, hnew⟩
          · exact Or.inl hstart
        · exact Or.inr ⟨other, List.mem_cons_of_mem _ hother, hrest⟩
      · rintro path (hstart | ⟨other, hother, source', hread', hpath⟩)
        · exact hkeys path (Or.inl (KeyMap.keys_insertAll.mpr (Or.inr hstart)))
        · rcases List.mem_cons.mp hother with rfl | hother
          · rw [hread] at hread'
            cases hread'
            exact hkeys path (Or.inl (KeyMap.keys_insertAll.mpr (Or.inl hpath)))
          · exact hkeys path (Or.inr ⟨other, hother, source', hread', hpath⟩)

/-- Each override is the changed text of a file, and a file without one does not change. -/
theorem addOverrides_spec : ∀ (files : List String) (start : List (String × String)),
    addOverrides os readToString root paths files start = .ok overrides →
      (∀ item ∈ overrides, item ∈ start ∨ ∃ file ∈ files, ∃ source,
        readToString file = .ok source ∧ Path.stripPrefix os root file = some item.1 ∧
          item.2 ≠ source ∧ item.2 = exportText paths source) ∧
      (∀ relative ∈ start.map (·.1), relative ∈ overrides.map (·.1)) ∧
      ∀ file ∈ files, ∀ source, readToString file = .ok source →
        (∀ relative, Path.stripPrefix os root file = some relative →
          relative ∉ overrides.map (·.1)) → exportText paths source = source
  | [], start, h => by
    cases h
    exact ⟨fun item hitem => Or.inl hitem, fun _ h => h, fun file hfile => by cases hfile⟩
  | file :: files, start, h => by
    rw [addOverrides] at h
    cases hread : readToString file with
    | error e =>
      rw [hread] at h
      cases h
    | ok source =>
      rw [hread] at h
      change (if exportText paths source = source then _ else _) = _ at h
      split_ifs at h with hsame
      · obtain ⟨hmem, hkeys, hfiles⟩ := addOverrides_spec files _ h
        refine ⟨fun item hitem => (hmem item hitem).imp id ?_, hkeys, ?_⟩
        · rintro ⟨other, hother, hrest⟩
          exact ⟨other, List.mem_cons_of_mem _ hother, hrest⟩
        · intro other hother source' hread' hnone
          rcases List.mem_cons.mp hother with rfl | hother
          · rw [hread] at hread'
            cases hread'
            exact hsame
          · exact hfiles other hother source' hread' hnone
      · split at h
        · cases h
        · rename_i relative hrelative
          obtain ⟨hmem, hkeys, hfiles⟩ := addOverrides_spec files _ h
          refine ⟨?_, fun r hr => hkeys r (KeyMap.keys_insert.mpr (Or.inr hr)), ?_⟩
          · intro item hitem
            rcases hmem item hitem with hstart | ⟨other, hother, hrest⟩
            · rcases KeyMap.mem_insert hstart with rfl | hstart
              · exact Or.inr ⟨file, List.mem_cons_self, source, hread, hrelative, hsame, rfl⟩
              · exact Or.inl hstart
            · exact Or.inr ⟨other, List.mem_cons_of_mem _ hother, hrest⟩
          · intro other hother source' hread' hnone
            rcases List.mem_cons.mp hother with rfl | hother
            · exact absurd (hkeys relative (KeyMap.keys_insert.mpr (Or.inl rfl)))
                (hnone relative hrelative)
            · exact hfiles other hother source' hread' hnone

/-- The paths found are the assigned ones. -/
theorem producerPaths_assigned
    (h : producerPaths readToString (cmakeFiles os files) [] = .ok paths) :
    (∀ path name, (path, name) ∈ paths → Assigned os readToString files path name) ∧
      ∀ path name, Assigned os readToString files path name → path ∈ paths.map (·.1) := by
  obtain ⟨hmem, hkeys⟩ := producerPaths_spec _ _ h
  constructor
  · intro path name hitem
    rcases hmem _ hitem with hnil | hassigned
    · cases hnil
    · exact hassigned
  · rintro path name ⟨file, hfile, source, hread, hitem⟩
    exact hkeys path (Or.inr ⟨file, hfile, source, hread, List.mem_map.mpr ⟨_, hitem, rfl⟩⟩)

/-- Where no producer path has a dollar sign, each new text is the file line by line, with
comments for the assignments and references for the paths, and no producer path is left in it,
nor in a file without a new text. -/
theorem relocatablePythonCmakeOverrides_exported
    (h : relocatablePythonCmakeOverrides os readToString root files = .ok overrides)
    (hdollar : ∀ path name, Assigned os readToString files path name → '$' ∉ path.toList) :
    (∀ relative text, (relative, text) ∈ overrides →
      ∃ file ∈ cmakeFiles os files, ∃ source, readToString file = .ok source ∧
        Path.stripPrefix os root file = some relative ∧ text ≠ source ∧
        Exported (Assigned os readToString files) source text) ∧
    ∀ file ∈ cmakeFiles os files, ∀ source, readToString file = .ok source →
      (∀ relative, Path.stripPrefix os root file = some relative →
        relative ∉ overrides.map (·.1)) →
      Relocatable (Assigned os readToString files) source := by
  rw [relocatablePythonCmakeOverrides] at h
  cases hpaths : producerPaths readToString (cmakeFiles os files) [] with
  | error e =>
    rw [hpaths] at h
    cases h
  | ok paths =>
    rw [hpaths] at h
    change (if paths.isEmpty then _ else _) = _ at h
    obtain ⟨hassigned, hall⟩ := producerPaths_assigned hpaths
    have hassignment : ∀ path name, (path, name) ∈ paths → Assignment path name := by
      intro path name hitem
      obtain ⟨file, -, source, -, hmem⟩ := hassigned path name hitem
      exact assignment_of_mem hmem
    have hplain : ∀ path name, (path, name) ∈ paths → '$' ∉ path.toList :=
      fun path name hitem => hdollar path name (hassigned path name hitem)
    have hexported := fun source =>
      exportText_exported hassignment hassigned hall hplain source
    split_ifs at h with hempty
    · cases h
      constructor
      · intro relative text hitem
        cases hitem
      · intro file _ source _ _ path name hP
        have hmem := hall path name hP
        rw [List.isEmpty_iff.mp hempty] at hmem
        cases hmem
    · obtain ⟨hmem, -, hfiles⟩ := addOverrides_spec _ _ h
      constructor
      · intro relative text hitem
        rcases hmem _ hitem with hnil | ⟨file, hfile, source, hread, hrelative, hne, rfl⟩
        · cases hnil
        · exact ⟨file, hfile, source, hread, hrelative, hne, hexported source⟩
      · intro file hfile source hread hnone
        have hsame := hfiles file hfile source hread hnone
        exact hsame ▸ (hexported source).relocatable

end Files

/-! ## Samples -/

/-- Reading where there is one file. -/
def readOnly (file source : String) : String → Except String String :=
  fun path => if path = file then .ok source else .error "not found"

def sampleSource : String := "set(Python_LIBRARY \"/c\")\n/c \\c\n"

/-- Both spellings become the reference. -/
def sampleText : String :=
  removal "Python_LIBRARY" "set\n" ++ reference "Python_LIBRARY" ++ " " ++
    reference "Python_LIBRARY" ++ "\n"

theorem relocatablePythonCmakeOverrides_exported_sample :
    relocatablePythonCmakeOverrides .linux (readOnly "/p/a.cmake" sampleSource) "/p"
      ["/p/a.cmake"] = .ok [("a.cmake", sampleText)] ∧
    Exported (Assigned .linux (readOnly "/p/a.cmake" sampleSource) ["/p/a.cmake"])
      sampleSource sampleText := by
  have hrun : relocatablePythonCmakeOverrides .linux (readOnly "/p/a.cmake" sampleSource) "/p"
      ["/p/a.cmake"] = .ok [("a.cmake", sampleText)] := by decide +kernel
  have hpaths : producerPaths (readOnly "/p/a.cmake" sampleSource)
      (cmakeFiles .linux ["/p/a.cmake"]) [] = .ok [("/c", "Python_LIBRARY")] := by decide +kernel
  have hdollar : ∀ path name,
      Assigned .linux (readOnly "/p/a.cmake" sampleSource) ["/p/a.cmake"] path name →
        '$' ∉ path.toList := by
    intro path name h
    have hmem := (producerPaths_assigned hpaths).2 path name h
    obtain rfl : path = "/c" := by simpa using hmem
    decide
  refine ⟨hrun, ?_⟩
  obtain ⟨file, hfile, source, hread, -, -, hexported⟩ :=
    (relocatablePythonCmakeOverrides_exported hrun hdollar).1 _ _ List.mem_cons_self
  have hsource : source = sampleSource := by
    rw [readOnly] at hread
    split_ifs at hread
    cases hread
    rfl
  exact hsource ▸ hexported

def overlappingSource : String := "set(Python_LIBRARY \"C:/$\")\nC:/C:/C:/$ C:/$d C:\\\\$\n"

def overlappingLine : String :=
  "C:/" ++ reference "Python_LIBRARY" ++ "\x7bPython_LIBRARY\x7d " ++
    reference "Python_LIBRARY" ++ "d C:\\\\$\n"

def overlappingText : String := removal "Python_LIBRARY" "set\n" ++ overlappingLine

theorem head?_replace {old new s : String} {b c : Char} (hold : old.toList.head? = some b)
    (hne : b ≠ c) (hs : s.toList.head? = some c) :
    (Text.replace old new s).toList.head? = some c := by
  obtain ⟨rest, hrest⟩ := List.head?_eq_some_iff.mp hs
  obtain ⟨tail, htail⟩ := List.head?_eq_some_iff.mp hold
  have hp : ¬ b :: tail <+: c :: rest := fun hp => hne (List.cons_prefix_cons.mp hp).1
  rw [Text.replace, String.toList_ofList, hrest, htail, Replace.replace_keep hp]
  rfl

/-- A path arises from a reference, one is left in its escaped spelling, one is replaced inside a
longer name, and putting the value back does not restore the assignment. -/
theorem overlapping_paths :
    relocatablePythonCmakeOverrides .linux (readOnly "/p/a.cmake" overlappingSource) "/p"
      ["/p/a.cmake"] = .ok [("a.cmake", overlappingText)] ∧
    "C:/$".toList <:+: overlappingText.toList ∧
    "C:\\\\$".toList <:+: overlappingText.toList ∧
    (reference "Python_LIBRARY" ++ "d").toList <:+: overlappingText.toList ∧
    Path.slashed (Text.replace (reference "Python_LIBRARY") "C:/$" overlappingText) ≠
      Path.slashed overlappingSource := by
  have hline : ∀ {x : List Char}, x <:+: overlappingLine.toList →
      x <:+: overlappingText.toList := by
    intro x hx
    rw [overlappingText, String.toList_append]
    exact hx.trans (List.suffix_append _ _).isInfix
  refine ⟨by decide +kernel, hline (by decide +kernel), hline (by decide +kernel),
    hline (by decide +kernel), fun h => ?_⟩
  have hhash : (Text.replace (reference "Python_LIBRARY") "C:/$" overlappingText).toList.head? =
      some '#' :=
    head?_replace (b := '$') rfl (by decide) (by decide +kernel)
  have hhead := congrArg (fun s => s.toList.head?) h
  simp only [Path.toList_slashed, List.head?_map] at hhead
  rw [hhash] at hhead
  revert hhead
  decide +kernel

end Build.PythonExport

end OpenStrata
