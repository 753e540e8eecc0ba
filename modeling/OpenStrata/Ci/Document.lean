import OpenStrata.Ci.Matrix

/-!
# Workflow documents

A generated workflow as the pieces its text is made of. The renderer's own text, its references to
matrix keys and the values spliced in from the support matrix are kept apart, so that what a
document refers to and what of the matrix reaches it can be read off; `Document.render` is the
text.

## Main definitions

* `MatrixKey`: the keys of `matrix.include` entries
* `Piece`, `Document`, `Document.render`: documents and their text
* `Document.references`: the matrix keys a document refers to
* `Document.values`: the values of the matrix that reach a document
* `Entry`: one `matrix.include` entry

## Main results

* `Document.references_append`, `Document.values_append`: both are read off piece by piece
-/

namespace OpenStrata

/-- A line without its trailing carriage return. -/
def Text.stripReturn (line : List Char) : List Char :=
  if line.getLast? = some '\x0d' then line.dropLast else line

/-- `str::lines`: what stands before each line feed, and what stands after the last one unless it
is empty. -/
def Text.lineList : List (List Char) → List (List Char)
  | [] => []
  | [last] => if last.isEmpty then [] else [last]
  | line :: rest => Text.stripReturn line :: Text.lineList rest

def Text.lines (s : String) : List String :=
  (Text.lineList (s.toList.splitOnP (· == '\n'))).map String.ofList

namespace Ci

/-- The keys of `matrix.include` entries. -/
inductive MatrixKey
  | name
  | lane
  | runtimeArtifact
  | requireOpenusd
  | requireOpenusdVersion
  | openusdFlags
  | targetTrust
  | minimumTrust
  | requireEvidence
  | evidenceFlags
  | platform
  | profile
  | upTo
  | runsOn
  | hosted
  | runnerProfile
  | pluginArtifact
  | bundle
  | verify
  | intentFlags
  | runtimeRemote
  | hostPython
  | hostPackagesApt
  | hostPackagesBrew
  deriving DecidableEq, Repr

def MatrixKey.text : MatrixKey → String
  | .name => "name"
  | .lane => "lane"
  | .runtimeArtifact => "runtime_artifact"
  | .requireOpenusd => "require_openusd"
  | .requireOpenusdVersion => "require_openusd_version"
  | .openusdFlags => "openusd_flags"
  | .targetTrust => "target_trust"
  | .minimumTrust => "minimum_trust"
  | .requireEvidence => "require_evidence"
  | .evidenceFlags => "evidence_flags"
  | .platform => "platform"
  | .profile => "profile"
  | .upTo => "up_to"
  | .runsOn => "runs_on"
  | .hosted => "hosted"
  | .runnerProfile => "runner_profile"
  | .pluginArtifact => "plugin_artifact"
  | .bundle => "bundle"
  | .verify => "verify"
  | .intentFlags => "intent_flags"
  | .runtimeRemote => "runtime_remote"
  | .hostPython => "host_python"
  | .hostPackagesApt => "host_packages_apt"
  | .hostPackagesBrew => "host_packages_brew"

/-- A piece of a document. -/
inductive Piece
  /-- The renderer's own text. -/
  | text (s : String)
  /-- An expression that is one matrix key. -/
  | ref (key : MatrixKey)
  /-- A matrix key inside an expression of the renderer. -/
  | key (key : MatrixKey)
  /-- A value of the support matrix, verbatim. -/
  | value (s : String)
  /-- The script of a repository check, one indented line for each of its lines. -/
  | script (run : String)
  deriving DecidableEq, Repr

instance : Coe String Piece := ⟨Piece.text⟩

/-- A line of a literal block scalar under `run:`; empty lines stay empty. -/
def scriptLine (line : String) : String :=
  if line.isEmpty then "\n" else "          " ++ line ++ "\n"

def scriptText (run : String) : String := String.join ((Text.lines run).map scriptLine)

namespace Piece

def render : Piece → String
  | .text s => s
  | .ref k => "$\x7b\x7b matrix." ++ k.text ++ " \x7d\x7d"
  | .key k => "matrix." ++ k.text
  | .value s => s
  | .script run => scriptText run

/-- The matrix key a piece refers to. -/
def reference? : Piece → Option MatrixKey
  | .ref k | .key k => some k
  | .text _ | .value _ | .script _ => none

/-- The value of the support matrix that a piece carries. -/
def value? : Piece → Option String
  | .value s | .script s => some s
  | .text _ | .ref _ | .key _ => none

end Piece

/-- A document: its pieces in order. -/
abbrev Document := List Piece

namespace Document

def render (d : Document) : String := String.join (d.map Piece.render)

/-- The matrix keys a document refers to. -/
def references (d : Document) : List MatrixKey := d.filterMap Piece.reference?

/-- The values of the support matrix that reach a document. -/
def values (d : Document) : List String := d.filterMap Piece.value?

@[simp] theorem references_nil : references [] = [] := rfl

@[simp] theorem values_nil : values [] = [] := rfl

@[simp] theorem references_append (d e : Document) :
    references (d ++ e) = references d ++ references e :=
  List.filterMap_append

@[simp] theorem values_append (d e : Document) : values (d ++ e) = values d ++ values e :=
  List.filterMap_append

theorem references_flatMap {α : Type} (l : List α) (f : α → Document) :
    references (l.flatMap f) = l.flatMap fun a => references (f a) := by
  induction l with
  | nil => rfl
  | cons a l ih => rw [List.flatMap_cons, List.flatMap_cons, references_append, ih]

theorem values_flatMap {α : Type} (l : List α) (f : α → Document) :
    values (l.flatMap f) = l.flatMap fun a => values (f a) := by
  induction l with
  | nil => rfl
  | cons a l ih => rw [List.flatMap_cons, List.flatMap_cons, values_append, ih]

end Document

/-- Lines, each ended by a line feed. -/
def lines (ls : List (List Piece)) : Document := ls.flatMap (· ++ [Piece.text "\n"])

/-! ## Entries -/

/-- A value of a `matrix.include` entry, in the style it is written. -/
inductive EntryValue
  | plain (s : String)
  | quoted (s : String)
  | labels (ss : List String)
  deriving DecidableEq, Repr

/-- Labels as a flow sequence of quoted scalars. -/
def labelPieces : List String → Document
  | [] => []
  | [label] => [.text "\"", .value label, .text "\""]
  | label :: rest => [.text "\"", .value label, .text "\", "] ++ labelPieces rest

def EntryValue.pieces : EntryValue → Document
  | .plain s => [.value s]
  | .quoted s => [.text "\"", .value s, .text "\""]
  | .labels ss => [.text "["] ++ labelPieces ss ++ [.text "]"]

/-- One key of an entry with its value. -/
structure EntryField where
  key : MatrixKey
  value : EntryValue
  deriving DecidableEq, Repr

/-- A `matrix.include` entry. -/
abbrev Entry := List EntryField

namespace Entry

def keys (e : Entry) : List MatrixKey := e.map EntryField.key

/-- A field after the indentation of its line. -/
def fieldPieces (indent : String) (field : EntryField) : Document :=
  [.text (indent ++ field.key.text ++ ": ")] ++ field.value.pieces ++ [.text "\n"]

/-- The first field opens the item of the sequence; the others are indented under it. -/
def pieces : Entry → Document
  | [] => []
  | field :: rest =>
    fieldPieces "          - " field ++ rest.flatMap (fieldPieces "            ")

end Entry

end Ci

end OpenStrata
