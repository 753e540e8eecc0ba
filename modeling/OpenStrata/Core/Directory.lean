import OpenStrata.Core.Digest

/-!
# Directories

A directory as the program sees one it does not own: a path for its messages and, under each
name, a regular file with its content or something else. Nothing changes it while the program
reads it.

## Main definitions

* `Directory`: a path and its entries
* `Directory.exists?`, `Directory.isFile`: the two probes
* `Directory.read`: `fs::read`
-/

namespace OpenStrata

/-- What a name in a directory stands for. -/
inductive Entry
  | file (content : Bytes)
  | directory
  deriving DecidableEq, Repr

/-- The content of a regular file. -/
def Entry.content? : Entry → Option Bytes
  | .file content => some content
  | .directory => none

/-- A directory with its entries under each name. -/
structure Directory where
  path : String
  entries : String → Option Entry

namespace Directory

variable {d : Directory} {name : String} {content : Bytes}

/-- `Utf8Path::join` of a plain name. -/
def join (d : Directory) (name : String) : String := d.path ++ "/" ++ name

/-- `Path::exists`. -/
def exists? (d : Directory) (name : String) : Bool := (d.entries name).isSome

/-- `Path::is_file`. -/
def isFile (d : Directory) (name : String) : Bool :=
  ((d.entries name).bind Entry.content?).isSome

/-- `fs::read`. -/
def read (d : Directory) (name : String) : Result Bytes :=
  Result.okOr (.io (d.join name)) ((d.entries name).bind Entry.content?)

/-- The directory with these files and nothing else. -/
def ofFiles (path : String) (files : List (String × Bytes)) : Directory :=
  { path, entries := fun name => (files.lookup name).map .file }

theorem read_ok : d.read name = .ok content ↔ d.entries name = some (.file content) := by
  rw [read, Result.okOr_ok, Option.bind_eq_some_iff]
  constructor
  · rintro ⟨entry, hentry, hcontent⟩
    cases entry with
    | file c => exact hentry.trans (by simpa [Entry.content?] using hcontent)
    | directory => cases hcontent
  · intro h
    exact ⟨.file content, h, rfl⟩

end Directory

end OpenStrata
