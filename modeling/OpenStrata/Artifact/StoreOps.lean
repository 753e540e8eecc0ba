import OpenStrata.Artifact.Evidence
import OpenStrata.Lib.Program

/-!
# The files of the artifact store

The store keeps an index file and one directory per artifact under `objects/sha256/`, next to
the staging directories of running imports. Its file-system operations are the operations of
its programs: each of them is one step for concurrent processes, and each may fault. A file
that the store writes as a serialised record is held as that record.

## Main definitions

* `Content`, `ObjectDir`, `World`: contents, directories, and the whole store
* `StoreOp`, `StoreOp.Reply`: the file-system operations and what they answer
* `StoreFault`: what a faulted operation leaves behind
* `World.step`: the effect of an operation

## Main results

* `World.setFile_eq`, `World.file?_eq`: files through the directory that holds them
-/

namespace OpenStrata

/-- The content of a stored file: bytes, or a record that the store serialised. -/
inductive Content
  | bytes (content : Bytes)
  | record (record : ArtifactRecord)
  deriving DecidableEq, Repr

/-- The files of a directory under `objects/sha256/`. -/
abbrev ObjectDir := String → Option Content

/-- The files of the store. -/
structure World where
  /-- The records of `index.json`, when it exists. -/
  index : Option (List ArtifactRecord)
  /-- The directories under `objects/sha256/`. -/
  objects : String → Option ObjectDir

/-- A file-system operation on the store. -/
inductive StoreOp
  | probeFile (object name : String)
  | probeDir (object : String)
  | readFile (object name : String)
  | copyFile (object name : String) (content : Bytes)
  | renameFile (object source target : String)
  | writeAtomic (object name : String) (content : Content)
  | removeFile (object name : String)
  | createDir (object : String)
  | removeDir (object : String)
  | renameDir (source target : String)
  | readIndex
  | writeIndex (artifacts : List ArtifactRecord)
  deriving DecidableEq

/-- How `remove_dir_all` ends. -/
inductive DirRemoval
  | removed
  | notFound
  | failed
  deriving DecidableEq, Repr

/-- What an operation answers; a plain success or failure is a `Bool`. -/
@[reducible] def StoreOp.Reply : StoreOp → Type
  | .readFile _ _ => Option Content
  | .removeDir _ => DirRemoval
  | .readIndex => Option (List ArtifactRecord)
  | _ => Bool

/-- What a faulted operation leaves behind: a copy may have written anything to its
destination, and a removal may have kept some files. -/
structure StoreFault where
  leftover : Option Bytes
  kept : List String
  deriving DecidableEq, Repr

namespace World

/-- The store before anything was imported. -/
def empty : World := { index := none, objects := fun _ => none }

/-- The file of a directory, if both exist. -/
def file? (w : World) (object name : String) : Option Content :=
  (w.objects object).bind fun d => d name

def setDir (w : World) (object : String) (d : Option ObjectDir) : World :=
  { w with objects := Function.update w.objects object d }

/-- Put a file into an existing directory, or take one out. -/
def setFile (w : World) (object name : String) (content : Option Content) : World :=
  match w.objects object with
  | none => w
  | some d => w.setDir object (some (Function.update d name content))

/-- What a removal that faulted has kept of a directory; nothing kept is a directory gone. -/
def keepFiles (d : ObjectDir) (kept : List String) : Option ObjectDir :=
  if kept.any fun name => (d name).isSome then
    some fun name => if name ∈ kept then d name else none
  else none

/-- The effect of an operation and its answer. A probe does not fault; an index that is not
there reads as an empty one. -/
def step : (op : StoreOp) → Option StoreFault → World → op.Reply × World
  | .probeFile object name, _, w => ((w.file? object name).isSome, w)
  | .probeDir object, _, w => ((w.objects object).isSome, w)
  | .readFile object name, fault, w => (if fault.isSome then none else w.file? object name, w)
  | .copyFile object name content, fault, w =>
    if (w.objects object).isNone then (false, w)
    else
      match fault with
      | none => (true, w.setFile object name (some (.bytes content)))
      | some { leftover := some b, .. } => (false, w.setFile object name (some (.bytes b)))
      | some { leftover := none, .. } => (false, w)
  | .renameFile object source target, fault, w =>
    match fault, w.file? object source with
    | none, some content =>
      (true, (w.setFile object source none).setFile object target (some content))
    | _, _ => (false, w)
  | .writeAtomic object name content, fault, w =>
    if fault.isSome ∨ (w.objects object).isNone then (false, w)
    else (true, w.setFile object name (some content))
  | .removeFile object name, fault, w =>
    if fault.isSome ∨ (w.file? object name).isNone then (false, w)
    else (true, w.setFile object name none)
  | .createDir object, fault, w =>
    if fault.isSome then (false, w)
    else if (w.objects object).isSome then (true, w)
    else (true, w.setDir object (some fun _ => none))
  | .removeDir object, fault, w =>
    match w.objects object, fault with
    | none, _ => (.notFound, w)
    | some _, none => (.removed, w.setDir object none)
    | some d, some f => (.failed, w.setDir object (keepFiles d f.kept))
  | .renameDir source target, fault, w =>
    -- a directory is not renamed onto one that holds files
    match fault, w.objects source, w.objects target with
    | none, some d, none => (true, (w.setDir source none).setDir target (some d))
    | _, _, _ => (false, w)
  | .readIndex, fault, w => (if fault.isSome then none else some (w.index.getD []), w)
  | .writeIndex artifacts, fault, w =>
    if fault.isSome then (false, w) else (true, { w with index := some artifacts })

/-! ## One operation -/

section Steps

variable {w : World} {fault : Option StoreFault} {object name source target : String}

theorem step_probeFile :
    step (.probeFile object name) fault w = ((w.file? object name).isSome, w) := rfl

theorem step_readFile : step (.readFile object name) fault w =
    (if fault.isSome then none else w.file? object name, w) := rfl

theorem step_copyFile {content : Bytes} : step (.copyFile object name content) fault w =
    if (w.objects object).isNone then (false, w)
    else
      match fault with
      | none => (true, w.setFile object name (some (.bytes content)))
      | some { leftover := some b, .. } => (false, w.setFile object name (some (.bytes b)))
      | some { leftover := none, .. } => (false, w) := rfl

theorem step_renameFile : step (.renameFile object source target) fault w =
    match fault, w.file? object source with
    | none, some content =>
      (true, (w.setFile object source none).setFile object target (some content))
    | _, _ => (false, w) := rfl

theorem step_writeAtomic {content : Content} : step (.writeAtomic object name content) fault w =
    if fault.isSome ∨ (w.objects object).isNone then (false, w)
    else (true, w.setFile object name (some content)) := rfl

theorem step_removeFile : step (.removeFile object name) fault w =
    if fault.isSome ∨ (w.file? object name).isNone then (false, w)
    else (true, w.setFile object name none) := rfl

theorem step_createDir : step (.createDir object) fault w =
    if fault.isSome then (false, w)
    else if (w.objects object).isSome then (true, w)
    else (true, w.setDir object (some fun _ => none)) := rfl

theorem step_removeDir : step (.removeDir object) fault w =
    match w.objects object, fault with
    | none, _ => (.notFound, w)
    | some _, none => (.removed, w.setDir object none)
    | some d, some f => (.failed, w.setDir object (keepFiles d f.kept)) := rfl

theorem step_renameDir : step (.renameDir source target) fault w =
    match fault, w.objects source, w.objects target with
    | none, some d, none => (true, (w.setDir source none).setDir target (some d))
    | _, _, _ => (false, w) := rfl

theorem step_readIndex : step .readIndex fault w =
    (if fault.isSome then none else some (w.index.getD []), w) := rfl

theorem step_writeIndex {artifacts : List ArtifactRecord} :
    step (.writeIndex artifacts) fault w =
      if fault.isSome then (false, w) else (true, { w with index := some artifacts }) := rfl

end Steps

/-! ## Reading after writing -/

section Lookup

variable {w : World} {object object' name name' : String} {d : ObjectDir}
  {content : Option Content}

@[simp] theorem index_setDir (x : Option ObjectDir) : (w.setDir object x).index = w.index := rfl

@[simp] theorem objects_setDir (x : Option ObjectDir) :
    (w.setDir object x).objects object = x := by
  simp [setDir]

theorem objects_setDir_of_ne (x : Option ObjectDir) (h : object' ≠ object) :
    (w.setDir object x).objects object' = w.objects object' := by
  simp [setDir, Function.update_of_ne h]

@[simp] theorem setDir_setDir (x y : Option ObjectDir) :
    (w.setDir object x).setDir object y = w.setDir object y := by
  simp [setDir]

theorem setDir_self {x : Option ObjectDir} (h : w.objects object = x) :
    w.setDir object x = w := by
  simp [setDir, ← h]

theorem setFile_eq (h : w.objects object = some d) :
    w.setFile object name content = w.setDir object (some (Function.update d name content)) := by
  simp [setFile, h]

theorem file?_eq (h : w.objects object = some d) : w.file? object name = d name := by
  simp [file?, h]

@[simp] theorem setFile_setDir : (w.setDir object (some d)).setFile object name content =
    w.setDir object (some (Function.update d name content)) := by
  rw [setFile_eq (objects_setDir _), setDir_setDir]

@[simp] theorem file?_setDir : (w.setDir object (some d)).file? object name = d name :=
  file?_eq (objects_setDir _)

end Lookup

end World

end OpenStrata
