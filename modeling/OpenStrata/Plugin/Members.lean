import Mathlib.Data.List.Lex
import OpenStrata.Lib.Glob
import OpenStrata.Lib.KeyMap
import OpenStrata.Plugin.BundlePaths

/-!
# Members of a workspace

The members of a workspace are the directories with a member descriptor that the patterns of the
project manifest select. A pattern is expanded component by component. A component with wildcards
selects among the directories that the scan for descriptors goes into as well; any other names its
directory. What the scan finds and no pattern selects is an error.

## Main definitions

* `scanWorkspaceDescriptors`: the descriptors below a root
* `expandWorkspaceMemberPattern`: the directories that a pattern selects
* `discoverWorkspaceMembers`: the members of a workspace
* `Selects`: a pattern selects a directory

## Main results

* `wildcardComponentMatches_iff`: the table of the matcher follows the rules of the wildcards
* `discovered`: the members are exactly what the patterns select, and depend on no order
-/

namespace OpenStrata.Plugin.Members

open BundlePaths (PLUGIN_MANIFEST)
open SortBy (sortBy)

/-! ## Trees -/

inductive FileKind
  | directory
  | file
  /-- A link, and whether it leads to a file. -/
  | link (toFile : Bool)
  | special
  deriving DecidableEq, Repr

/-- What the file system shows below a root: the nodes by the names that lead to them, and the
names in a directory in the order they are read, none when it cannot be read. -/
structure Tree where
  root : String
  node : List String → Option FileKind
  listing : List String → Option (List String)
  nodup : ∀ {path names : List String}, listing path = some names → names.Nodup
  mem_listing : ∀ {path names : List String}, listing path = some names →
    ∀ name, name ∈ names ↔ node (path ++ [name]) ≠ none

namespace Tree

variable (t : Tree)

/-- A directory that is no link. -/
def isDirectory (path : List String) : Bool := t.node path == some .directory

/-- `Path::is_file`. -/
def isFile (path : List String) : Bool :=
  match t.node path with
  | some .file | some (.link true) => true
  | none | some .directory | some (.link false) | some .special => false

def text (path : List String) : String := Text.join "/" (t.root :: path)

/-- `fs::read_dir`. -/
def readDir (path : List String) : Result (List String) :=
  Result.okOr (.io (t.text path)) (t.listing path)

end Tree

/-! ## Descriptors -/

inductive WorkspaceMemberKind
  | bundle
  | library
  | tool
  deriving DecidableEq, Repr

def LIBRARY_MANIFEST : String := "openstrata.library.yaml"

def TOOL_MANIFEST : String := "openstrata.tool.yaml"

def MAX_WORKSPACE_MEMBER_DEPTH : Nat := 8

/-- Names of directories that are build residue in every layout. -/
def WORKSPACE_SCAN_EXCLUDED : List String :=
  [".git", ".strata", "target", "build", "out", "node_modules", "__pycache__"]

/-- The scan does not go into directories of this name, and no wildcard stands for it. -/
def isSkipped (name : String) : Bool :=
  WORKSPACE_SCAN_EXCLUDED.contains name || Text.startsWith "." name

/-- `workspace_descriptor_kind`. -/
def workspaceDescriptorKind (t : Tree) (path : List String) :
    Result (Option WorkspaceMemberKind) :=
  let descriptors := [(PLUGIN_MANIFEST, .bundle), (LIBRARY_MANIFEST, .library),
    (TOOL_MANIFEST, .tool)].filter fun descriptor => t.isFile (path ++ [descriptor.1])
  match descriptors with
  | [] => .ok none
  | [(_, kind)] => .ok (some kind)
  | _ => .error ((Error.ofCode "WORKSPACE_MEMBER_DESCRIPTOR_AMBIGUOUS" .validation
      ("workspace member '" ++ t.text path ++ "' contains multiple member descriptors: " ++
        Text.join ", " (descriptors.map (·.1)))).withHint
      "keep exactly one OpenStrata member descriptor in each member directory")

/-- `scan_workspace_descriptors`, from a directory that is so many levels above the deepest. The
directories are gone through in the order of the stack: each before what is below it. -/
def scanBelow (t : Tree) : Nat → List String → Result (List (List String × WorkspaceMemberKind))
  | levels, path => do
    let kind ← workspaceDescriptorKind t path
    let found := kind.toList.map fun kind => (path, kind)
    match levels with
    | 0 => return found
    | levels + 1 =>
      let names ← t.readDir path
      let children := sortBy id (names.filter fun name =>
        t.isDirectory (path ++ [name]) && !isSkipped name)
      let below ← children.mapM fun name => scanBelow t levels (path ++ [name])
      return found ++ below.flatten

def scanWorkspaceDescriptors (t : Tree) : Result (List (List String × WorkspaceMemberKind)) := do
  let found ← scanBelow t MAX_WORKSPACE_MEMBER_DEPTH []
  return KeyMap.insertAll found []

/-! ## Patterns -/

def isWildcard (text : String) : Bool := Text.any (fun c => c == '*' || c == '?') text

/-- What a symbol other than the star stands for. -/
def standsFor (a b : Char) : Bool := a == '?' || a == b

/-- `wildcard_component_matches`: the table of the prefixes, one row for each symbol. -/
def wildcardComponentMatches (pattern name : String) : Bool :=
  Glob.Table.accepts '*' standsFor pattern.toList name.toList

/-- The directories below one that a component selects. -/
def expandComponent (t : Tree) (component : String) (parent : List String) :
    Result (List (List String)) :=
  if isWildcard component then do
    let names ← t.readDir parent
    return (names.filter fun name => t.isDirectory (parent ++ [name]) && !isSkipped name &&
      wildcardComponentMatches component name).map fun name => parent ++ [name]
  else
    let path := parent ++ [component]
    return if t.isDirectory path then [path] else []

/-- The rounds of `expand_workspace_member_pattern`. -/
def expandComponents (t : Tree) : List String → List (List String) → Result (List (List String))
  | [], candidates => .ok candidates
  | component :: rest, candidates => do
    let next ← candidates.mapM (expandComponent t component)
    let candidates := (sortBy id next.flatten).destutter (· ≠ ·)
    if candidates.isEmpty then return candidates else expandComponents t rest candidates

/-- `expand_workspace_member_pattern`, of a pattern that the manifest may have. -/
def expandWorkspaceMemberPattern (t : Tree) (pattern : String) : Result (List (List String)) :=
  if pattern = "." then .ok [[]] else expandComponents t (Text.segments pattern) [[]]

/-- `workspace_member_problem`. -/
def workspaceMemberProblem (member : String) : Option String :=
  if member = "" then some "must not be empty"
  else if Text.trim member ≠ member then
    some "must not have leading or trailing whitespace"
  else if member = "." then none
  else if Text.startsWith "/" member ∨ Text.startsWith "\\" member ∨
      Text.containsChar ':' member then
    some "must be a project-relative path"
  else if Text.containsChar '\\' member then some "must use portable '/' separators"
  else if (Text.splitOnce "**" member).isSome then some "must not use recursive '**' globs"
  else if Text.any (fun c => ['[', ']', '{', '}'].contains c) member then
    some "may use only '*' and '?' glob metacharacters"
  else if Text.any (fun c => ['$', '~', '%'].contains c) member then
    some "must not need shell or environment expansion"
  else if (Text.segments member).length > MAX_WORKSPACE_MEMBER_DEPTH then
    some "exceeds the maximum workspace member depth of 8"
  else (Text.segments member).findSome? fun component =>
    if component = "" ∨ component = "." ∨ component = ".." then
      some "must contain only non-empty child path components"
    else if Text.startsWith "." component ∨
        component ∈ ["target", "build", "out", "node_modules"] then
      some "must not select a generated or OpenStrata state directory"
    else none

/-- The loop of `validate_workspace` over the members, with those that were seen. -/
def validateMembers : List String → List String → Result Unit
  | _, [] => .ok ()
  | seen, member :: rest =>
    match workspaceMemberProblem member with
    | some reason =>
      .error (.invalidManifest ("workspace.members entry '" ++ member ++ "' " ++ reason))
    | none =>
      if member ∈ seen then
        .error (.invalidManifest ("workspace.members entry '" ++ member ++ "' is duplicated"))
      else validateMembers (member :: seen) rest

/-! ## Discovery -/

/-- What a directory that a pattern selects is: a member, or residue under a wildcard. -/
def memberOf (t : Tree) (pattern : String) (path : List String) :
    Result (List String × Option WorkspaceMemberKind) := do
  match ← workspaceDescriptorKind t path with
  | some kind => return (path, some kind)
  | none =>
    if isWildcard pattern then return (path, none)
    else .error ((Error.ofCode "WORKSPACE_MEMBER_DESCRIPTOR_MISSING" .validation
      ("declared workspace member '" ++ t.text path ++
        "' (from [workspace].members pattern '" ++ pattern ++
        "') has no OpenStrata member descriptor")).withHint
      ("add " ++ PLUGIN_MANIFEST ++ ", " ++ LIBRARY_MANIFEST ++ ", or " ++ TOOL_MANIFEST ++
        ", or narrow [workspace].members"))

def patternHint : String :=
  "fix or remove the pattern under [workspace].members in openstrata.toml"

/-- The members that a pattern selects. -/
def membersOf (t : Tree) (pattern : String) :
    Result (List (List String × WorkspaceMemberKind)) := do
  let found ← expandWorkspaceMemberPattern t pattern
  Result.failIf found.isEmpty ((Error.ofCode "WORKSPACE_MEMBER_PATTERN_EMPTY" .validation
    ("workspace member pattern '" ++ pattern ++ "' matched no directories")).withHint patternHint)
  let outcomes ← found.mapM (memberOf t pattern)
  let members := outcomes.filterMap fun outcome => outcome.2.map fun kind => (outcome.1, kind)
  let skipped := outcomes.filter fun outcome => outcome.2.isNone
  Result.failIf (members.isEmpty ∧ ¬skipped.isEmpty)
    ((Error.ofCode "WORKSPACE_MEMBER_PATTERN_EMPTY" .validation
      ("workspace member pattern '" ++ pattern ++
        "' matched no directory carrying an OpenStrata member descriptor (matched: " ++
        Text.join ", " (skipped.map fun outcome => Text.join "/" outcome.1) ++ ")")).withHint
      patternHint)
  return members

/-- The patterns in order, each on top of what was selected before. -/
def selectMembers (t : Tree) : List String → List (List String × WorkspaceMemberKind) →
    Result (List (List String × WorkspaceMemberKind))
  | [], selected => .ok selected
  | pattern :: rest, selected => do
    let members ← membersOf t pattern
    selectMembers t rest (KeyMap.insertAll members selected)

def relativeText (path : List String) : String :=
  if path = [] then "." else Text.join "/" path

/-- The members when the manifest lists patterns. -/
def declaredMembers (t : Tree) (scanned : List (List String × WorkspaceMemberKind))
    (patterns : List String) : Result (List (List String × WorkspaceMemberKind)) := do
  let selected ← selectMembers t patterns []
  let omitted := scanned.filter fun found => (selected.lookup found.1).isNone
  Result.failIf (¬omitted.isEmpty)
    ((Error.ofCode "WORKSPACE_DESCRIPTOR_NOT_DECLARED" .validation
      ("workspace descriptor(s) found outside [workspace].members: " ++
        Text.join ", " (omitted.map fun found => relativeText found.1))).withHint
      "add the descriptor roots to [workspace].members or remove stale descriptors")
  return selected

structure WorkspaceMembers where
  bundles : List (List String)
  libraries : List (List String)
  tools : List (List String)
  deriving DecidableEq, Repr

/-- The paths of a kind, in their order. -/
def pathsOf (kind : WorkspaceMemberKind) (selected : List (List String × WorkspaceMemberKind)) :
    List (List String) :=
  (selected.filter fun member => member.2 = kind).map (·.1)

def membersByKind (selected : List (List String × WorkspaceMemberKind)) : WorkspaceMembers :=
  ⟨pathsOf .bundle selected, pathsOf .library selected, pathsOf .tool selected⟩

/-- The members, with the patterns of the manifest when it lists some. Without them, the root
itself is none. -/
def selectedMembers (t : Tree) (scanned : List (List String × WorkspaceMemberKind)) :
    Option (List String) → Result (List (List String × WorkspaceMemberKind))
  | some patterns => declaredMembers t scanned patterns
  | none => .ok (scanned.filter fun found => found.1 ≠ [])

/-- `discover_workspace_members`, with the patterns that the project manifest lists, if it does.
Paths are relative to the root. -/
def discoverWorkspaceMembers (t : Tree) (explicit : Option (List String)) :
    Result WorkspaceMembers := do
  Result.forAll (validateMembers []) explicit.toList
  let scanned ← scanWorkspaceDescriptors t
  let selected ← selectedMembers t scanned explicit
  return membersByKind selected

/-! ## What a pattern selects -/

/-- A component stands for a name: by the rules of the wildcards, for a name that the scan does not
skip, or as it is. -/
def Chooses (component name : String) : Prop :=
  if isWildcard component then
    Glob.Matches '*' (fun a b => a = '?' ∨ a = b) component.toList name.toList ∧
      isSkipped name = false
  else name = component

/-- Every name leads to a directory, from a path on. -/
def Descends (t : Tree) : List String → List String → Prop
  | _, [] => True
  | path, name :: rest => t.isDirectory (path ++ [name]) ∧ Descends t (path ++ [name]) rest

/-- A pattern selects a directory. -/
def Selects (t : Tree) (pattern : String) (path : List String) : Prop :=
  (pattern = "." ∧ path = []) ∨
    (pattern ≠ "." ∧ List.Forall₂ Chooses (Text.segments pattern) path ∧ Descends t [] path)

section Selected

variable {t : Tree} {pattern component name : String} {parent path : List String}
  {found candidates : List (List String)} {kind : WorkspaceMemberKind}

/-- The table follows the rules of the wildcards. -/
theorem wildcardComponentMatches_iff : wildcardComponentMatches pattern name = true ↔
    Glob.Matches '*' (fun a b => a = '?' ∨ a = b) pattern.toList name.toList := by
  rw [wildcardComponentMatches, Glob.Table.accepts_iff]
  constructor
  · exact fun h => h.imp fun a b hab => by simpa [standsFor] using hab
  · exact fun h => h.imp fun a b hab => by simpa [standsFor] using hab

theorem readDir_ok {names : List String} :
    t.readDir path = .ok names ↔ t.listing path = some names := Result.okOr_ok

theorem isDirectory_iff : t.isDirectory path ↔ t.node path = some .directory := by
  rw [Tree.isDirectory, beq_iff_eq]

theorem expandComponent_ok (h : expandComponent t component parent = .ok found) :
    path ∈ found ↔ ∃ name, path = parent ++ [name] ∧ Chooses component name ∧
      t.isDirectory (parent ++ [name]) := by
  unfold expandComponent at h
  by_cases hwild : isWildcard component
  · rw [if_pos hwild] at h
    obtain ⟨names, hnames, h⟩ := Result.bind_ok.mp h
    obtain rfl := Except.ok.inj h
    have hmem := t.mem_listing (readDir_ok.mp hnames)
    simp only [List.mem_map, List.mem_filter, Bool.and_eq_true, Bool.not_eq_true', Chooses, hwild,
      if_true, wildcardComponentMatches_iff]
    constructor
    · rintro ⟨name, ⟨-, ⟨hdir, hskip⟩, hmatch⟩, rfl⟩
      exact ⟨name, rfl, ⟨hmatch, hskip⟩, hdir⟩
    · rintro ⟨name, rfl, ⟨hmatch, hskip⟩, hdir⟩
      refine ⟨name, ⟨(hmem name).mpr ?_, ⟨hdir, hskip⟩, hmatch⟩, rfl⟩
      rw [isDirectory_iff.mp hdir]
      exact Option.some_ne_none _
  · rw [if_neg hwild] at h
    obtain rfl := Except.ok.inj h
    simp only [Chooses, hwild, if_false, Bool.false_eq_true]
    by_cases hdir : t.isDirectory (parent ++ [component])
    · rw [if_pos hdir, List.mem_singleton]
      constructor
      · rintro rfl
        exact ⟨component, rfl, rfl, hdir⟩
      · rintro ⟨name, rfl, rfl, -⟩
        rfl
    · rw [if_neg hdir]
      refine iff_of_false (List.not_mem_nil) ?_
      rintro ⟨name, rfl, rfl, hdir'⟩
      exact hdir hdir'

/-- What the components select below the candidates. -/
theorem expandComponents_ok {components : List String}
    (h : expandComponents t components candidates = .ok found) :
    path ∈ found ↔ ∃ parent ∈ candidates, ∃ names, path = parent ++ names ∧
      List.Forall₂ Chooses components names ∧ Descends t parent names := by
  induction components generalizing candidates with
  | nil =>
    obtain rfl := Except.ok.inj h
    constructor
    · exact fun hpath => ⟨path, hpath, [], (List.append_nil _).symm, .nil, trivial⟩
    · rintro ⟨parent, hparent, names, rfl, hnames, -⟩
      cases hnames
      rwa [List.append_nil]
  | cons component rest ih =>
    obtain ⟨next, hnext, h⟩ := Result.bind_ok.mp h
    have hround : ∀ path, path ∈ (sortBy id next.flatten).destutter (· ≠ ·) ↔
        ∃ parent ∈ candidates, ∃ name, path = parent ++ [name] ∧ Chooses component name ∧
          t.isDirectory (parent ++ [name]) := by
      intro path
      obtain ⟨hleft, hright⟩ := Result.mem_mapM hnext
      rw [SortBy.mem_destutter, SortBy.mem_sortBy, List.mem_flatten]
      constructor
      · rintro ⟨found, hfound, hpath⟩
        obtain ⟨parent, hparent, hexpand⟩ := hright found hfound
        exact ⟨parent, hparent, (expandComponent_ok hexpand).mp hpath⟩
      · rintro ⟨parent, hparent, hname⟩
        obtain ⟨found, hfound, hexpand⟩ := hleft parent hparent
        exact ⟨found, hfound, (expandComponent_ok hexpand).mpr hname⟩
    -- a directory below a candidate is reached by the first name and the rest
    have hsplit : (∃ parent ∈ candidates, ∃ names, path = parent ++ names ∧
        List.Forall₂ Chooses (component :: rest) names ∧ Descends t parent names) ↔
        ∃ parent ∈ (sortBy id next.flatten).destutter (· ≠ ·), ∃ names, path = parent ++ names ∧
          List.Forall₂ Chooses rest names ∧ Descends t parent names := by
      constructor
      · rintro ⟨parent, hparent, names, rfl, hnames, hdescends⟩
        cases hnames with
        | @cons _ name _ names hname hnames =>
          exact ⟨parent ++ [name], (hround _).mpr ⟨parent, hparent, name, rfl, hname,
            hdescends.1⟩, names, List.append_cons _ _ _, hnames, hdescends.2⟩
      · rintro ⟨_, hmem, names, rfl, hnames, hdescends⟩
        obtain ⟨parent, hparent, name, rfl, hname, hdir⟩ := (hround _).mp hmem
        exact ⟨parent, hparent, name :: names, (List.append_cons _ _ _).symm,
          .cons hname hnames, hdir, hdescends⟩
    rw [hsplit]
    dsimp only at h
    split at h
    · next hempty =>
      obtain rfl := Except.ok.inj h
      rw [List.isEmpty_iff] at hempty
      rw [hempty]
      simp
    · exact ih h

theorem expandWorkspaceMemberPattern_ok
    (h : expandWorkspaceMemberPattern t pattern = .ok found) :
    path ∈ found ↔ Selects t pattern path := by
  unfold expandWorkspaceMemberPattern at h
  unfold Selects
  by_cases hroot : pattern = "."
  · rw [if_pos hroot] at h
    obtain rfl := Except.ok.inj h
    simp [hroot]
  · rw [if_neg hroot] at h
    rw [expandComponents_ok h]
    simp [hroot]

theorem memberOf_ok {outcome : List String × Option WorkspaceMemberKind}
    (h : memberOf t pattern path = .ok outcome) :
    outcome.1 = path ∧ workspaceDescriptorKind t path = .ok outcome.2 := by
  obtain ⟨kind, hkind, h⟩ := Result.bind_ok.mp h
  cases kind with
  | some kind =>
    obtain rfl := Except.ok.inj h
    exact ⟨rfl, hkind⟩
  | none =>
    dsimp only at h
    split at h
    · obtain rfl := Except.ok.inj h
      exact ⟨rfl, hkind⟩
    · cases h

theorem membersOf_ok {members : List (List String × WorkspaceMemberKind)}
    (h : membersOf t pattern = .ok members) : (path, kind) ∈ members ↔
      Selects t pattern path ∧ workspaceDescriptorKind t path = .ok (some kind) := by
  obtain ⟨found, hfound, h⟩ := Result.bind_ok.mp h
  obtain ⟨⟨⟩, -, h⟩ := Result.bind_ok.mp h
  obtain ⟨outcomes, houtcomes, h⟩ := Result.bind_ok.mp h
  obtain ⟨⟨⟩, -, h⟩ := Result.bind_ok.mp h
  obtain rfl := Except.ok.inj h
  obtain ⟨hleft, hright⟩ := Result.mem_mapM houtcomes
  rw [← expandWorkspaceMemberPattern_ok hfound, List.mem_filterMap]
  constructor
  · rintro ⟨⟨path', outcome⟩, hmem, heq⟩
    obtain ⟨path'', hpath, hmember⟩ := hright _ hmem
    obtain ⟨rfl, hkind⟩ := memberOf_ok hmember
    cases outcome with
    | none => cases heq
    | some kind' =>
      cases heq
      exact ⟨hpath, hkind⟩
  · rintro ⟨hpath, hkind⟩
    obtain ⟨outcome, hmem, hmember⟩ := hleft path hpath
    obtain ⟨rfl, hkind'⟩ := memberOf_ok hmember
    refine ⟨outcome, hmem, ?_⟩
    rw [hkind] at hkind'
    rw [← Except.ok.inj hkind']
    rfl

end Selected

/-! ## What the scan finds -/

/-- The scan goes into a directory: not too deep, and by no name that it skips. -/
def Scanned (t : Tree) (path : List String) : Prop :=
  path.length ≤ MAX_WORKSPACE_MEMBER_DEPTH ∧ Descends t [] path ∧
    ∀ name ∈ path, isSkipped name = false

section Scan

variable {t : Tree} {levels : Nat} {path below : List String}
  {found : List (List String × WorkspaceMemberKind)} {kind : WorkspaceMemberKind}

/-- The directories that the scan goes into below one. -/
theorem mem_children {names : List String} (h : t.readDir path = .ok names) {name : String} :
    name ∈ sortBy id (names.filter fun name =>
        t.isDirectory (path ++ [name]) && !isSkipped name) ↔
      t.isDirectory (path ++ [name]) ∧ isSkipped name = false := by
  have hmem := t.mem_listing (readDir_ok.mp h) name
  rw [SortBy.mem_sortBy, List.mem_filter, Bool.and_eq_true, Bool.not_eq_true', hmem]
  refine and_iff_right_of_imp fun hdir => ?_
  rw [isDirectory_iff.mp hdir.1]
  exact Option.some_ne_none _

theorem mem_here {here : Option WorkspaceMemberKind}
    (h : workspaceDescriptorKind t path = .ok here) :
    (below, kind) ∈ here.toList.map (fun kind => (path, kind)) ↔
      below = path ∧ workspaceDescriptorKind t below = .ok (some kind) := by
  rw [List.mem_map]
  constructor
  · rintro ⟨kind', hkind, heq⟩
    cases heq
    rw [Option.mem_toList.mp hkind] at h
    exact ⟨rfl, h⟩
  · rintro ⟨rfl, hkind⟩
    rw [h] at hkind
    exact ⟨kind, Option.mem_toList.mpr (Except.ok.inj hkind), rfl⟩

/-- The scan finds the descriptors of every directory that it goes into. -/
theorem scanBelow_ok (h : scanBelow t levels path = .ok found) :
    (below, kind) ∈ found ↔ (∃ names, below = path ++ names ∧ names.length ≤ levels ∧
      Descends t path names ∧ ∀ name ∈ names, isSkipped name = false) ∧
        workspaceDescriptorKind t below = .ok (some kind) := by
  induction levels generalizing path found with
  | zero =>
    obtain ⟨here, hhere, h⟩ := Result.bind_ok.mp h
    obtain rfl := Except.ok.inj h
    rw [mem_here hhere]
    refine and_congr_left fun _ => ⟨?_, ?_⟩
    · rintro rfl
      exact ⟨[], (List.append_nil _).symm, Nat.le_refl 0, trivial, by simp⟩
    · rintro ⟨names, rfl, hlength, -⟩
      rw [List.length_eq_zero_iff.mp (Nat.le_zero.mp hlength), List.append_nil]
  | succ levels ih =>
    obtain ⟨here, hhere, h⟩ := Result.bind_ok.mp h
    obtain ⟨names, hnames, h⟩ := Result.bind_ok.mp h
    obtain ⟨founds, hfounds, h⟩ := Result.bind_ok.mp h
    obtain rfl := Except.ok.inj h
    obtain ⟨hleft, hright⟩ := Result.mem_mapM hfounds
    rw [List.mem_append, mem_here hhere, List.mem_flatten]
    constructor
    · rintro (⟨rfl, hkind⟩ | ⟨found, hfound, hmem⟩)
      · exact ⟨⟨[], (List.append_nil _).symm, Nat.zero_le _, trivial, by simp⟩, hkind⟩
      · obtain ⟨name, hname, hscan⟩ := hright found hfound
        obtain ⟨hdir, hskip⟩ := (mem_children hnames).mp hname
        obtain ⟨⟨rest, rfl, hlength, hdescends, hrest⟩, hkind⟩ := (ih hscan).mp hmem
        exact ⟨⟨name :: rest, List.append_assoc _ _ _, Nat.succ_le_succ hlength,
          ⟨hdir, hdescends⟩, List.forall_mem_cons.mpr ⟨hskip, hrest⟩⟩, hkind⟩
    · rintro ⟨⟨rest, rfl, hlength, hdescends, hskip⟩, hkind⟩
      cases rest with
      | nil => exact .inl ⟨List.append_nil _, hkind⟩
      | cons name rest =>
        have hskips := List.forall_mem_cons.mp hskip
        obtain ⟨found, hfound, hscan⟩ :=
          hleft name ((mem_children hnames).mpr ⟨hdescends.1, hskips.1⟩)
        exact .inr ⟨found, hfound, (ih hscan).mpr ⟨⟨rest, (List.append_cons _ _ _),
          Nat.le_of_succ_le_succ hlength, hdescends.2, hskips.2⟩, hkind⟩⟩

/-- The descriptor of a directory, when it has one. -/
def kindOf (t : Tree) (path : List String) : Option WorkspaceMemberKind :=
  (workspaceDescriptorKind t path).toOption.join

theorem kindOf_eq (h : workspaceDescriptorKind t path = .ok (some kind)) :
    kindOf t path = some kind := by
  rw [kindOf, h]
  rfl

theorem scanWorkspaceDescriptors_ok (h : scanWorkspaceDescriptors t = .ok found) :
    KeyMap.Ordered found ∧ ∀ path kind, (path, kind) ∈ found ↔
      Scanned t path ∧ workspaceDescriptorKind t path = .ok (some kind) := by
  obtain ⟨scanned, hscanned, h⟩ := Result.bind_ok.mp h
  obtain rfl := Except.ok.inj h
  refine ⟨KeyMap.Ordered.insertAll List.Pairwise.nil, fun path kind => ?_⟩
  have hagree : ∀ item ∈ scanned, kindOf t item.1 = some item.2 := fun item hitem =>
    kindOf_eq ((scanBelow_ok hscanned).mp hitem).2
  rw [KeyMap.mem_insertAll_of_agree hagree (by simp), scanBelow_ok hscanned]
  simp [Scanned]

end Scan

/-! ## The selected members -/

section Selection

variable {t : Tree} {pattern : String} {patterns patterns' : List String} {path : List String}
  {selected result : List (List String × WorkspaceMemberKind)} {kind : WorkspaceMemberKind}

/-- Some pattern selects the directory, and it has a descriptor of this kind. -/
def IsMember (t : Tree) (patterns : List String) (path : List String)
    (kind : WorkspaceMemberKind) : Prop :=
  (∃ pattern ∈ patterns, Selects t pattern path) ∧
    workspaceDescriptorKind t path = .ok (some kind)

theorem selectMembers_ok (h : selectMembers t patterns selected = .ok result)
    (hordered : KeyMap.Ordered selected)
    (hagree : ∀ item ∈ selected, kindOf t item.1 = some item.2) :
    KeyMap.Ordered result ∧ ∀ path kind, (path, kind) ∈ result ↔
      IsMember t patterns path kind ∨ (path, kind) ∈ selected := by
  induction patterns generalizing selected with
  | nil =>
    obtain rfl := Except.ok.inj h
    exact ⟨hordered, fun path kind => by simp [IsMember]⟩
  | cons pattern patterns ih =>
    obtain ⟨members, hmembers, h⟩ := Result.bind_ok.mp h
    have hmember : ∀ item ∈ members, kindOf t item.1 = some item.2 := fun item hitem =>
      kindOf_eq ((membersOf_ok hmembers).mp hitem).2
    have hagree' : ∀ item ∈ KeyMap.insertAll members selected,
        kindOf t item.1 = some item.2 := fun item hitem =>
      (KeyMap.mem_insertAll hitem).elim (hmember item) (hagree item)
    obtain ⟨hresult, hmem⟩ := ih h hordered.insertAll hagree'
    refine ⟨hresult, fun path kind => ?_⟩
    rw [hmem, KeyMap.mem_insertAll_of_agree hmember hagree, membersOf_ok hmembers]
    unfold IsMember
    rw [List.exists_mem_cons_iff, or_and_right, or_left_comm, or_assoc]

theorem selectMembers_exists : (∃ result, selectMembers t patterns selected = .ok result) ↔
    ∀ pattern ∈ patterns, ∃ members, membersOf t pattern = .ok members := by
  induction patterns generalizing selected with
  | nil => exact iff_of_true ⟨selected, rfl⟩ (by simp)
  | cons pattern patterns ih =>
    rw [List.forall_mem_cons]
    constructor
    · rintro ⟨result, h⟩
      obtain ⟨members, hmembers, h⟩ := Result.bind_ok.mp h
      exact ⟨⟨members, hmembers⟩, ih.mp ⟨result, h⟩⟩
    · rintro ⟨⟨members, hmembers⟩, hrest⟩
      obtain ⟨result, h⟩ := ih.mpr hrest
      exact ⟨result, Result.bind_ok.mpr ⟨members, hmembers, h⟩⟩

/-- The order of the patterns does not matter to what they select. -/
theorem selectMembers_perm (hperm : patterns.Perm patterns')
    (h : selectMembers t patterns [] = .ok result) : selectMembers t patterns' [] = .ok result := by
  obtain ⟨result', h'⟩ := selectMembers_exists.mpr fun pattern hpattern =>
    selectMembers_exists.mp ⟨result, h⟩ pattern (hperm.mem_iff.mpr hpattern)
  obtain ⟨hordered, hmem⟩ := selectMembers_ok h List.Pairwise.nil (by simp)
  obtain ⟨hordered', hmem'⟩ := selectMembers_ok h' List.Pairwise.nil (by simp)
  rw [h']
  refine congrArg _ (hordered'.ext hordered fun item => ?_)
  rw [hmem', hmem, IsMember, IsMember]
  simp only [hperm.mem_iff]

theorem validateMembers_ok {seen : List String} : validateMembers seen patterns = .ok () ↔
    (∀ member ∈ patterns, workspaceMemberProblem member = none ∧ member ∉ seen) ∧
      patterns.Nodup := by
  induction patterns generalizing seen with
  | nil => simp [validateMembers]
  | cons member rest ih =>
    rw [validateMembers, List.forall_mem_cons, List.nodup_cons]
    cases hproblem : workspaceMemberProblem member with
    | some reason => simp
    | none =>
      by_cases hseen : member ∈ seen
      · simp [hseen]
      · simp only [if_neg hseen, ih, List.mem_cons, not_or]
        constructor
        · rintro ⟨hrest, hnodup⟩
          exact ⟨⟨⟨trivial, hseen⟩, fun other hother => ⟨(hrest other hother).1,
            (hrest other hother).2.2⟩⟩, fun hmem => (hrest member hmem).2.1 rfl, hnodup⟩
        · rintro ⟨⟨-, hrest⟩, hmem, hnodup⟩
          refine ⟨fun other hother => ⟨(hrest other hother).1, ?_, (hrest other hother).2⟩, hnodup⟩
          rintro rfl
          exact hmem hother

theorem validateMembers_perm (hperm : patterns.Perm patterns')
    (h : validateMembers [] patterns = .ok ()) : validateMembers [] patterns' = .ok () := by
  obtain ⟨hmembers, hnodup⟩ := validateMembers_ok.mp h
  exact validateMembers_ok.mpr ⟨fun member hmember => hmembers member (hperm.mem_iff.mpr hmember),
    hperm.nodup_iff.mp hnodup⟩

end Selection

/-! ## Other orders of the listings -/

/-- The same tree, with the names in every directory read in some other order. -/
structure Reordered (t t' : Tree) : Prop where
  root : t'.root = t.root
  node : t'.node = t.node
  listing : ∀ path, Option.Rel List.Perm (t.listing path) (t'.listing path)

section Reordering

variable {t t' : Tree} {path : List String}

/-- Both fail alike, or succeed with the same elements in some order. -/
def SameUpToOrder {α : Type} (x y : Result (List α)) : Prop :=
  (∃ error, x = .error error ∧ y = .error error) ∨
    ∃ as bs, x = .ok as ∧ y = .ok bs ∧ as.Perm bs

theorem error_bind {α β : Type} (error : Error) (f : α → Result β) :
    (Except.error error >>= f) = Except.error error := rfl

theorem ok_bind {α β : Type} (a : α) (f : α → Result β) : ((.ok a : Result α) >>= f) = f a := rfl

theorem Reordered.readDir_same (h : Reordered t t') (path : List String) :
    SameUpToOrder (t.readDir path) (t'.readDir path) := by
  have htext : t'.text path = t.text path := by rw [Tree.text, Tree.text, h.root]
  have hlisting := h.listing path
  unfold Tree.readDir
  cases hnames : t.listing path with
  | none =>
    cases hnames' : t'.listing path with
    | none => exact .inl ⟨_, rfl, by rw [htext]; rfl⟩
    | some names' => simp [hnames, hnames'] at hlisting
  | some names =>
    cases hnames' : t'.listing path with
    | none => simp [hnames, hnames'] at hlisting
    | some names' =>
      rw [hnames, hnames'] at hlisting
      exact .inr ⟨names, names', rfl, rfl, by simpa using hlisting⟩

theorem Reordered.kind_eq (h : Reordered t t') :
    workspaceDescriptorKind t' = workspaceDescriptorKind t := by
  ext1 path
  simp only [workspaceDescriptorKind, Tree.isFile, Tree.text, h.root, h.node]

theorem Reordered.scanBelow_eq (h : Reordered t t') (levels : Nat) (path : List String) :
    scanBelow t' levels path = scanBelow t levels path := by
  induction levels generalizing path with
  | zero => rw [scanBelow, scanBelow, h.kind_eq]
  | succ levels ih =>
    rw [scanBelow, scanBelow, h.kind_eq]
    refine bind_congr fun kind => ?_
    dsimp only
    rcases h.readDir_same path with ⟨error, herror, herror'⟩ |
      ⟨names, names', hnames, hnames', hperm⟩
    · rw [herror, herror', error_bind, error_bind]
    · -- the children are sorted
      have hchildren : sortBy id (names'.filter fun name =>
          t'.isDirectory (path ++ [name]) && !isSkipped name) =
          sortBy id (names.filter fun name =>
            t.isDirectory (path ++ [name]) && !isSkipped name) := by
        simp only [Tree.isDirectory, h.node]
        exact SortBy.sortBy_eq_of_perm (hperm.symm.filter _) fun _ _ _ _ heq => heq
      have hscans : (fun name => scanBelow t' levels (path ++ [name])) =
          fun name => scanBelow t levels (path ++ [name]) := funext fun name => ih _
      rw [hnames, hnames', ok_bind, ok_bind, hchildren, hscans]

theorem Reordered.expandComponent_same (h : Reordered t t') (component : String)
    (parent : List String) :
    SameUpToOrder (expandComponent t component parent) (expandComponent t' component parent) := by
  unfold expandComponent
  split
  · rcases h.readDir_same parent with ⟨error, herror, herror'⟩ |
      ⟨names, names', hnames, hnames', hperm⟩
    · exact .inl ⟨error, by rw [herror]; rfl, by rw [herror']; rfl⟩
    · refine .inr ⟨_, _, by rw [hnames]; rfl, by rw [hnames']; rfl, ?_⟩
      simp only [Tree.isDirectory, h.node]
      exact (hperm.filter _).map _
  · simp only [Tree.isDirectory, h.node]
    exact .inr ⟨_, _, rfl, rfl, .refl _⟩

/-- Lists that are gathered from parts in some order. -/
theorem mapM_same {α β : Type} {f g : α → Result (List β)}
    (hfg : ∀ a, SameUpToOrder (f a) (g a)) (as : List α) :
    (∃ error, as.mapM f = .error error ∧ as.mapM g = .error error) ∨
      ∃ bs cs, as.mapM f = .ok bs ∧ as.mapM g = .ok cs ∧ bs.flatten.Perm cs.flatten := by
  induction as with
  | nil => exact .inr ⟨[], [], rfl, rfl, .refl _⟩
  | cons a as ih =>
    rw [List.mapM_cons, List.mapM_cons]
    rcases hfg a with ⟨error, hf, hg⟩ | ⟨b, c, hf, hg, hperm⟩
    · exact .inl ⟨error, by rw [hf]; rfl, by rw [hg]; rfl⟩
    · rcases ih with ⟨error, hfs, hgs⟩ | ⟨bs, cs, hfs, hgs, hperms⟩
      · exact .inl ⟨error, by rw [hf, hfs]; rfl, by rw [hg, hgs]; rfl⟩
      · exact .inr ⟨b :: bs, c :: cs, by rw [hf, hfs]; rfl, by rw [hg, hgs]; rfl,
          hperm.append hperms⟩

theorem Reordered.expandComponents_eq (h : Reordered t t') (components : List String)
    (candidates : List (List String)) :
    expandComponents t' components candidates = expandComponents t components candidates := by
  induction components generalizing candidates with
  | nil => rfl
  | cons component rest ih =>
    rw [expandComponents, expandComponents]
    rcases mapM_same (h.expandComponent_same component) candidates with
      ⟨error, herror, herror'⟩ | ⟨found, found', hfound, hfound', hperm⟩
    · rw [herror, herror', error_bind, error_bind]
    · have hsorted : (sortBy id found'.flatten).destutter (· ≠ ·) =
          (sortBy id found.flatten).destutter (· ≠ ·) :=
        SortBy.destutter_sortBy_eq (fun _ => hperm.symm.mem_iff) fun _ _ _ _ heq => heq
      rw [hfound, hfound', ok_bind, ok_bind, hsorted]
      simp only [ih]

theorem Reordered.membersOf_eq (h : Reordered t t') (pattern : String) :
    membersOf t' pattern = membersOf t pattern := by
  have hexpand : expandWorkspaceMemberPattern t' pattern =
      expandWorkspaceMemberPattern t pattern := by
    simp only [expandWorkspaceMemberPattern, h.expandComponents_eq]
  have htext : t'.text = t.text := by
    ext1 path
    rw [Tree.text, Tree.text, h.root]
  have hmember : memberOf t' pattern = memberOf t pattern := by
    ext1 path
    rw [memberOf, memberOf, h.kind_eq, htext]
  rw [membersOf, membersOf, hexpand, hmember]

theorem Reordered.selectMembers_eq (h : Reordered t t') (patterns : List String)
    (selected : List (List String × WorkspaceMemberKind)) :
    selectMembers t' patterns selected = selectMembers t patterns selected := by
  induction patterns generalizing selected with
  | nil => rfl
  | cons pattern rest ih =>
    rw [selectMembers, selectMembers, h.membersOf_eq]
    simp only [ih]

theorem Reordered.discover_eq (h : Reordered t t') (explicit : Option (List String)) :
    discoverWorkspaceMembers t' explicit = discoverWorkspaceMembers t explicit := by
  have hscan : scanWorkspaceDescriptors t' = scanWorkspaceDescriptors t := by
    simp only [scanWorkspaceDescriptors, h.scanBelow_eq]
  have hselected : selectedMembers t' = selectedMembers t := by
    ext1 scanned
    ext1 explicit
    cases explicit with
    | none => rfl
    | some patterns => simp only [selectedMembers, declaredMembers, h.selectMembers_eq]
  rw [discoverWorkspaceMembers, discoverWorkspaceMembers, hscan, hselected]

end Reordering

/-! ## Discovery -/

/-- All members. -/
def WorkspaceMembers.all (members : WorkspaceMembers) : List (List String) :=
  members.bundles ++ members.libraries ++ members.tools

def WorkspaceMembers.ofKind (members : WorkspaceMembers) : WorkspaceMemberKind → List (List String)
  | .bundle => members.bundles
  | .library => members.libraries
  | .tool => members.tools

/-- The members are what the patterns select, each once; nothing that the scan finds is left out;
and other orders of the patterns and of the listings give the same members. -/
structure Discovered (t : Tree) (patterns : List String) (members : WorkspaceMembers) : Prop where
  exact : ∀ kind path, path ∈ members.ofKind kind ↔ IsMember t patterns path kind
  once : members.all.Nodup
  complete : ∀ path kind, Scanned t path → workspaceDescriptorKind t path = .ok (some kind) →
    path ∈ members.all
  stable : ∀ t' patterns', Reordered t t' → patterns.Perm patterns' →
    discoverWorkspaceMembers t' (some patterns') = .ok members

section Discovery

variable {t : Tree} {patterns : List String} {members : WorkspaceMembers}
  {selected : List (List String × WorkspaceMemberKind)}

theorem ofKind_membersByKind (kind : WorkspaceMemberKind) :
    (membersByKind selected).ofKind kind = pathsOf kind selected := by
  cases kind <;> rfl

theorem mem_pathsOf {path : List String} {kind : WorkspaceMemberKind} :
    path ∈ pathsOf kind selected ↔ (path, kind) ∈ selected := by
  rw [pathsOf, List.mem_map]
  constructor
  · rintro ⟨⟨path', kind'⟩, hmem, rfl⟩
    obtain ⟨hselected, hkind⟩ := List.mem_filter.mp hmem
    obtain rfl : kind' = kind := by simpa using hkind
    exact hselected
  · exact fun h => ⟨(path, kind), List.mem_filter.mpr ⟨h, by simp⟩, rfl⟩

theorem mem_all {path : List String} :
    path ∈ (membersByKind selected).all ↔ ∃ kind, (path, kind) ∈ selected := by
  simp only [WorkspaceMembers.all, membersByKind, List.mem_append, mem_pathsOf]
  constructor
  · rintro ((h | h) | h)
    · exact ⟨_, h⟩
    · exact ⟨_, h⟩
    · exact ⟨_, h⟩
  · rintro ⟨kind, h⟩
    cases kind with
    | bundle => exact .inl (.inl h)
    | library => exact .inl (.inr h)
    | tool => exact .inr h

theorem nodup_all (h : KeyMap.Ordered selected) : (membersByKind selected).all.Nodup := by
  have hvalue : ∀ {path : List String} {kind kind' : WorkspaceMemberKind},
      (path, kind) ∈ selected → (path, kind') ∈ selected → kind = kind' := by
    intro path kind kind' hmem hmem'
    have heq := List.inj_on_of_nodup_map h.nodup hmem hmem' rfl
    exact (Prod.mk.inj heq).2
  have hkind : ∀ kind, (pathsOf kind selected).Nodup := fun kind =>
    h.nodup.sublist (List.filter_sublist.map _)
  have happart : ∀ kind kind', kind ≠ kind' →
      ∀ path ∈ pathsOf kind selected, path ∉ pathsOf kind' selected :=
    fun kind kind' hne path hmem hmem' =>
      hne (hvalue (mem_pathsOf.mp hmem) (mem_pathsOf.mp hmem'))
  rw [WorkspaceMembers.all, List.nodup_append', List.nodup_append']
  refine ⟨⟨hkind _, hkind _, ?_⟩, hkind _, ?_⟩
  · exact happart .bundle .library (by decide)
  · intro path hmem
    rcases List.mem_append.mp hmem with hmem | hmem
    · exact happart .bundle .tool (by decide) path hmem
    · exact happart .library .tool (by decide) path hmem

/-- What was discovered is what the patterns select. -/
theorem discovered (h : discoverWorkspaceMembers t (some patterns) = .ok members) :
    Discovered t patterns members := by
  have hrun := h
  obtain ⟨⟨⟩, hvalid, h⟩ := Result.bind_ok.mp h
  obtain ⟨scanned, hscanned, h⟩ := Result.bind_ok.mp h
  obtain ⟨selected, hselected, h⟩ := Result.bind_ok.mp h
  obtain rfl := Except.ok.inj h
  obtain ⟨selected', hselect, hdeclared⟩ := Result.bind_ok.mp hselected
  obtain ⟨⟨⟩, homitted, hdeclared⟩ := Result.bind_ok.mp hdeclared
  obtain rfl := Except.ok.inj hdeclared
  obtain ⟨hordered, hmem⟩ := selectMembers_ok hselect List.Pairwise.nil (by simp)
  obtain ⟨-, hfound⟩ := scanWorkspaceDescriptors_ok hscanned
  refine ⟨fun kind path => ?_, nodup_all hordered, fun path kind hscan hkind => ?_,
    fun t' patterns' hreordered hperm => ?_⟩
  · rw [ofKind_membersByKind, mem_pathsOf, hmem]
    simp
  · -- a path that was left out would have been reported
    rw [mem_all]
    by_contra hout
    refine Result.failIf_ok.mp homitted ?_
    have hmissing : (path, kind) ∈
        scanned.filter fun found => (selected'.lookup found.1).isNone := by
      refine List.mem_filter.mpr ⟨(hfound path kind).mpr ⟨hscan, hkind⟩, ?_⟩
      rw [Option.isNone_iff_eq_none]
      cases hlookup : selected'.lookup path with
      | none => rfl
      | some kind' =>
        obtain ⟨before, after, heq, -⟩ := List.lookup_eq_some_iff.mp hlookup
        exact absurd ⟨kind', by simp [heq]⟩ hout
    rw [List.isEmpty_iff]
    intro hnil
    rw [hnil] at hmissing
    cases hmissing
  · have hvalid' : Result.forAll (validateMembers []) (some patterns').toList = .ok () := by
      refine Result.forAll_ok.mpr fun members hmembers => ?_
      obtain rfl := Option.mem_toList.mp hmembers |> Option.some.inj
      exact validateMembers_perm hperm (Result.forAll_ok.mp hvalid patterns (by simp))
    rw [hreordered.discover_eq]
    refine Result.bind_ok.mpr ⟨(), hvalid', Result.bind_ok.mpr ⟨scanned, hscanned,
      Result.bind_ok.mpr ⟨selected', Result.bind_ok.mpr
        ⟨selected', selectMembers_perm hperm hselect, ?_⟩, rfl⟩⟩⟩
    exact Result.bind_ok.mpr ⟨(), homitted, rfl⟩

end Discovery

/-! ## A member beside build residue -/

namespace Sample

/-- Two directories with the descriptor of a bundle, one of them under an excluded name. -/
def node : List String → Option FileKind
  | [] | ["a"] | ["build"] => some .directory
  | ["a", "openstrata.plugin.yaml"] | ["build", "openstrata.plugin.yaml"] => some .file
  | _ => none

def listing : List String → Option (List String)
  | [] => some ["a", "build"]
  | ["a"] | ["build"] => some ["openstrata.plugin.yaml"]
  | _ => none

theorem mem_listing {path names : List String} (h : listing path = some names) :
    names.Nodup ∧ ∀ name, name ∈ names ↔ node (path ++ [name]) ≠ none := by
  unfold listing at h
  split at h
  · obtain rfl := Option.some.inj h
    refine ⟨by decide, fun name => ?_⟩
    unfold node
    split <;> simp_all
  · obtain rfl := Option.some.inj h
    refine ⟨by decide, fun name => ?_⟩
    unfold node
    split <;> simp_all
  · obtain rfl := Option.some.inj h
    refine ⟨by decide, fun name => ?_⟩
    unfold node
    split <;> simp_all
  · cases h

def tree : Tree where
  root := "/w"
  node := node
  listing := listing
  nodup := fun h => (mem_listing h).1
  mem_listing := fun h => (mem_listing h).2

theorem run : discoverWorkspaceMembers tree (some ["*"]) = .ok ⟨[["a"]], [], []⟩ := by rfl

end Sample

theorem discovered_sample : Discovered Sample.tree ["*"] ⟨[["a"]], [], []⟩ :=
  discovered Sample.run

/-- A directory with a descriptor that a wildcard stands for, but for its name. -/
theorem residue_not_discovered :
    discoverWorkspaceMembers Sample.tree (some ["*"]) = .ok ⟨[["a"]], [], []⟩ ∧
      Sample.tree.isDirectory ["build"] = true ∧
      workspaceDescriptorKind Sample.tree ["build"] = .ok (some .bundle) ∧
      Glob.Matches '*' (fun a b => a = '?' ∨ a = b) "*".toList "build".toList :=
  ⟨Sample.run, rfl, rfl, .star "build".toList .nil⟩

end OpenStrata.Plugin.Members
