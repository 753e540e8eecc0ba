import OpenStrata.Formation.Composition

/-!
# The SDK projection

The deterministic SDK layout of a locked component inventory: the files that install mappings
project out of the component prefixes, their links rewritten to stay inside the SDK, and the
environment of its activation for every operating system.

## Main definitions

* `CompositionInventoryEntry`: a file of a component in a composed runtime
* `RuntimeSdkLayout`: the SDK projection
* `RuntimeSdkLayout.derive`: its derivation from a resolved composition and its inventory
-/

namespace OpenStrata

open Std (ExtTreeMap)
open SortBy (sortBy)

def SDK_ROOTS : List String :=
  ["bin", "lib", "include", "share", "plugins", "python", "node", "metadata"]

structure CompositionInventoryEntry where
  component : String
  artifact : String
  file : ManifestFile
  deriving DecidableEq, Repr

structure SdkFile where
  component : String
  artifact : String
  /-- Path in the retained component inventory. -/
  source : String
  file : ManifestFile
  deriving DecidableEq, Repr

/-- The formation's contribution of prefix-relative paths to one variable. -/
structure Formation.EnvironmentContribution where
  key : String
  operation : String
  source : String
  paths : List String
  deriving DecidableEq, Repr

structure RuntimeSdkLayout where
  schema : String
  roots : List String
  files : List SdkFile
  /-- The portable environment contract, separately for each operating system. -/
  environment : ExtTreeMap String (List Formation.EnvironmentContribution)
  /-- Literal activation settings, separate from search paths. -/
  settings : ExtTreeMap String String
  deriving DecidableEq

namespace RuntimeSdkLayout

/-! ## Paths -/

def pathInvalid (message : String) : Error :=
  .ofCode "COMPOSITION_SDK_PATH_INVALID" .validation message

def linkInvalid (message : String) : Error :=
  .ofCode "COMPOSITION_SDK_LINK_INVALID" .validation message

def pathCollision (message : String) : Error :=
  .ofCode "COMPOSITION_INSTALL_PATH_COLLISION" .validation message

def environmentConflict (message : String) : Error :=
  .ofCode "COMPOSITION_ENVIRONMENT_CONFLICT" .validation message

/-- The components of a path, without empty ones and dots; none climbs. -/
def portableParts : List String → Result (List String)
  | [] => .ok []
  | part :: rest =>
    if part = "" ∨ part = "." then portableParts rest
    else if part = ".." then .error (pathInvalid "SDK paths cannot contain '..'")
    else if Text.endsWith "." part ∨ Text.endsWith " " part then
      .error (pathInvalid "SDK paths cannot end in dots or spaces")
    else do return part :: (← portableParts rest)

/-- A character that separates path lists or ends lines. -/
def isPathListChar (c : Char) : Bool := c.toNat == 0 || c == '\n' || c == '\r' || c == ';'

def portable (path : String) : Result String := do
  let path := Text.replaceChar '\\' '/' path
  Result.failIf (Text.startsWith "/" path ∨ Text.containsChar ':' path ∨
      Text.any isPathListChar path)
    (pathInvalid ("unsafe SDK path '" ++ path ++ "'"))
  return Text.join "/" (← portableParts (Text.split (· == '/') path))

/-- Where a path of a mapping's source lands under its destination. -/
def mapped (path source destination : String) : Option String :=
  if path = source then some destination
  else (Text.stripPrefix (source ++ "/") path).map fun tail => destination ++ "/" ++ tail

def equalIgnoringCase (a b : String) : Bool := Text.toAsciiLowercase a == Text.toAsciiLowercase b

/-- A portable path, its first component spelled as the SDK root of that name. -/
def sdkDestination (path : String) : Result String := do
  let path ← portable path
  let (top, tail) := (Text.splitOnce "/" path).getD (path, "")
  match SDK_ROOTS.find? (equalIgnoringCase · top) with
  | some root => return if tail.isEmpty then root else root ++ "/" ++ tail
  | none => return path

/-- Follow the components of a relative link from a directory of the component. -/
def followLink (parts : List String) : List String → Result (List String)
  | [] => .ok parts
  | part :: rest =>
    if part = "" ∨ part = "." then followLink parts rest
    else if part = ".." then
      if parts = [] then .error (linkInvalid "symlink escapes component")
      else followLink parts.dropLast rest
    else followLink (parts ++ [part]) rest

def linkDestination (source target : String) : Result String := do
  Result.failIf (Text.startsWith "/" target ∨ Text.startsWith "\\" target ∨
      Text.containsChar ':' target ∨ Text.containsChar '\\' target)
    (linkInvalid "SDK symlinks must be relative")
  return Text.join "/"
    (← followLink (Text.split (· == '/') source).dropLast (Text.split (· == '/') target))

/-- The number of leading components two paths share. -/
def commonLength : List String → List String → Nat
  | a :: as, b :: bs => if a = b then commonLength as bs + 1 else 0
  | _, _ => 0

def relativeLink (path target : String) : String :=
  let start := (Text.split (· == '/') path).dropLast
  let goal := Text.split (· == '/') target
  let common := commonLength start goal
  let parts := List.replicate (start.length - common) ".." ++ goal.drop common
  if parts = [] then "." else Text.join "/" parts

/-- The ancestors of a path, the closest first. -/
def parents (path : String) : List String :=
  let parts := Text.split (· == '/') path
  (List.range (parts.length - 1)).reverse.map fun n => Text.join "/" (parts.take (n + 1))

/-- `str::trim_end_matches` of slashes. -/
def trimEndSlashes (path : String) : String :=
  String.ofList (path.toList.reverse.dropWhile (· == '/')).reverse

/-! ## Files -/

abbrev Inventory := ExtTreeMap String CompositionInventoryEntry

def inventoryOf (entries : List CompositionInventoryEntry) : Inventory :=
  ExtTreeMap.ofList (entries.map fun entry => (entry.file.path, entry))

/-- The entries below a directory, in path order. -/
def descendantsOf (inventory : Inventory) (directory : String) :
    List CompositionInventoryEntry :=
  let below := directory ++ "/"
  (((inventory.toList.dropWhile fun e => e.1 < below).takeWhile fun e =>
    Text.startsWith below e.1)).map (·.2)

abbrev Files := ExtTreeMap String SdkFile

/-- Project the entries of a mapping in order, and tell whether there was one. -/
def projectEntries (root source destination : String) :
    Files → Bool → List CompositionInventoryEntry → Result (Files × Bool)
  | files, found, [] => .ok (files, found)
  | files, found, entry :: rest =>
    let original := (Text.stripPrefix root entry.file.path).getD entry.file.path
    match mapped original source destination with
    | none => projectEntries root source destination files found rest
    | some target => do
      let path ← portable target
      let key := Text.toAsciiLowercase path
      Result.failIf (files.contains key)
        (pathCollision ("expanded SDK destination '" ++ target ++ "' has multiple owners"))
      let file : SdkFile := {
        component := entry.component
        artifact := entry.artifact
        source := entry.file.path
        file := { entry.file with path } }
      projectEntries root source destination (files.insert key file) true rest

/-- Project one install mapping. -/
def projectMapping (inventory : Inventory) (files : Files) (mapping : ResolvedInstallMapping) :
    Result Files := do
  let source ← portable mapping.source
  let destination ← sdkDestination mapping.destination
  let top := (Text.split (· == '/') destination).headD ""
  Result.failIf (destination.isEmpty ∨ equalIgnoringCase top "components" ∨
      equalIgnoringCase top "metadata")
    (pathInvalid ("reserved SDK destination '" ++ destination ++ "'"))
  let root := "components/" ++ mapping.component ++ "/"
  let fullSource := root ++ source
  let entries := inventory[fullSource]?.toList ++ descendantsOf inventory fullSource
  let (files, found) ← projectEntries root source destination files false entries
  Result.failIf (¬ found)
    (.ofCode "COMPOSITION_INSTALL_SOURCE_MISSING" .validation
      ("component '" ++ mapping.component ++ "' install source '" ++ source ++
        "' has no inventory entries"))
  return files

def projectMappings (inventory : Inventory) :
    Files → List ResolvedInstallMapping → Result Files
  | files, [] => .ok files
  | files, mapping :: rest => do projectMappings inventory (← projectMapping inventory files mapping) rest

/-- No file is a directory of another, or an SDK root. -/
def checkFiles (files : Files) : Result Unit :=
  Result.forAll (fun key => do
    Result.forAll (fun parent => Result.failIf (files.contains parent)
      (pathCollision ("SDK file '" ++ parent ++ "' is also a parent directory"))) (parents key)
    Result.failIf (key ∈ SDK_ROOTS) (pathCollision "SDK roots must be directories")) files.keys

/-- Directories in order, each spelled as before. -/
def checkSpelling : ExtTreeMap String String → List String → Result Unit
  | _, [] => .ok ()
  | directories, directory :: rest => do
    let key := Text.toAsciiLowercase directory
    Result.failIf (directories[key]?.any fun previous => previous ≠ directory)
      (pathCollision ("SDK directory casing aliases '" ++ (directories[key]?.getD "") ++ "' and '" ++
        directory ++ "'"))
    checkSpelling (directories.insert key directory) rest

/-- Where the target of a link was installed: the file itself, or the directory of the files
below it. -/
def installedAt (fullTarget : String) (file : SdkFile) : Option String :=
  if file.source = fullTarget then some file.file.path
  else (Text.stripPrefix (fullTarget ++ "/") file.source).bind fun tail =>
    Text.stripSuffix ("/" ++ tail) file.file.path

/-- Point a link at the one place its target was installed at. -/
def rewriteLink (codec : Codec) (original : List SdkFile) (file : SdkFile) : Result SdkFile :=
  match file.file.linkTarget with
  | none => .ok file
  | some target => do
    let root := "components/" ++ file.component ++ "/"
    let source := (Text.stripPrefix root file.source).getD file.source
    let target ← linkDestination source target
    let destination ← Result.okOr
      (linkInvalid ("symlink '" ++ file.source ++ "' has an uninstalled or ambiguous target '" ++
        target ++ "'"))
      (match (original.filterMap (installedAt (root ++ target))).dedup with
        | [destination] => some destination
        | _ => none)
    let link := relativeLink file.file.path destination
    return { file with
      file := { file.file with
        sha256 := sha256Hex codec (utf8 link)
        -- `len() as u64`
        size := (utf8 link).length % 2 ^ 64
        linkTarget := some link } }

/-- The files of the SDK in path order, their links rewritten. -/
def deriveFiles (codec : Codec) (inventory : Inventory) (install : List ResolvedInstallMapping) :
    Result (List SdkFile) := do
  let files ← projectMappings inventory ∅ install
  checkFiles files
  let files := sortBy (·.file.path) (TreeMap.values files)
  checkSpelling ∅ (files.flatMap fun entry => parents entry.file.path)
  files.mapM (rewriteLink codec files)

/-! ## Environment -/

def activationSettings : ExtTreeMap String String :=
  ExtTreeMap.ofList [("PYTHONDONTWRITEBYTECODE", "1"), ("PYTHONNOUSERSITE", "1")]

def loaderKey : Os → String
  | .linux => "LD_LIBRARY_PATH"
  | .macos => "DYLD_LIBRARY_PATH"
  | .windows => "PATH"

/-- The directories of a component that hold a `pxr` package, in order. -/
def pythonRoots (inventory : List CompositionInventoryEntry) (root : String) : List String :=
  (ExtTreeMap.ofList ((inventory.filterMap fun entry =>
    (Text.stripPrefix root entry.file.path).bind fun path =>
      ((Text.splitOnce "/pxr/" path).map (·.1)).or (Text.stripSuffix "/pxr" path)).map
        fun directory => (directory, ()))).keys

/-- A versioned `site-packages` directory of this Python ABI. -/
def isVersionedSitePackages (abi : Option String) (directory : String) : Bool :=
  match (Text.stripPrefix "lib/python" directory).bind (Text.stripSuffix "/site-packages") with
  | none => false
  | some version =>
    !version.isEmpty && Text.all (fun c => c.isDigit || c == '.') version &&
      abi.all fun abi => String.ofList (version.toList.filter (· ≠ '.')) == abi

/-- The Python directory of a runtime whose exporter declared none. -/
def runtimePythonPath (inventory : List CompositionInventoryEntry) (component target : String) :
    Option String :=
  let root := "components/" ++ component ++ "/"
  let roots := pythonRoots inventory root
  let abi := (Text.split (· == '-') target).findSome? (Text.stripPrefix "py")
  let unversioned := ["lib/python", "lib/site-packages", "Lib/site-packages"].find? (· ∈ roots)
  (unversioned.or (roots.find? (isVersionedSitePackages abi))).map (root ++ ·)

/-- A directory that plugin packages advertise without necessarily having it. -/
def isOptionalPath (resolved : ResolvedRuntimeComposition) (c : ResolvedEnvironmentContribution)
    (value : String) : Bool :=
  c.operation != "set" &&
    resolved.components.any (fun component => component.id == c.source && component.kind == "plugin") &&
    ((c.variableName == "PYTHONPATH" && value == "python") ||
      (c.variableName ∈ ["PATH", "LD_LIBRARY_PATH", "DYLD_LIBRARY_PATH"] && value == "lib"))

/-- Whether the inventory has the path, or anything below it. -/
def isPresent (inventory : Inventory) (path : String) : Bool :=
  inventory.contains path || !(descendantsOf inventory path).isEmpty

/-- The component-relative paths of a contribution. -/
def contributionPaths (resolved : ResolvedRuntimeComposition) (inventory : Inventory)
    (c : ResolvedEnvironmentContribution) : List String → Result (List String)
  | [] => .ok []
  | value :: rest => do
    let value ← portable value
    let path := trimEndSlashes ("components/" ++ c.source ++ "/" ++ value)
    let rest ← contributionPaths resolved inventory c rest
    return if isOptionalPath resolved c value && !isPresent inventory path then rest
      else path :: rest

def checkVariable (c : ResolvedEnvironmentContribution) : Result Unit := do
  Result.failIf (activationSettings.contains c.variableName)
    (environmentConflict ("'" ++ c.variableName ++
      "' is an SDK activation setting, not a path variable"))
  Result.failIf (¬ (c.variableName.toList.head?.any fun first => first.isUpper || first == '_'))
    (environmentConflict
      "SDK environment names must start with an uppercase letter or underscore")

/-- The contributions of the components in order, every setting of a variable the same. -/
def componentEnvironment (resolved : ResolvedRuntimeComposition) (inventory : Inventory) :
    ExtTreeMap String (List String) → List ResolvedEnvironmentContribution →
      Result (List Formation.EnvironmentContribution)
  | _, [] => .ok []
  | setPaths, c :: rest => do
    checkVariable c
    let paths ← contributionPaths resolved inventory c c.values
    if paths = [] then componentEnvironment resolved inventory setPaths rest
    else
      let contribution : Formation.EnvironmentContribution :=
        { key := c.variableName, operation := c.operation, source := c.source, paths }
      if c.operation = "set" then
        Result.failIf (setPaths[c.variableName]?.any fun previous => previous ≠ paths)
          (environmentConflict ("component-relative set values for '" ++ c.variableName ++
            "' resolve to different paths"))
        return contribution ::
          (← componentEnvironment resolved inventory (setPaths.insert c.variableName paths) rest)
      else
        return contribution :: (← componentEnvironment resolved inventory setPaths rest)

def prependPaths (key source : String) (paths : List String) : Formation.EnvironmentContribution :=
  { key, operation := "prepend", source, paths }

/-- The Python paths of the USD runtimes whose components declare none. -/
def pythonEnvironment (resolved : ResolvedRuntimeComposition)
    (inventory : List CompositionInventoryEntry) : List Formation.EnvironmentContribution :=
  (resolved.components.filter fun component =>
    component.kind == "runtime" &&
      resolved.providers.any (fun provider =>
        provider.component == component.id && provider.capability == "usd") &&
      !(resolved.environment.any fun c =>
        c.source == component.id && c.variableName == "PYTHONPATH")).filterMap fun component =>
    (runtimePythonPath inventory component.id component.target).map fun path =>
      prependPaths "PYTHONPATH" component.id [path]

/-- The public prefix of the SDK, added last and so searched first. -/
def activationEnvironment (env : List Formation.EnvironmentContribution) (os : Os) :
    Result (List Formation.EnvironmentContribution) := do
  let roots := [("PATH", "bin"), (loaderKey os, "lib"), ("PYTHONPATH", "python"),
    ("NODE_PATH", "node"), ("PXR_PLUGINPATH_NAME", "plugins"), ("CMAKE_PREFIX_PATH", "")]
  Result.forAll (fun root : String × String =>
    Result.failIf (env.any fun e => e.key == root.1 && e.operation == "set")
      (environmentConflict ("SDK activation cannot prepend to component set variable '" ++ root.1 ++
        "'"))) roots
  return env ++ roots.map fun root => prependPaths root.1 "runtime-sdk" [root.2]

/-- The environment contract for one operating system. -/
def environmentFor (resolved : ResolvedRuntimeComposition)
    (inventory : List CompositionInventoryEntry) (os : Os) :
    Result (List Formation.EnvironmentContribution) := do
  let env ← componentEnvironment resolved (inventoryOf inventory) ∅ resolved.environment
  activationEnvironment (env ++ pythonEnvironment resolved inventory) os

/-! ## The layout -/

/-- Derive the SDK layout of a resolved composition from the inventory locked with it. -/
def derive (codec : Codec) (resolved : ResolvedRuntimeComposition)
    (inventory : List CompositionInventoryEntry) : Result RuntimeSdkLayout := do
  let files ← deriveFiles codec (inventoryOf inventory) resolved.install
  let environment ← [Os.linux, .macos, .windows].mapM fun os =>
    return (os.asStr, ← environmentFor resolved inventory os)
  return {
    schema := "openstrata.runtime-sdk/v1alpha1"
    roots := SDK_ROOTS
    files
    environment := ExtTreeMap.ofList environment
    settings := activationSettings }

end RuntimeSdkLayout

end OpenStrata
