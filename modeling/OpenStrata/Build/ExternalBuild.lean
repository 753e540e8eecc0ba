import OpenStrata.Build.Completion
import OpenStrata.Ci.Document
import OpenStrata.Core.Find
import OpenStrata.Core.Parts
import OpenStrata.Core.Paths
import OpenStrata.Core.Unambiguous
import OpenStrata.Lib.KeyMap
import OpenStrata.Lib.SortBy

/-!
# External builds

Provenance for a build tree that was configured elsewhere. The record is derived from the tree's
CMake cache and bound to it by a digest over the entries that make up the identity of the build,
and to the selected runtime.

A record verifies on the cache and the runtime that it was derived from, in the directory that the
cache names. Where the hash has no collisions, the digest stands for the lines that it covers. In
them an absent entry is written as a text that an entry may also have as its value, so a cache in
which such an entry is absent and one in which it has that value share their digest.

## Main definitions

* `CMakeCache.parse`, `CMakeCache.get`: the entries of a cache
* `CMakeCache.identityDigestForScope`: the digest over the identity of a build
* `ExternalBuildProvenance.fromCacheForConfiguration`: the record of a tree
* `ExternalBuildProvenance.verifyAgainst`: the record still describes a tree

## Main results

* `identityDigestForScope_eq_iff`: which caches share a digest
* `provenance_bound_iff`: what a derived record and its digest tell about the tree
-/

namespace OpenStrata.ExternalBuild

open Path (slashed)

def EXTERNAL_BUILD_SCHEMA_V1 : String := "openstrata.external-build/v1"

def EXTERNAL_BUILD_SCHEMA : String := "openstrata.external-build/v2"

def IDENTITY_KEYS_V1 : List String :=
  ["CMAKE_HOME_DIRECTORY", "CMAKE_CACHEFILE_DIR", "CMAKE_GENERATOR", "CMAKE_BUILD_TYPE",
    "CMAKE_CXX_COMPILER", "CMAKE_CXX_STANDARD", "CMAKE_MSVC_RUNTIME_LIBRARY", "pxr_DIR",
    "_Python3_INCLUDE_DIR"]

/-- The cache entries that the identity of an external build is derived from. -/
def IDENTITY_KEYS : List String :=
  ["CMAKE_HOME_DIRECTORY", "CMAKE_CACHEFILE_DIR", "CMAKE_GENERATOR", "CMAKE_GENERATOR_INSTANCE",
    "CMAKE_GENERATOR_PLATFORM", "CMAKE_GENERATOR_TOOLSET", "CMAKE_BUILD_TYPE",
    "CMAKE_CONFIGURATION_TYPES", "CMAKE_CXX_COMPILER", "CMAKE_CXX_STANDARD",
    "CMAKE_MSVC_RUNTIME_LIBRARY", "pxr_DIR", "_Python3_INCLUDE_DIR"]

def COMPILER_IDENTITY_KEYS : List String :=
  ["CMAKE_CXX_COMPILER", "CMAKE_CXX_COMPILER_ID", "CMAKE_CXX_COMPILER_VERSION",
    "CMAKE_CXX_COMPILER_ARCHITECTURE_ID", "CMAKE_CXX_SIMULATE_ID", "CMAKE_CXX_SIMULATE_VERSION",
    "CMAKE_CXX_COMPILER_FRONTEND_VARIANT"]

/-- The identity keys that apply to an import. -/
def scopeKeys (requiresOpenusd : Bool) : List String :=
  IDENTITY_KEYS.filter fun key => requiresOpenusd || key != "pxr_DIR"

/-! ## Paths -/

/-- `str::trim_end_matches` of slashes. -/
def trimEnd (path : String) : String := String.ofList (path.toList.rdropWhile (· == '/'))

/-- Two texts as the file system of the host tells paths apart. -/
def sameText (os : Os) (left right : String) : Bool :=
  if os = .windows then Text.toAsciiLowercase left == Text.toAsciiLowercase right
  else left == right

def samePath (os : Os) (left right : String) : Bool :=
  sameText os (trimEnd (slashed left)) (trimEnd (slashed right))

/-- A path is the root or lies below it. -/
def pathIsWithin (os : Os) (path root : String) : Bool :=
  let path := trimEnd (slashed path)
  let root := trimEnd (slashed root)
  samePath os path root ||
    (if os = .windows then
      Text.startsWith (Text.toAsciiLowercase root ++ "/") (Text.toAsciiLowercase path)
    else Text.startsWith (root ++ "/") path)

theorem slashed_slashed (path : String) : slashed (slashed path) = slashed path :=
  Path.slashed_eq_self (Path.backslash_not_mem_slashed path)

theorem samePath_slashed (os : Os) (left right : String) :
    samePath os (slashed left) right = samePath os left right := by
  rw [samePath, samePath, slashed_slashed]

theorem samePath_refl (os : Os) (path : String) : samePath os path path := by
  cases os <;> simp [samePath, sameText]

/-! ## Caches -/

/-- Entries as they are read from the lines of a text, so that no value has a line end in it. -/
structure Entries where
  items : List (String × String)
  oneLine : ∀ item ∈ items, '\n' ∉ item.2.toList

namespace Entries

def get? (entries : Entries) (key : String) : Option String := entries.items.lookup key

theorem not_mem_of_get? {entries : Entries} {key value : String}
    (h : entries.get? key = some value) : '\n' ∉ value.toList :=
  entries.oneLine (key, value) (KeyMap.mem_of_lookup h)

end Entries

theorem newline_not_mem_lineList {ls : List (List Char)} (h : ∀ line ∈ ls, '\n' ∉ line) :
    ∀ line ∈ Text.lineList ls, '\n' ∉ line := by
  intro line hline
  fun_induction Text.lineList ls with
  | case1 => cases hline
  | case2 last hempty => cases hline
  | case3 last hempty => exact h line hline
  | case4 first rest hrest ih =>
    rcases List.mem_cons.mp hline with rfl | hline
    · intro hmem
      refine h first List.mem_cons_self ?_
      unfold Text.stripReturn at hmem
      split at hmem
      · exact List.mem_of_mem_dropLast hmem
      · exact hmem
    · exact ih (fun l hl => h l (List.mem_cons_of_mem _ hl)) hline

/-- No line has a line end in it. -/
theorem newline_not_mem_lines {text line : String} (h : line ∈ Text.lines text) :
    '\n' ∉ line.toList := by
  obtain ⟨cs, hcs, rfl⟩ := List.mem_map.mp h
  rw [String.toList_ofList]
  refine newline_not_mem_lineList (fun part hpart hmem => ?_) cs hcs
  exact absurd rfl (ne_of_beq_false (Text.not_mem_of_mem_splitOnP hpart '\n' hmem))

/-- `KEY:TYPE=VALUE`; comments and blanks are skipped. -/
def cacheEntry (line : String) : Option (String × String) :=
  let line := Text.trim line
  if line = "" ∨ Text.startsWith "//" line ∨ Text.startsWith "#" line then none
  else (Text.splitOnce "=" line).map fun (decl, value) =>
    -- the type is not part of the identity
    (Text.trim (((Text.splitOnce ":" decl).map (·.1)).getD decl), Text.trim value)

theorem cacheEntry_oneLine {line : String} {entry : String × String}
    (h : cacheEntry line = some entry) (hline : '\n' ∉ line.toList) : '\n' ∉ entry.2.toList := by
  unfold cacheEntry at h
  dsimp only at h
  split at h
  · cases h
  · obtain ⟨⟨decl, value⟩, hsplit, rfl⟩ := Option.map_eq_some_iff.mp h
    intro hmem
    refine hline (Text.mem_of_mem_trim ?_)
    rw [Text.splitOnce_eq (by decide) hsplit]
    simp [Text.mem_of_mem_trim hmem]

/-- The value without its quotation marks. -/
def unquote (value : String) : String :=
  if value.utf8ByteSize ≥ 2 ∧ Text.startsWith "\"" value ∧ Text.endsWith "\"" value then
    String.ofList value.toList.tail.dropLast
  else value

/-- The key between the parentheses. -/
def setKey (inner : String) : String :=
  Text.trim (String.ofList (inner.toList.takeWhile fun c => !Text.isWhitespace c))

/-- The value behind it. -/
def setValue (inner : String) : String :=
  unquote (Text.trim (String.ofList (inner.toList.dropWhile fun c => !Text.isWhitespace c)))

/-- `set(KEY VALUE)`, the form in which CMake writes what it found. -/
def setEntry (line : String) : Option (String × String) :=
  ((Text.stripPrefix "set(" (Text.trim line)).bind (Text.stripSuffix ")")).bind fun inner =>
    if inner.toList.any Text.isWhitespace ∧ setKey inner ≠ "" ∧ setValue inner ≠ "" then
      some (setKey inner, setValue inner)
    else none

theorem mem_of_mem_unquote {value : String} {c : Char} (h : c ∈ (unquote value).toList) :
    c ∈ value.toList := by
  unfold unquote at h
  split at h
  · rw [String.toList_ofList] at h
    exact List.mem_of_mem_tail (List.mem_of_mem_dropLast h)
  · exact h

theorem mem_of_mem_setValue {inner : String} {c : Char} (h : c ∈ (setValue inner).toList) :
    c ∈ inner.toList := by
  rw [setValue] at h
  have hdrop := Text.mem_of_mem_trim (mem_of_mem_unquote h)
  rw [String.toList_ofList] at hdrop
  exact (List.dropWhile_sublist _).subset hdrop

theorem setEntry_oneLine {line : String} {entry : String × String}
    (h : setEntry line = some entry) (hline : '\n' ∉ line.toList) : '\n' ∉ entry.2.toList := by
  obtain ⟨inner, hinner, h⟩ := Option.bind_eq_some_iff.mp h
  obtain ⟨opened, hopened, hinner⟩ := Option.bind_eq_some_iff.mp hinner
  by_cases hset : inner.toList.any Text.isWhitespace ∧ setKey inner ≠ "" ∧ setValue inner ≠ ""
  · rw [if_pos hset] at h
    obtain ⟨key, value⟩ := entry
    obtain ⟨-, rfl⟩ := Prod.mk.inj (Option.some.inj h)
    dsimp only
    intro hmem
    refine hline (Text.mem_of_mem_trim ?_)
    rw [Text.stripPrefix_eq_some.mp hopened, Text.stripSuffix_eq_some.mp hinner]
    simp [mem_of_mem_setValue hmem]
  · rw [if_neg hset] at h
    cases h

/-- The entries of the lines of a text; the last one for a key counts. -/
def Entries.read (entryOf : String → Option (String × String))
    (h : ∀ {line entry}, entryOf line = some entry → '\n' ∉ line.toList → '\n' ∉ entry.2.toList)
    (text : String) : Entries where
  items := KeyMap.insertAll ((Text.lines text).filterMap entryOf) []
  oneLine item hitem := by
    rcases KeyMap.mem_insertAll hitem with hmem | hmem
    · obtain ⟨line, hline, hentry⟩ := List.mem_filterMap.mp hmem
      exact h hentry (newline_not_mem_lines hline)
    · cases hmem

structure CMakeCompilerIdentity where
  source : String
  entries : Entries

/-- A parsed `CMakeCache.txt`, with the compiler that CMake recorded next to it. -/
structure CMakeCache where
  entries : Entries
  compilerIdentity : Option CMakeCompilerIdentity

/-- `parse_cmake_sets`. -/
def parseCmakeSets (contents : String) : Entries := Entries.read setEntry setEntry_oneLine contents

/-- The compiler that CMake recorded, from the directories in `CMakeFiles` that hold a
`CMakeCXXCompiler.cmake`, each with its content; the last directory in order is read. -/
def loadCompilerIdentity (candidates : List (String × String)) : Option CMakeCompilerIdentity :=
  (SortBy.sortBy (·.1) candidates).getLast?.map fun (version, contents) =>
    ⟨slashed ("CMakeFiles/" ++ version ++ "/CMakeCXXCompiler.cmake") ++ ":CMAKE_CXX_COMPILER",
      parseCmakeSets contents⟩

namespace CMakeCache

def parse (text : String) : CMakeCache := ⟨Entries.read cacheEntry cacheEntry_oneLine text, none⟩

def load (text : String) (candidates : List (String × String)) : CMakeCache :=
  { parse text with compilerIdentity := loadCompilerIdentity candidates }

/-- The value of an entry that has one. -/
def get (cache : CMakeCache) (key : String) : Option String :=
  (cache.entries.get? key).filter fun value => value != "" && !Text.endsWith "-NOTFOUND" value

/-! ## Digests -/

/-- The line of a variable in the material of a digest. -/
def materialLine (key : String) (value : Option String) : String :=
  match value with
  | some value => key ++ "=" ++ value ++ "\n"
  | none => key ++ "=<absent>\n"

/-- The lines of the compiler. -/
def compilerMaterial : Option CMakeCompilerIdentity → List String
  | some compiler =>
    ("CXX_IDENTITY_SOURCE=" ++ compiler.source ++ "\n") ::
      COMPILER_IDENTITY_KEYS.map fun key => materialLine key (compiler.entries.get? key)
  | none => ["CXX_IDENTITY_SOURCE=<absent>\n"]

/-- A digest over the identity entries that apply to an import, absent ones included. -/
def identityDigestForScope (codec : Codec) (cache : CMakeCache) (requiresOpenusd : Bool) : String :=
  sha256Hex codec (utf8 (String.join
    ((scopeKeys requiresOpenusd).map (fun key => materialLine key (cache.get key)) ++
      compilerMaterial cache.compilerIdentity)))

def identityDigest (codec : Codec) (cache : CMakeCache) : String :=
  cache.identityDigestForScope codec true

def identityDigestV1 (codec : Codec) (cache : CMakeCache) : String :=
  sha256Hex codec (utf8 (String.join
    (IDENTITY_KEYS_V1.map fun key => materialLine key (cache.get key))))

def cxxCompiler (cache : CMakeCache) : Option (String × String) :=
  match cache.get "CMAKE_CXX_COMPILER" with
  | some value => some (slashed value, "CMakeCache.txt:CMAKE_CXX_COMPILER")
  | none => cache.compilerIdentity.bind fun compiler =>
    (compiler.entries.get? "CMAKE_CXX_COMPILER").map fun value => (slashed value, compiler.source)

/-- The Python version that CMake reported. -/
def pythonVersion (cache : CMakeCache) : Option String :=
  match cache.get "Python3_VERSION" with
  | some version => some version
  | none => (cache.get "FIND_PACKAGE_MESSAGE_DETAILS_Python3").bind fun details =>
    (Text.splitOnce "[v" details).bind fun (_, rest) => (Text.splitOnce "(" rest).map (·.1)

end CMakeCache

/-! ## Records -/

structure ExternalRuntime where
  id : String
  digest : String
  root : String
  deriving DecidableEq, Repr

structure ExternalImportScope where
  profile : String
  capabilities : List String
  requiresOpenusd : Bool
  deriving DecidableEq, Repr

inductive ExternalRequirementStatus
  | applied
  | notApplicable
  deriving DecidableEq, Repr

structure ExternalRequirement where
  name : String
  status : ExternalRequirementStatus
  source : Option String
  detail : String
  deriving DecidableEq, Repr

structure ExternalToolchain where
  generator : String
  generatorFlavor : String
  multiConfig : Bool
  configurations : List String
  generatorInstance : Option String
  generatorPlatform : Option String
  generatorToolset : Option String
  configuration : String
  cxxCompiler : String
  cxxCompilerSource : Option String
  cxxStandard : Option String
  msvcRuntime : Option String
  pythonVersion : Option String
  pythonInclude : Option String
  deriving DecidableEq, Repr

/-- An imported record of a build that was performed elsewhere. -/
structure ExternalBuildProvenance where
  schema : String
  sourceRoot : String
  buildDir : String
  scope : ExternalImportScope
  requirements : List ExternalRequirement
  runtime : ExternalRuntime
  openusdVersion : Option String
  toolchain : ExternalToolchain
  cacheDigest : String
  importedUnix : Nat
  deriving DecidableEq, Repr

/-- Why an external tree could not be imported. -/
inductive ImportError
  | missingIdentity (field generator : String) (sources : List String)
  | foreignRuntime (found expected : String)
  | configurationRequired (generator : String) (available : List String)
  | configurationUnavailable (generator requested : String) (available : List String)
  deriving DecidableEq, Repr

def classifyGenerator (generator : String) (cache : CMakeCache) : String × Bool :=
  if generator = "Ninja" then ("ninja", false)
  else if generator = "Ninja Multi-Config" then ("ninja-multi-config", true)
  else if generator = "Xcode" then ("xcode", true)
  else if Text.startsWith "Visual Studio " generator then ("visual-studio", true)
  else if (cache.get "CMAKE_CONFIGURATION_TYPES").isSome then ("other-multi-config", true)
  else ("other-single-config", false)

/-- The value of an entry that the identity cannot be established without. -/
def required {α : Type} (value : Option α) (field generator : String) (sources : List String) :
    Except ImportError α :=
  match value with
  | some value => .ok value
  | none => .error (.missingIdentity field generator sources)

/-- The binding to the selected runtime, for a scope that needs OpenUSD. -/
def openusdRequirement (os : Os) (cache : CMakeCache) (runtime : ExternalRuntime)
    (scope : ExternalImportScope) (generator : String) : Except ImportError ExternalRequirement :=
  if scope.requiresOpenusd then do
    let pxrDir ← required (cache.get "pxr_DIR") "OpenUSD runtime binding" generator
      ["CMakeCache.txt:pxr_DIR"]
    if pathIsWithin os pxrDir runtime.root then
      .ok ⟨"openusd.runtime", .applied, some "CMakeCache.txt:pxr_DIR",
        "selected capabilities require OpenUSD and the tree resolves the selected runtime"⟩
    else .error (.foreignRuntime pxrDir runtime.root)
  else
    .ok ⟨"openusd.runtime", .notApplicable, none, "profile '" ++ scope.profile ++
      "' and requested capabilities exercise no OpenUSD-dependent capability"⟩

/-- The configurations of a multi-config tree. -/
def configurationsOf (cache : CMakeCache) (multiConfig : Bool) : List String :=
  if multiConfig then
    (Text.split (· == ';') ((cache.get "CMAKE_CONFIGURATION_TYPES").getD "")).filter (· != "")
  else []

/-- The configuration whose output the record describes. -/
def selectConfiguration (cache : CMakeCache) (generator : String) (multiConfig : Bool)
    (selected : Option String) : Except ImportError String :=
  let configurations := configurationsOf cache multiConfig
  let selected := selected.filter (Text.trim · != "")
  if multiConfig then
    match selected with
    | none => .error (.configurationRequired generator configurations)
    | some selected =>
      if configurations.contains selected then .ok selected
      else .error (.configurationUnavailable generator selected configurations)
  else
    let configured := (cache.get "CMAKE_BUILD_TYPE").getD ""
    match selected with
    | none => .ok configured
    | some selected =>
      if configured ≠ "" ∧ configured ≠ selected then
        .error (.configurationUnavailable generator selected [configured])
      else .ok configured

namespace ExternalBuildProvenance

/-- The record of one concrete output of a tree, bound to a runtime. -/
def fromCacheForConfiguration (codec : Codec) (os : Os) (cache : CMakeCache)
    (runtime : ExternalRuntime) (openusdVersion : Option String) (scope : ExternalImportScope)
    (importedUnix : Nat) (selectedConfiguration : Option String) :
    Except ImportError ExternalBuildProvenance := do
  let detected := (cache.get "CMAKE_GENERATOR").getD "unresolved"
  let sourceRoot ← required (cache.get "CMAKE_HOME_DIRECTORY") "source root" detected
    ["CMakeCache.txt:CMAKE_HOME_DIRECTORY"]
  let buildDir ← required (cache.get "CMAKE_CACHEFILE_DIR") "build directory" detected
    ["CMakeCache.txt:CMAKE_CACHEFILE_DIR"]
  let generator ← required (cache.get "CMAKE_GENERATOR") "generator identity" "unresolved"
    ["CMakeCache.txt:CMAKE_GENERATOR"]
  let flavor := classifyGenerator generator cache
  let diagnostic := generator ++ " (" ++ flavor.1 ++ ")"
  let compiler ← required cache.cxxCompiler "C++ compiler identity" diagnostic
    ["CMakeCache.txt:CMAKE_CXX_COMPILER", "CMakeFiles/<version>/CMakeCXXCompiler.cmake"]
  let openusd ← openusdRequirement os cache runtime scope diagnostic
  let configuration ← selectConfiguration cache diagnostic flavor.2 selectedConfiguration
  return {
    schema := EXTERNAL_BUILD_SCHEMA
    sourceRoot := slashed sourceRoot
    buildDir := slashed buildDir
    scope
    requirements := [⟨"cmake.cxx-compiler", .applied, some compiler.2,
      "resolved C++ compiler identity for " ++ diagnostic⟩, openusd]
    runtime
    openusdVersion
    toolchain := {
      generator
      generatorFlavor := flavor.1
      multiConfig := flavor.2
      configurations := configurationsOf cache flavor.2
      generatorInstance := (cache.get "CMAKE_GENERATOR_INSTANCE").map slashed
      generatorPlatform := cache.get "CMAKE_GENERATOR_PLATFORM"
      generatorToolset := cache.get "CMAKE_GENERATOR_TOOLSET"
      configuration
      cxxCompiler := compiler.1
      cxxCompilerSource := some compiler.2
      cxxStandard := cache.get "CMAKE_CXX_STANDARD"
      msvcRuntime := cache.get "CMAKE_MSVC_RUNTIME_LIBRARY"
      pythonVersion := cache.pythonVersion
      pythonInclude := (cache.get "_Python3_INCLUDE_DIR").map slashed }
    cacheDigest := cache.identityDigestForScope codec scope.requiresOpenusd
    importedUnix }

/-- `from_cache`: without a selected configuration. -/
def fromCache (codec : Codec) (os : Os) (cache : CMakeCache) (runtime : ExternalRuntime)
    (openusdVersion : Option String) (scope : ExternalImportScope) (importedUnix : Nat) :
    Except ImportError ExternalBuildProvenance :=
  fromCacheForConfiguration codec os cache runtime openusdVersion scope importedUnix none

/-- A digest for a message. -/
def short (digest : String) : String :=
  match Text.splitOnce ":" digest with
  | some (algo, hex) => algo ++ ":" ++ String.ofList (hex.toList.take 12)
  | none => digest

/-- Whether the record still describes the tree and the runtime; every field has to match. -/
def verifyAgainst (codec : Codec) (os : Os) (record : ExternalBuildProvenance) (cache : CMakeCache)
    (buildDir : String) (runtime : ExternalRuntime) : Except String Unit :=
  if record.schema ≠ EXTERNAL_BUILD_SCHEMA ∧ record.schema ≠ EXTERNAL_BUILD_SCHEMA_V1 then
    .error ("unsupported external build schema '" ++ record.schema ++ "'")
  else if ¬samePath os record.buildDir buildDir then
    .error ("provenance describes build directory '" ++ record.buildDir ++ "', not '" ++
      buildDir ++ "'")
  else if record.cacheDigest ≠
      (if record.schema = EXTERNAL_BUILD_SCHEMA_V1 then cache.identityDigestV1 codec
      else cache.identityDigestForScope codec record.scope.requiresOpenusd) then
    .error ("the build tree has been reconfigured since its provenance was imported — " ++
      "re-run \u0060ost external import\u0060")
  else if record.runtime.id ≠ runtime.id then
    .error ("provenance runtime '" ++ record.runtime.id ++ "' != selected runtime '" ++
      runtime.id ++ "'")
  else if record.runtime.digest ≠ runtime.digest then
    .error ("runtime digest drift: imported " ++ short record.runtime.digest ++ " != current " ++
      short runtime.digest)
  else if ¬samePath os record.runtime.root runtime.root then
    .error ("provenance runtime root '" ++ record.runtime.root ++ "' != current '" ++
      runtime.root ++ "'")
  else .ok ()

end ExternalBuildProvenance

/-! ## What a digest tells -/

/-- An entry as a digest writes it. -/
def written (value : Option String) : String := value.getD "<absent>"

/-- Two entries that a digest does not tell apart. -/
def Confusable (a b : Option String) : Prop :=
  a = b ∨ (a = none ∧ b = some "<absent>") ∨ (a = some "<absent>" ∧ b = none)

/-- Two compilers that a digest does not tell apart. -/
def SameCompiler : Option CMakeCompilerIdentity → Option CMakeCompilerIdentity → Prop
  | none, none => True
  | some a, some b => a.source = b.source ∧
      ∀ key ∈ COMPILER_IDENTITY_KEYS, Confusable (a.entries.get? key) (b.entries.get? key)
  | _, _ => False

section Lines

variable {a b : Option String} {ls ms : List String}

theorem written_eq_iff : written a = written b ↔ Confusable a b := by
  constructor
  · intro h
    cases a with
    | none =>
      cases b with
      | none => exact .inl rfl
      | some w => exact .inr (.inl ⟨rfl, congrArg some h.symm⟩)
    | some v =>
      cases b with
      | none => exact .inr (.inr ⟨congrArg some h, rfl⟩)
      | some w => exact .inl (congrArg some h)
  · rintro (rfl | ⟨rfl, rfl⟩ | ⟨rfl, rfl⟩)
    · rfl
    · rfl
    · rfl

theorem materialLine_eq (key : String) (value : Option String) :
    CMakeCache.materialLine key value = key ++ "=" ++ written value ++ "\n" := by
  cases value with
  | none =>
    rw [CMakeCache.materialLine, String.append_assoc, String.append_assoc]
    rfl
  | some value => rfl

/-- A line is split off the text that it stands in front of. -/
theorem split_line {line : String} (h : '\n' ∉ line.toList) (rest : String) :
    Text.split (· == '\n') (line ++ "\n" ++ rest) = line :: Text.split (· == '\n') rest := by
  have hline : ∀ c ∈ line.toList, (c == '\n') = false := fun c hc =>
    beq_false_of_ne fun heq => h (heq ▸ hc)
  rw [Text.split_append_char (p := (· == '\n')) (beq_self_eq_true '\n') rfl,
    Text.split_of_not_mem hline]
  rfl

theorem split_join_lines (h : ∀ line ∈ ls, '\n' ∉ line.toList) (rest : String) :
    Text.split (· == '\n') (String.join (ls.map (· ++ "\n")) ++ rest) =
      ls ++ Text.split (· == '\n') rest := by
  induction ls with
  | nil => rw [List.map_nil, String.join_nil, String.empty_append, List.nil_append]
  | cons line ls ih =>
    rw [List.map_cons, String.join_cons, String.append_assoc, split_line (h line (by simp)),
      ih fun l hl => h l (List.mem_cons_of_mem line hl), List.cons_append]

end Lines

section Digests

variable {codec : Codec} {c c' : CMakeCache} {requires : Bool}

theorem CMakeCache.newline_not_mem_get {key value : String} (h : c.get key = some value) :
    '\n' ∉ value.toList :=
  Entries.not_mem_of_get? (Option.filter_eq_some_iff.mp h).1

/-- The lines of entries without line ends in their keys and values. -/
def entryLines (keys : List String) (get : String → Option String) : List String :=
  keys.map fun key => key ++ "=" ++ written (get key)

theorem map_materialLine (keys : List String) (get : String → Option String) :
    keys.map (fun key => CMakeCache.materialLine key (get key)) =
      (entryLines keys get).map (· ++ "\n") := by
  rw [entryLines, List.map_map]
  exact List.map_congr_left fun key _ => materialLine_eq key (get key)

theorem newline_not_mem_entryLines {keys : List String} (get : String → Option String)
    (hkeys : keys.all fun key => !key.toList.contains '\n')
    (hget : ∀ key value, get key = some value → '\n' ∉ value.toList) :
    ∀ line ∈ entryLines keys get, '\n' ∉ line.toList := by
  intro line hline
  obtain ⟨key, hkey, rfl⟩ := List.mem_map.mp hline
  have hclean : '\n' ∉ key.toList := by simpa using List.all_eq_true.mp hkeys key hkey
  have hwritten : '\n' ∉ (written (get key)).toList := by
    cases hvalue : get key with
    | none => decide
    | some value => exact hget key value hvalue
  simp [hclean, hwritten]

theorem entryLines_eq_iff {keys : List String} {get get' : String → Option String} :
    entryLines keys get = entryLines keys get' ↔
      ∀ key ∈ keys, Confusable (get key) (get' key) := by
  rw [entryLines, entryLines, List.map_inj_left]
  refine forall₂_congr fun key _ => ?_
  rw [String.append_right_inj, written_eq_iff]

/-- What stands behind the compiler's name in the material, line by line. -/
theorem split_compilerMaterial (compiler : CMakeCompilerIdentity) :
    Text.split (· == '\n') (String.join (CMakeCache.compilerMaterial (some compiler))) =
      Text.split (· == '\n') ("CXX_IDENTITY_SOURCE=" ++ compiler.source) ++
        (entryLines COMPILER_IDENTITY_KEYS compiler.entries.get? ++ [""]) := by
  have hkeys : COMPILER_IDENTITY_KEYS.all fun key => !key.toList.contains '\n' := by rfl
  have hlines := newline_not_mem_entryLines compiler.entries.get? hkeys
    fun key value h => Entries.not_mem_of_get? h
  have hjoin := split_join_lines hlines ""
  rw [String.append_empty] at hjoin
  rw [CMakeCache.compilerMaterial, String.join_cons, map_materialLine,
    Text.split_append_char (p := (· == '\n')) (beq_self_eq_true '\n') rfl, hjoin]
  rfl

theorem split_compilerMaterial_none :
    Text.split (· == '\n') (String.join (CMakeCache.compilerMaterial none)) =
      ["CXX_IDENTITY_SOURCE=<absent>", ""] := by
  rfl

theorem join_compilerMaterial_eq_iff {a b : Option CMakeCompilerIdentity} :
    String.join (CMakeCache.compilerMaterial a) = String.join (CMakeCache.compilerMaterial b) ↔
      SameCompiler a b := by
  -- a compiler takes more lines than its absence
  have hlength (compiler : CMakeCompilerIdentity) :
      2 < (Text.split (· == '\n')
        (String.join (CMakeCache.compilerMaterial (some compiler)))).length := by
    rw [split_compilerMaterial, List.length_append, List.length_append, entryLines,
      List.length_map]
    have hkeys : COMPILER_IDENTITY_KEYS.length = 7 := rfl
    omega
  have hnone (compiler : CMakeCompilerIdentity) :
      String.join (CMakeCache.compilerMaterial (some compiler)) ≠
        String.join (CMakeCache.compilerMaterial none) := by
    intro h
    have hlt := hlength compiler
    rw [h, split_compilerMaterial_none] at hlt
    exact absurd hlt (by decide)
  cases a with
  | none =>
    cases b with
    | none => exact iff_of_true rfl trivial
    | some b => exact iff_of_false (hnone b).symm id
  | some a =>
    cases b with
    | none => exact iff_of_false (hnone a) id
    | some b =>
      constructor
      · intro h
        have hsplit := congrArg (Text.split (· == '\n')) h
        rw [split_compilerMaterial, split_compilerMaterial] at hsplit
        obtain ⟨hsource, hlines⟩ := List.append_inj' hsplit (by simp [entryLines])
        refine ⟨?_, entryLines_eq_iff.mp (List.append_cancel_right hlines)⟩
        have hjoin := congrArg (Text.join "\n") hsource
        rw [Text.join_split rfl, Text.join_split rfl] at hjoin
        exact (String.append_right_inj _).mp hjoin
      · rintro ⟨hsource, hkeys⟩
        rw [CMakeCache.compilerMaterial, CMakeCache.compilerMaterial, map_materialLine,
          map_materialLine, hsource, entryLines_eq_iff.mpr hkeys]

/-- The material of a digest, up to what it does not tell apart. -/
theorem material_eq_iff :
    String.join ((scopeKeys requires).map (fun key => CMakeCache.materialLine key (c.get key)) ++
        CMakeCache.compilerMaterial c.compilerIdentity) =
      String.join ((scopeKeys requires).map (fun key => CMakeCache.materialLine key (c'.get key)) ++
        CMakeCache.compilerMaterial c'.compilerIdentity) ↔
      (∀ key ∈ scopeKeys requires, Confusable (c.get key) (c'.get key)) ∧
        SameCompiler c.compilerIdentity c'.compilerIdentity := by
  have hkeys : (scopeKeys requires).all fun key => !key.toList.contains '\n' := by
    cases requires <;> rfl
  have hfront (cache : CMakeCache) := split_join_lines
    (newline_not_mem_entryLines cache.get hkeys fun _ _ => CMakeCache.newline_not_mem_get)
    (String.join (CMakeCache.compilerMaterial cache.compilerIdentity))
  rw [String.join_append, String.join_append, map_materialLine, map_materialLine]
  constructor
  · intro h
    have hsplit := congrArg (Text.split (· == '\n')) h
    rw [hfront, hfront] at hsplit
    obtain ⟨hlines, -⟩ := List.append_inj hsplit (by simp [entryLines])
    rw [hlines, String.append_right_inj] at h
    exact ⟨entryLines_eq_iff.mp hlines, join_compilerMaterial_eq_iff.mp h⟩
  · rintro ⟨hlines, hcompiler⟩
    rw [entryLines_eq_iff.mpr hlines, join_compilerMaterial_eq_iff.mpr hcompiler]

/-- Where the hash has no collisions, two caches share their digest when it does not tell their
entries and their compilers apart. -/
theorem identityDigestForScope_eq_iff (hsha : Function.Injective codec.sha256) :
    c.identityDigestForScope codec requires = c'.identityDigestForScope codec requires ↔
      (∀ key ∈ scopeKeys requires, Confusable (c.get key) (c'.get key)) ∧
        SameCompiler c.compilerIdentity c'.compilerIdentity := by
  rw [← material_eq_iff, CMakeCache.identityDigestForScope, CMakeCache.identityDigestForScope]
  refine ⟨fun h => ?_, fun h => by rw [h]⟩
  have hhex := renderHex_injective.eq_iff.mp ((String.append_right_inj _).mp h)
  exact String.toByteArray_inj.mp (ByteArray.ext (Array.toList_inj.mp (hsha hhex)))

end Digests

/-! ## What a record tells -/

section Records

variable {codec : Codec} {os : Os} {cache : CMakeCache} {runtime : ExternalRuntime}
  {openusdVersion : Option String} {scope : ExternalImportScope} {importedUnix : Nat}
  {selected : Option String} {record : ExternalBuildProvenance}

theorem required_ok {α : Type} {value : Option α} {field generator : String}
    {sources : List String} {a : α} :
    required value field generator sources = .ok a ↔ value = some a := by
  cases value with
  | none => simp [required]
  | some value => simp [required]

/-- What a derived record is bound to. -/
theorem fromCacheForConfiguration_ok
    (h : ExternalBuildProvenance.fromCacheForConfiguration codec os cache runtime openusdVersion
      scope importedUnix selected = .ok record) :
    record.schema = EXTERNAL_BUILD_SCHEMA ∧
      (∃ dir, cache.get "CMAKE_CACHEFILE_DIR" = some dir ∧ record.buildDir = slashed dir) ∧
      record.scope = scope ∧ record.runtime = runtime ∧
      record.cacheDigest = cache.identityDigestForScope codec scope.requiresOpenusd := by
  unfold ExternalBuildProvenance.fromCacheForConfiguration at h
  simp only [except_bind_ok, required_ok] at h
  obtain ⟨sourceRoot, -, dir, hdir, generator, -, compiler, -, openusd, -, configuration, -, h⟩ := h
  cases h
  exact ⟨rfl, ⟨dir, hdir, rfl⟩, rfl, rfl, rfl⟩

/-- A derived record verifies on its cache and its runtime in the directory of the cache, and in no
other. -/
theorem verifyAgainst_fromCache
    (h : ExternalBuildProvenance.fromCacheForConfiguration codec os cache runtime openusdVersion
      scope importedUnix selected = .ok record) (buildDir : String) :
    record.verifyAgainst codec os cache buildDir runtime = .ok () ↔
      ∃ dir, cache.get "CMAKE_CACHEFILE_DIR" = some dir ∧ samePath os dir buildDir := by
  obtain ⟨hschema, ⟨dir, hdir, hbuild⟩, hscope, hruntime, hdigest⟩ := fromCacheForConfiguration_ok h
  have hversion : EXTERNAL_BUILD_SCHEMA ≠ EXTERNAL_BUILD_SCHEMA_V1 := by decide
  have hverify : record.verifyAgainst codec os cache buildDir runtime = .ok () ↔
      samePath os (slashed dir) buildDir := by
    unfold ExternalBuildProvenance.verifyAgainst
    rw [hschema, hbuild, hscope, hruntime, hdigest]
    simp only [ne_eq, not_true_eq_false, false_and, if_false, if_neg hversion, samePath_refl]
    split
    · next hother => simpa using hother
    · next hsame => simpa using hsame
  rw [hverify, samePath_slashed]
  constructor
  · exact fun hsame => ⟨dir, hdir, hsame⟩
  · rintro ⟨other, hother, hsame⟩
    rwa [Option.some.inj (hdir.symm.trans hother)]

end Records

/-- A record verifies in the directory that its cache names, on the same cache and runtime. The
digest tells the variables of the scope apart, unless two caches differ only in that a variable
without a value in the one has the text for its absence as its value in the other. -/
theorem provenance_bound_iff {codec : Codec} (hsha : Function.Injective codec.sha256) :
    (∀ (os : Os) (cache : CMakeCache) (runtime : ExternalRuntime) (openusdVersion : Option String)
      (scope : ExternalImportScope) (importedUnix : Nat) (selected : Option String)
      (record : ExternalBuildProvenance),
      ExternalBuildProvenance.fromCacheForConfiguration codec os cache runtime openusdVersion scope
        importedUnix selected = .ok record →
      ∀ buildDir, record.verifyAgainst codec os cache buildDir runtime = .ok () ↔
        ∃ dir, cache.get "CMAKE_CACHEFILE_DIR" = some dir ∧ samePath os dir buildDir) ∧
    ∀ (c c' : CMakeCache) (requires : Bool),
      (c.identityDigestForScope codec requires = c'.identityDigestForScope codec requires →
        ∀ key ∈ scopeKeys requires, c.get key = c'.get key) ↔
      ¬(SameCompiler c.compilerIdentity c'.compilerIdentity ∧
        (∀ key ∈ scopeKeys requires, Confusable (c.get key) (c'.get key)) ∧
        ∃ key ∈ scopeKeys requires, c.get key ≠ c'.get key) := by
  refine ⟨fun os cache runtime version scope time selected record h => verifyAgainst_fromCache h,
    fun c c' requires => ?_⟩
  rw [identityDigestForScope_eq_iff hsha]
  constructor
  · rintro h ⟨hcompiler, hkeys, key, hkey, hne⟩
    exact hne (h ⟨hkeys, hcompiler⟩ key hkey)
  · intro h hsame key hkey
    by_contra hne
    exact h ⟨hsame.2, hsame.1, key, hkey, hne⟩

/-! ## An absent entry and its text -/

namespace Sample

def unset : CMakeCache := .parse ""

def standard : CMakeCache := .parse "CMAKE_CXX_STANDARD:STRING=20\n"

/-- A cache with the text for an absent entry as a value. -/
def named : CMakeCache := .parse "CMAKE_CXX_STANDARD:STRING=<absent>\n"

def material (cache : CMakeCache) : Bytes :=
  utf8 (String.join ((scopeKeys true).map (fun key => CMakeCache.materialLine key (cache.get key)) ++
    CMakeCache.compilerMaterial cache.compilerIdentity))

/-- SHA-256 on the materials of the samples, without collisions elsewhere. -/
def codec : Codec where
  sha256 := Equiv.trans
    (Equiv.swap (material unset) (bytesOfHex
      "1d3b34e5b48da80dd856d8c854cbe2e0f8c3360576de2315d957f6dd986b9399".toList))
    (Equiv.swap (material standard) (bytesOfHex
      "e6e9aa7c9b567cbadb49e3c56fd28496955bb72da23753f1162f312a7f56ccc5".toList))
  parse _ := none

theorem injective_sha256 : Function.Injective codec.sha256 := Equiv.injective _

theorem get_unset (key : String) : unset.get key = none := rfl

theorem get_named (key : String) :
    named.get key = if key = "CMAKE_CXX_STANDARD" then some "<absent>" else none := by
  have hitems : named.entries.items = [("CMAKE_CXX_STANDARD", "<absent>")] := by decide
  rw [CMakeCache.get, Entries.get?, hitems, KeyMap.lookup_cons]
  split
  · decide
  · rfl

end Sample

open Sample in
theorem provenance_bound_iff_sample :
    standard.identityDigestForScope codec true ≠ unset.identityDigestForScope codec true := by
  have hkey : "CMAKE_CXX_STANDARD" ∈ scopeKeys true := by decide
  have hstandard : standard.get "CMAKE_CXX_STANDARD" = some "20" := by decide
  intro hdigest
  have hsame := ((provenance_bound_iff injective_sha256).2 standard unset true).mpr ?_ hdigest _ hkey
  · rw [hstandard, get_unset] at hsame
    cases hsame
  · rintro ⟨-, hconfusable, -⟩
    have h := hconfusable _ hkey
    rw [hstandard, get_unset] at h
    rcases h with h | ⟨h, -⟩ | ⟨h, -⟩
    · cases h
    · cases h
    · exact absurd h (by decide)

open Sample in
/-- Two caches that differ in a variable of the scope share their digest. -/
theorem absent_text_shares_digest :
    named.identityDigestForScope codec true = unset.identityDigestForScope codec true ∧
      "CMAKE_CXX_STANDARD" ∈ scopeKeys true ∧
      named.get "CMAKE_CXX_STANDARD" ≠ unset.get "CMAKE_CXX_STANDARD" := by
  refine ⟨(identityDigestForScope_eq_iff injective_sha256).mpr ⟨fun key _ => ?_, trivial⟩,
    by decide, ?_⟩
  · rw [get_named, get_unset]
    split
    · exact .inr (.inr ⟨rfl, rfl⟩)
    · exact .inl rfl
  · rw [get_named, get_unset, if_pos rfl]
    exact Option.some_ne_none _

end OpenStrata.ExternalBuild

