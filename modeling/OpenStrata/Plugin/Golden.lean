import OpenStrata.Core.Digest
import OpenStrata.Core.Paths
import OpenStrata.Core.Serde
import OpenStrata.Lib.SortBy
import OpenStrata.Plugin.Doctor

/-!
# Packaged verification content

A package may carry a contract that names fixtures with their golden outputs, each with the
digest of its content. The golden check of level 5 flattens the fixtures that the manifest lists
and compares them with their goldens; a fixture that the contract names must have the recorded
content first. The contract is consulted fixture by fixture, under the path that the manifest
spells.

## Main definitions

* `PluginVerification.load`, `RoundtripVerification.verify`: the contract and its checks
* `roundtripFixtures`: the fixtures that are flattened
* `level5Golden`: the diagnostic
* `Changed`: a bound file is missing, no regular file, or has other content

## Main results

* `level5Golden_fail_iff`: when the diagnostic is a failure
* `level5Golden_failsClosed_iff`: changed content fails whatever the tools report, exactly when
  one of the flattened fixtures has changed content
-/

namespace OpenStrata.Plugin.Golden

/-! ## The contract -/

def PLUGIN_VERIFICATION : String := "openstrata.verification.json"

def PLUGIN_VERIFICATION_SCHEMA : String := "openstrata.plugin-verification/v1alpha1"

def ORACLE_CONVENTION : String := "<fixture>.golden.usda"

structure RoundtripVerification where
  fixture : String
  fixtureSha256 : String
  oracle : String
  oracleSha256 : String
  deriving DecidableEq, Repr

structure PluginVerification where
  schema : String
  oracleConvention : String
  roundtrip : List RoundtripVerification
  deriving DecidableEq, Repr

/-- `adjacent_golden`: the name of the golden beside a fixture. -/
def adjacentGolden (fixture : String) : String := fixture ++ ".golden.usda"

/-- `check_safe_relative`, with either separator on every host. -/
def checkSafeRelative (field rel : String) : Result Unit := do
  let reject (why : String) : Error :=
    .config (field ++ ": '" ++ rel ++ "' is not a safe bundle-relative path — " ++ why)
  let drive : Bool := match rel.toList with
    | a :: b :: _ => a.isAlpha && b == ':'
    | _ => false
  Result.failIf rel.isEmpty (reject "it is empty")
  Result.failIf drive (reject "it looks like a drive path")
  Result.failIf (Text.startsWith "/" rel ∨ Text.startsWith "\\" rel) (reject "it is absolute")
  Result.failIf (".." ∈ Text.split (fun c => c == '/' || c == '\\') rel)
    (reject "it escapes the bundle with '..'")

/-- `valid_sha256`: a reference with lowercase digits. -/
def validSha256 (value : String) : Bool :=
  (Text.stripPrefix "sha256:" value).any fun hex =>
    hex.length == 64 && Text.all Text.isLowerHexDigit hex

/-- The entries in order, none for a fixture already seen. -/
def validateRoundtrip : List String → List RoundtripVerification → Result Unit
  | _, [] => .ok ()
  | seen, entry :: rest => do
    checkSafeRelative "verification fixture" entry.fixture
    checkSafeRelative "verification oracle" entry.oracle
    Result.failIf (entry.oracle ≠ adjacentGolden entry.fixture)
      (.config (PLUGIN_VERIFICATION ++ ": oracle '" ++ entry.oracle ++
        "' does not follow the adjacent convention for fixture '" ++ entry.fixture ++ "'"))
    Result.failIf (entry.fixture ∈ seen)
      (.config (PLUGIN_VERIFICATION ++ ": duplicate roundtrip fixture '" ++ entry.fixture ++ "'"))
    Result.forAll (fun field => Result.failIf (¬ validSha256 field.2)
      (.config (PLUGIN_VERIFICATION ++ ": " ++ field.1 ++ " for '" ++ entry.fixture ++
        "' is not a sha256:<64 lowercase hex> digest")))
      [("fixture_sha256", entry.fixtureSha256), ("oracle_sha256", entry.oracleSha256)]
    validateRoundtrip (seen ++ [entry.fixture]) rest

namespace PluginVerification

def validate (contract : PluginVerification) : Result Unit := do
  Result.failIf (contract.schema ≠ PLUGIN_VERIFICATION_SCHEMA)
    (.config (PLUGIN_VERIFICATION ++ ": schema '" ++ contract.schema ++
      "' is unsupported (expected '" ++ PLUGIN_VERIFICATION_SCHEMA ++ "')"))
  Result.failIf (contract.oracleConvention ≠ ORACLE_CONVENTION)
    (.config (PLUGIN_VERIFICATION ++ ": oracle_convention '" ++ contract.oracleConvention ++
      "' is unsupported (expected '" ++ ORACLE_CONVENTION ++ "')"))
  validateRoundtrip [] contract.roundtrip

def oracleFor (contract : PluginVerification) (fixture : String) : Option RoundtripVerification :=
  contract.roundtrip.find? (·.fixture = fixture)

end PluginVerification

/-- The deserialiser of an entry. -/
def readRoundtrip (value : Json) : Option RoundtripVerification := do
  let fs ← Serde.fields ["fixture", "fixture_sha256", "oracle", "oracle_sha256"] value
  let fixture ← Serde.required fs "fixture" Serde.string
  let fixtureSha256 ← Serde.required fs "fixture_sha256" Serde.string
  let oracle ← Serde.required fs "oracle" Serde.string
  let oracleSha256 ← Serde.required fs "oracle_sha256" Serde.string
  return { fixture, fixtureSha256, oracle, oracleSha256 }

/-- The deserialiser of a contract. -/
def readContract (value : Json) : Option PluginVerification := do
  let fs ← Serde.fields ["schema", "oracle_convention", "roundtrip"] value
  let schema ← Serde.required fs "schema" Serde.string
  let oracleConvention ← Serde.required fs "oracle_convention" Serde.string
  let roundtrip ← Serde.withDefault fs "roundtrip" [] (Serde.list readRoundtrip)
  return { schema, oracleConvention, roundtrip }

/-! ## The bundle on disk -/

/-- What `fs::symlink_metadata` finds at the place of the contract; a text that cannot be read is
`none`. -/
inductive ContractFile
  | missing
  | inaccessible
  | link
  | special
  | file (text : Option String)

/-- What stands at a path once links are followed; content that cannot be read is `none`. -/
inductive Standing
  | missing
  | special
  | file (content : Option Bytes)

/-- The directory of a bundle. -/
structure BundleDir where
  os : Os
  root : String
  contract : ContractFile
  standing : String → Standing

namespace BundleDir

variable (codec : Codec) (dir : BundleDir)

/-- `Bundle::path`. -/
def path (rel : String) : String := Path.join dir.os dir.root rel

/-- `Path::is_file`. -/
def isFile (path : String) : Bool :=
  match dir.standing path with
  | .file _ => true
  | .missing | .special => false

/-- `fs::read_to_string` followed by `unwrap_or_default`. -/
def readToStringOrDefault (path : String) : String :=
  match dir.standing path with
  | .file (some content) => (String.fromUTF8? ⟨content.toArray⟩).getD ""
  | .file none | .missing | .special => ""

/-- `PluginVerification::load`. -/
def loadContract : Result (Option PluginVerification) :=
  match dir.contract with
  | .link => .error (.validation
      (PLUGIN_VERIFICATION ++ " must be a regular in-package file, not a symlink"))
  | .special => .error (.validation (PLUGIN_VERIFICATION ++ " must be a regular file"))
  | .missing => .ok none
  | .inaccessible => .error (.io (dir.path PLUGIN_VERIFICATION))
  | .file text => do
    let source ← Result.okOr (.io (dir.path PLUGIN_VERIFICATION)) text
    let contract ← Result.okOr (.parse PLUGIN_VERIFICATION)
      ((codec.parse (utf8 source)).bind readContract)
    contract.validate
    return some contract

/-- `verify_file`. -/
def verifyFile (kind rel expected : String) : Result Unit :=
  match dir.standing (dir.path rel) with
  | .missing | .special => .error (.validation ("packaged " ++ kind ++ " '" ++ rel ++
      "' is missing (declared by " ++ PLUGIN_VERIFICATION ++ ")"))
  | .file none => .error (.io (dir.path rel))
  | .file (some content) =>
    let observed := sha256Hex codec content
    Result.failIf (observed ≠ expected) (.validation ("packaged " ++ kind ++ " '" ++ rel ++
      "' digest mismatch: expected " ++ expected ++ ", observed " ++ observed))

/-- `RoundtripVerification::verify`. -/
def verify (entry : RoundtripVerification) : Result Unit := do
  dir.verifyFile codec "roundtrip fixture" entry.fixture entry.fixtureSha256
  dir.verifyFile codec "roundtrip oracle" entry.oracle entry.oracleSha256

end BundleDir

/-! ## Fixtures -/

inductive SmokeFixture
  | path (rel : String)
  | structured (rel : String) (fileFormatArguments : List (String × String))
  deriving DecidableEq, Repr

namespace SmokeFixture

def pathOf : SmokeFixture → String
  | .path rel => rel
  | .structured rel _ => rel

def fileFormatArguments : SmokeFixture → List (String × String)
  | .path _ => []
  | .structured _ arguments => arguments

end SmokeFixture

/-- The fixtures of a manifest. -/
structure Tests where
  smoke : List SmokeFixture
  roundtrip : List String
  negative : List String
  deriving DecidableEq, Repr

/-- The first occurrence of each text. -/
def dedup (seen : List String) : List String → List String
  | [] => seen
  | s :: rest => if s ∈ seen then dedup seen rest else dedup (seen ++ [s]) rest

def Tests.allFixtures (tests : Tests) : List String :=
  dedup [] (tests.smoke.map SmokeFixture.pathOf ++ (tests.roundtrip ++ tests.negative))

structure ResolvedFixture where
  relative : String
  path : String
  source : Option SmokeFixture
  deriving DecidableEq, Repr

/-- The layer identifier: the arguments follow the path in key order. -/
def ResolvedFixture.identifier (fixture : ResolvedFixture) : String :=
  let arguments := (fixture.source.map SmokeFixture.fileFormatArguments).getD []
  if arguments.isEmpty then fixture.path
  else fixture.path ++ ":SDF_FORMAT_ARGS:" ++ Text.join "&"
    ((SortBy.sortBy (·.1) arguments).map fun entry => entry.1 ++ "=" ++ entry.2)

/-- A bundle: its directory and the fixtures of its manifest. -/
structure Bundle where
  dir : BundleDir
  tests : Tests

def smokeFixture (bundle : Bundle) : Option ResolvedFixture :=
  match bundle.tests.smoke with
  | source :: _ => some ⟨source.pathOf, bundle.dir.path source.pathOf, some source⟩
  | [] => bundle.tests.allFixtures.head?.map fun relative =>
    ⟨relative, bundle.dir.path relative, none⟩

/-- `roundtrip_fixtures`: those that are declared, or the smoke fixture. -/
def roundtripFixtures (bundle : Bundle) : List ResolvedFixture :=
  if bundle.tests.roundtrip.isEmpty then (smokeFixture bundle).toList
  else (dedup [] bundle.tests.roundtrip).map fun rel => ⟨rel, bundle.dir.path rel, none⟩

/-! ## Level 5 -/

/-- What `usdcat --flatten` and reading its output come to: the tool cannot be started, it fails
with this on its error stream, its output cannot be read, or is this text. -/
inductive Flattened
  | unspawned
  | failed (stderr : String)
  | unreadable (error : String)
  | text (content : String)

/-- The tools of a session: where `usdcat` is, and what it makes of a layer identifier. -/
structure Session where
  usdcat : Option String
  flatten : String → String → Flattened

/-- How two USDA texts are compared: `normalize`, and the report of a difference between two
normalised texts that come of these texts. -/
structure Comparison where
  normalize : String → String
  report : String → String → String

/-- `tail`: the last line of a text that is not blank. -/
def lastLine (stderr : String) : String :=
  Text.trim (((Text.split (· == '\n') stderr).reverse.find? fun line =>
    Text.trim line != "").getD "")

/-- `Utf8Path::file_name`, or the whole path. -/
def fileNameOr (os : Os) (path : String) : String :=
  match (Path.components os path).getLast? with
  | some name => if name = ".." then path else name
  | none => path

def GOLDEN_ROUNDTRIP : String := "golden.roundtrip"

section Level5

variable (codec : Codec) (comparison : Comparison) (session : Session)

/-- `level5_golden_fixture` behind the check of the contract. -/
def compareGolden (dir : BundleDir) (golden : String) (fixture : ResolvedFixture) : Diagnostic :=
  if !dir.isFile golden then
    ⟨GOLDEN_ROUNDTRIP, 5, .skip, "no golden file: expected '" ++ fileNameOr dir.os golden ++
      "' next to the fixture — the flattened stage of '" ++ fileNameOr dir.os fixture.path ++ "'"⟩
  else
    match session.usdcat with
    | none => ⟨GOLDEN_ROUNDTRIP, 5, .fail, "usdcat not found in the runtime"⟩
    | some usdcat =>
      match session.flatten usdcat fixture.identifier with
      | .unspawned => ⟨GOLDEN_ROUNDTRIP, 5, .fail, "could not run usdcat (" ++ usdcat ++ ")"⟩
      | .failed stderr =>
        ⟨GOLDEN_ROUNDTRIP, 5, .fail, "usdcat --flatten failed: " ++ lastLine stderr⟩
      | .unreadable error =>
        ⟨GOLDEN_ROUNDTRIP, 5, .fail, "could not read usdcat --out result: " ++ error⟩
      | .text flattened =>
        let expected := dir.readToStringOrDefault golden
        if comparison.normalize flattened = comparison.normalize expected then
          ⟨GOLDEN_ROUNDTRIP, 5, .pass, "flattened output matches the golden"⟩
        else ⟨GOLDEN_ROUNDTRIP, 5, .fail, comparison.report flattened expected⟩

/-- `level5_golden_fixture`. -/
def level5GoldenFixture (dir : BundleDir) (contract : Option PluginVerification)
    (fixture : ResolvedFixture) : Diagnostic :=
  match contract.bind (·.oracleFor fixture.relative) with
  | some entry =>
    match dir.verify codec entry with
    | .error error => ⟨GOLDEN_ROUNDTRIP, 5, .fail, error.message⟩
    | .ok () => compareGolden comparison session dir (dir.path entry.oracle) fixture
  | none =>
    compareGolden comparison session dir (dir.path (adjacentGolden fixture.relative)) fixture

/-- The diagnostic of several fixtures. -/
def foldResults (results : List (String × Diagnostic)) : Diagnostic :=
  let total := results.length
  let failures := results.filter fun result => result.2.status = .fail
  let passed := (results.filter fun result => result.2.status = .pass).length
  if !failures.isEmpty then
    ⟨GOLDEN_ROUNDTRIP, 5, .fail, toString failures.length ++ " of " ++ toString total ++
      " roundtrip fixtures failed: " ++ Text.join "; " (failures.map fun result =>
        "'" ++ result.1 ++ "': " ++ result.2.observed)⟩
  else if 0 < passed then
    ⟨GOLDEN_ROUNDTRIP, 5, .pass,
      if total - passed = 0 then
        "all " ++ toString passed ++ " roundtrip fixtures match their goldens"
      else toString passed ++ " roundtrip fixture(s) match their goldens; " ++
        toString (total - passed) ++ " fixture(s) have no golden"⟩
  else ⟨GOLDEN_ROUNDTRIP, 5, .skip,
    "none of the " ++ toString total ++ " roundtrip fixtures has a golden file"⟩

/-- `level5_golden`. -/
def level5Golden (bundle : Bundle) : Diagnostic :=
  let fixtures := roundtripFixtures bundle
  if fixtures.isEmpty then ⟨GOLDEN_ROUNDTRIP, 5, .skip, "no roundtrip fixture declared"⟩
  else
    match bundle.dir.loadContract codec with
    | .error error => ⟨GOLDEN_ROUNDTRIP, 5, .fail,
        "invalid packaged verification contract: " ++ error.message⟩
    | .ok contract =>
      match fixtures.map fun fixture => (fixture.relative,
          level5GoldenFixture codec comparison session bundle.dir contract fixture) with
      | [result] => result.2
      | results => foldResults results

end Level5

/-! ## When the diagnostic is a failure -/

section Failure

variable {codec : Codec} {comparison : Comparison} {session : Session} {bundle : Bundle}
  {dir : BundleDir} {contract : PluginVerification} {entry : RoundtripVerification}
  {fixture : ResolvedFixture}

theorem foldResults_fail_iff {results : List (String × Diagnostic)} :
    (foldResults results).status = .fail ↔ ∃ result ∈ results, result.2.status = .fail := by
  have hempty : (results.filter fun result => result.2.status = .fail).isEmpty = true ↔
      ¬ ∃ result ∈ results, result.2.status = .fail := by
    simp [List.isEmpty_iff, List.filter_eq_nil_iff]
  unfold foldResults
  dsimp only
  split_ifs with hfailures
  · simpa [hempty] using hfailures
  all_goals
    have hnone := hempty.mp (by simpa using hfailures)
    simpa using hnone

/-- The diagnostic is a failure when a contract is there but does not load, and when a fixture
fails. -/
theorem level5Golden_fail_iff :
    (level5Golden codec comparison session bundle).status = .fail ↔
      roundtripFixtures bundle ≠ [] ∧ ∀ contract, bundle.dir.loadContract codec = .ok contract →
        ∃ fixture ∈ roundtripFixtures bundle,
          (level5GoldenFixture codec comparison session bundle.dir contract fixture).status =
            .fail := by
  unfold level5Golden
  cases hfixtures : roundtripFixtures bundle with
  | nil => simp
  | cons first rest =>
    cases hload : bundle.dir.loadContract codec with
    | error error => simp
    | ok contract =>
      cases rest with
      | nil => simp
      | cons second rest => simp [foldResults_fail_iff]

/-- Behind the contract, a fixture whose golden is there passes when the tool makes of it what
compares equal to the golden. -/
theorem compareGolden_ne_fail {golden usdcat flattened : String}
    (husdcat : session.usdcat = some usdcat)
    (hflatten : session.flatten usdcat fixture.identifier = .text flattened)
    (hequal : comparison.normalize flattened =
      comparison.normalize (dir.readToStringOrDefault golden)) :
    (compareGolden comparison session dir golden fixture).status ≠ .fail := by
  unfold compareGolden
  split_ifs with hfile
  · simp
  · simp [husdcat, hflatten, hequal]

theorem level5GoldenFixture_of_error {error : Error}
    (hentry : contract.oracleFor fixture.relative = some entry)
    (hverify : dir.verify codec entry = .error error) :
    (level5GoldenFixture codec comparison session dir (some contract) fixture).status = .fail := by
  simp [level5GoldenFixture, hentry, hverify]

end Failure

/-! ## Changed content -/

/-- A file is missing, no regular file, or has other content than was recorded. -/
def FileChanged (codec : Codec) (dir : BundleDir) (rel expected : String) : Prop :=
  match dir.standing (dir.path rel) with
  | .missing | .special => True
  | .file content => ∃ bytes, content = some bytes ∧ sha256Hex codec bytes ≠ expected

/-- A file that the entry binds has changed. -/
def Changed (codec : Codec) (dir : BundleDir) (entry : RoundtripVerification) : Prop :=
  FileChanged codec dir entry.fixture entry.fixtureSha256 ∨
    FileChanged codec dir entry.oracle entry.oracleSha256

section Changed

variable {codec : Codec} {dir : BundleDir} {entry : RoundtripVerification}

theorem FileChanged.error {rel expected : String} (h : FileChanged codec dir rel expected)
    (kind : String) :
    ∃ error, dir.verifyFile codec kind rel expected = .error error := by
  unfold FileChanged at h
  unfold BundleDir.verifyFile
  cases hstanding : dir.standing (dir.path rel) with
  | missing => exact ⟨_, rfl⟩
  | special => exact ⟨_, rfl⟩
  | file content =>
    rw [hstanding] at h
    obtain ⟨bytes, rfl, hne⟩ := h
    exact ⟨_, if_pos hne⟩

/-- Changed content is noticed once an entry is verified. -/
theorem Changed.error (h : Changed codec dir entry) :
    ∃ error, dir.verify codec entry = .error error := by
  unfold BundleDir.verify
  cases hfixture : dir.verifyFile codec "roundtrip fixture" entry.fixture entry.fixtureSha256 with
  | error error => exact ⟨error, rfl⟩
  | ok u =>
    rcases h with h | h
    · obtain ⟨error, herror⟩ := h.error "roundtrip fixture"
      rw [herror] at hfixture
      cases hfixture
    · obtain ⟨error, herror⟩ := h.error "roundtrip oracle"
      exact ⟨error, by rw [herror]; rfl⟩

end Changed

/-! ## Failing closed -/

theorem oracle_of_validateRoundtrip {seen : List String} {entries : List RoundtripVerification}
    (h : validateRoundtrip seen entries = .ok ()) {entry : RoundtripVerification}
    (hentry : entry ∈ entries) : entry.oracle = adjacentGolden entry.fixture := by
  induction entries generalizing seen with
  | nil => cases hentry
  | cons first rest ih =>
    simp only [validateRoundtrip, Result.bind_ok, Result.failIf_ok, not_not] at h
    obtain ⟨-, -, -, -, -, horacle, -, -, -, -, hrest⟩ := h
    rcases List.mem_cons.mp hentry with rfl | hentry
    · exact horacle
    · exact ih hrest hentry

section FailClosed

variable {codec : Codec} {bundle : Bundle} {contract : PluginVerification}

/-- In a contract that loads, goldens stand beside their fixtures. -/
theorem oracle_of_loadContract (h : bundle.dir.loadContract codec = .ok (some contract))
    {entry : RoundtripVerification} (hentry : entry ∈ contract.roundtrip) :
    entry.oracle = adjacentGolden entry.fixture := by
  unfold BundleDir.loadContract at h
  cases hcontract : bundle.dir.contract with
  | file text =>
    rw [hcontract] at h
    simp only [Result.bind_ok] at h
    obtain ⟨source, -, contract', -, u, hvalid, heq⟩ := h
    obtain rfl := Option.some.inj (Except.ok.inj heq)
    simp only [PluginVerification.validate, Result.bind_ok] at hvalid
    obtain ⟨-, -, -, -, hvalid⟩ := hvalid
    exact oracle_of_validateRoundtrip hvalid hentry
  | missing => simp [hcontract] at h
  | inaccessible => simp [hcontract] at h
  | link => simp [hcontract] at h
  | special => simp [hcontract] at h

/-- The golden beside a fixture, by the path of the fixture. -/
theorem path_adjacentGolden (dir : BundleDir) (rel : String) :
    dir.path (adjacentGolden rel) = dir.path rel ++ ".golden.usda" := by
  unfold BundleDir.path Path.join adjacentGolden
  split_ifs <;> simp only [String.append_assoc]

/-- The golden text of a fixture. -/
def goldenText (bundle : Bundle) (fixture : ResolvedFixture) : String :=
  bundle.dir.readToStringOrDefault (bundle.dir.path (adjacentGolden fixture.relative))

/-- Fixtures with the same layer identifier have the same golden. -/
theorem goldenText_eq {f g : ResolvedFixture} (hf : f ∈ roundtripFixtures bundle)
    (hg : g ∈ roundtripFixtures bundle) (h : f.identifier = g.identifier) :
    goldenText bundle f = goldenText bundle g := by
  unfold roundtripFixtures at hf hg
  split_ifs at hf hg with hempty
  · rw [Option.mem_toList] at hf hg
    rw [Option.mem_unique hf hg]
  · obtain ⟨r, -, rfl⟩ := List.mem_map.mp hf
    obtain ⟨r', -, rfl⟩ := List.mem_map.mp hg
    have hpath : bundle.dir.path r = bundle.dir.path r' := h
    rw [goldenText, goldenText, path_adjacentGolden, path_adjacentGolden, hpath]

/-- A session whose tool makes the golden of each fixture. -/
def reproducing (bundle : Bundle) : Session where
  usdcat := some "usdcat"
  flatten _ identifier := .text <|
    (((roundtripFixtures bundle).find? (·.identifier = identifier)).map (goldenText bundle)).getD ""

theorem flatten_reproducing {fixture : ResolvedFixture}
    (h : fixture ∈ roundtripFixtures bundle) (usdcat : String) :
    (reproducing bundle).flatten usdcat fixture.identifier = .text (goldenText bundle fixture) := by
  have hsome : ((roundtripFixtures bundle).find? (·.identifier = fixture.identifier)).isSome := by
    rw [List.find?_isSome]
    exact ⟨fixture, h, decide_eq_true rfl⟩
  obtain ⟨other, hother⟩ := Option.isSome_iff_exists.mp hsome
  have hidentifier : other.identifier = fixture.identifier := by
    simpa using List.find?_some hother
  rw [← goldenText_eq (List.mem_of_find?_eq_some hother) h hidentifier]
  show Flattened.text (((List.find? _ _).map (goldenText bundle)).getD "") = _
  rw [hother]
  rfl

/-- In such a session only the contract can fail a fixture. -/
theorem level5GoldenFixture_reproducing {comparison : Comparison} {fixture : ResolvedFixture}
    (hload : bundle.dir.loadContract codec = .ok (some contract))
    (h : fixture ∈ roundtripFixtures bundle)
    (hfail : (level5GoldenFixture codec comparison (reproducing bundle) bundle.dir (some contract)
      fixture).status = .fail) :
    ∃ entry error, contract.oracleFor fixture.relative = some entry ∧
      bundle.dir.verify codec entry = .error error := by
  have hpasses : (compareGolden comparison (reproducing bundle) bundle.dir
      (bundle.dir.path (adjacentGolden fixture.relative)) fixture).status ≠ .fail :=
    compareGolden_ne_fail rfl (flatten_reproducing h "usdcat") rfl
  unfold level5GoldenFixture at hfail
  cases hentry : contract.oracleFor fixture.relative with
  | none =>
    rw [Option.bind_some, hentry] at hfail
    exact absurd hfail hpasses
  | some entry =>
    rw [Option.bind_some, hentry] at hfail
    cases hverify : bundle.dir.verify codec entry with
    | error error => exact ⟨entry, error, rfl, hverify⟩
    | ok u =>
      have hfixture : entry.fixture = fixture.relative := by
        simpa using List.find?_some hentry
      have horacle := oracle_of_loadContract hload (List.mem_of_find?_eq_some hentry)
      simp only [hverify, horacle, hfixture] at hfail
      exact absurd hfail hpasses

/-- Changed content fails level 5 whatever the tools report exactly when one of the fixtures that
are flattened is bound, under the path that the manifest spells, to content that does not
verify. -/
theorem level5Golden_failsClosed_iff {comparison : Comparison}
    (hload : bundle.dir.loadContract codec = .ok (some contract)) :
    ((∃ entry ∈ contract.roundtrip, Changed codec bundle.dir entry) →
      ∀ session, (level5Golden codec comparison session bundle).status = .fail) ↔
    ((∃ entry ∈ contract.roundtrip, Changed codec bundle.dir entry) →
      ∃ fixture ∈ roundtripFixtures bundle, ∃ entry error,
        contract.oracleFor fixture.relative = some entry ∧
          bundle.dir.verify codec entry = .error error) := by
  constructor
  · intro h hchanged
    obtain ⟨-, hfail⟩ := level5Golden_fail_iff.mp (h hchanged (reproducing bundle))
    obtain ⟨fixture, hfixture, hfail⟩ := hfail _ hload
    exact ⟨fixture, hfixture, level5GoldenFixture_reproducing hload hfixture hfail⟩
  · intro h hchanged session
    obtain ⟨fixture, hfixture, entry, error, hentry, herror⟩ := h hchanged
    refine level5Golden_fail_iff.mpr ⟨List.ne_nil_of_mem hfixture, fun contract' hload' => ?_⟩
    obtain rfl := Except.ok.inj (hload.symm.trans hload')
    exact ⟨fixture, hfixture, level5GoldenFixture_of_error hentry herror⟩

end FailClosed

/-! ## A golden that the package dropped -/

namespace Sample

/-- The digest of every content. -/
def zeros : String := "sha256:" ++ renderHex (List.replicate 32 0)

def codec : Codec where
  sha256 _ := List.replicate 32 0
  parse _ := some (.obj [("schema", .str PLUGIN_VERIFICATION_SCHEMA),
    ("oracle_convention", .str ORACLE_CONVENTION),
    ("roundtrip", .arr [.obj [("fixture", .str "a.toy"), ("fixture_sha256", .str zeros),
      ("oracle", .str "a.toy.golden.usda"), ("oracle_sha256", .str zeros)]])])

def entry : RoundtripVerification := ⟨"a.toy", zeros, "a.toy.golden.usda", zeros⟩

def contract : PluginVerification := ⟨PLUGIN_VERIFICATION_SCHEMA, ORACLE_CONVENTION, [entry]⟩

def standing (path : String) : Standing :=
  if path = "/b/a.toy" ∨ path = "/b/./a.toy" then .file (some []) else .missing

/-- A package of one fixture without its golden, listed under this path. -/
def bundle (listed : String) : Bundle where
  dir := { os := .linux, root := "/b", contract := .file (some ""), standing }
  tests := { smoke := [], roundtrip := [listed], negative := [] }

def comparison : Comparison := ⟨id, fun flattened _ => flattened⟩

theorem validSha256_append {bytes : Bytes} (h : bytes.length = 32) :
    validSha256 ("sha256:" ++ renderHex bytes) := by
  rw [validSha256, Text.stripPrefix_append]
  simp [length_renderHex, all_lower_renderHex, h]

theorem validate_contract : contract.validate = .ok () := by
  simp only [PluginVerification.validate, contract, validateRoundtrip, Result.bind_ok,
    Result.failIf_ok, Result.forAll_ok]
  refine ⟨(), by decide, (), by decide, (), by decide, (), by decide, (), by decide, (), by decide,
    (), ?_, trivial⟩
  intro field hfield
  have hzeros : field.2 = zeros := by
    rcases List.mem_cons.mp hfield with rfl | hfield
    · rfl
    · rw [List.mem_singleton.mp hfield]
      rfl
  have hvalid : validSha256 zeros := validSha256_append List.length_replicate
  simpa only [hzeros, not_not] using hvalid

theorem load_bundle (listed : String) :
    (bundle listed).dir.loadContract codec = .ok (some contract) :=
  Result.bind_ok.mpr ⟨"", rfl, Result.bind_ok.mpr ⟨contract, rfl,
    Result.bind_ok.mpr ⟨(), validate_contract, rfl⟩⟩⟩

/-- The golden is missing. -/
theorem changed_entry (listed : String) : Changed codec (bundle listed).dir entry := by
  have hpath : (bundle listed).dir.path entry.oracle = "/b/a.toy.golden.usda" := by
    show Path.join .linux "/b" "a.toy.golden.usda" = "/b/a.toy.golden.usda"
    decide
  have hmissing : (bundle listed).dir.standing ((bundle listed).dir.path entry.oracle) =
      .missing := by
    rw [hpath]
    rfl
  refine .inr ?_
  rw [FileChanged, hmissing]
  trivial

end Sample

open Sample in
theorem level5Golden_failsClosed_iff_sample :
    (level5Golden codec comparison (reproducing (bundle "a.toy")) (bundle "a.toy")).status =
      .fail := by
  obtain ⟨error, herror⟩ := (changed_entry "a.toy").error
  refine (level5Golden_failsClosed_iff (load_bundle "a.toy")).mpr (fun _ => ?_)
    ⟨entry, List.mem_singleton.mpr rfl, changed_entry _⟩ _
  exact ⟨⟨"a.toy", "/b/a.toy", none⟩, List.mem_singleton.mpr rfl, entry, error, rfl, herror⟩

open Sample in
/-- The same package is skipped when its manifest spells the path of the fixture with a dot. -/
theorem other_spelling_skips :
    (bundle "./a.toy").dir.loadContract codec = .ok (some contract) ∧
      Changed codec (bundle "./a.toy").dir entry ∧
      (level5Golden codec comparison (reproducing (bundle "./a.toy")) (bundle "./a.toy")).status =
        .skip := by
  refine ⟨load_bundle _, changed_entry _, ?_⟩
  have hfixtures : roundtripFixtures (bundle "./a.toy") =
      [⟨"./a.toy", "/b/./a.toy", none⟩] := by rfl
  have hentry : contract.oracleFor "./a.toy" = none := by decide
  have hgolden : (bundle "./a.toy").dir.isFile "/b/./a.toy.golden.usda" = false := by decide
  have hskip : (level5GoldenFixture codec comparison (reproducing (bundle "./a.toy"))
      (bundle "./a.toy").dir (some contract) ⟨"./a.toy", "/b/./a.toy", none⟩).status = .skip := by
    rw [level5GoldenFixture, Option.bind_some, hentry]
    show (compareGolden _ _ _ "/b/./a.toy.golden.usda" _).status = _
    rw [compareGolden, hgolden]
    rfl
  simp [level5Golden, hfixtures, load_bundle, hskip]

end OpenStrata.Plugin.Golden
