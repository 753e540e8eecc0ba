import OpenStrata.Ci.Matrix
import OpenStrata.Core.Segments
import OpenStrata.Platform.OpenUsd

/-!
# Validation of the support matrix

Structural validation, in the order of the document and, within a cell, in the order the checks
are made. Values that are later spliced into generated workflows are held to narrow character
sets.

## Main definitions

* `isKebab`, `isCiAtom`, `isMajorMinor`: character sets of names, atoms and versions
* `referencesGithubSecretsContext`: the search for the `secrets` context in a text
* `validateNamedCheck`, `validateRuntimeRemote`, `validateBootstrap`, `validateRelease`
* `SupportMatrix.validateCell`, `SupportMatrix.validate`
-/

namespace OpenStrata.Ci

def invalid (message : String) : Error := .invalidManifest message

/-- A refusal that names its cell. -/
def cellInvalid (name message : String) : Error := invalid ("cell '" ++ name ++ "': " ++ message)

/-! ## Character sets -/

def isKebabChar (c : Char) : Bool := c.isLower || c.isDigit || c == '-'

def isKebab (name : String) : Bool := !name.isEmpty && Text.all isKebabChar name

def isCiAtomChar (c : Char) : Bool := c.isAlphanum || c == '.' || c == '_' || c == '-'

def isCiAtom (value : String) : Bool := !value.isEmpty && Text.all isCiAtomChar value

def isBuildIntentName (value : String) : Bool :=
  value != "default" && value.toList.head?.any Char.isAlphanum && isCiAtom value

/-- A bare `<major>.<minor>` version. -/
def isMajorMinor (v : String) : Bool :=
  match Text.splitOnce "." v with
  | some (major, minor) =>
    !major.isEmpty && !minor.isEmpty && Text.all Char.isDigit major && Text.all Char.isDigit minor
  | none => false

def isPathSeparator (c : Char) : Bool := c == '/' || c == '\\'

/-- The shapes by which a path leaves the repository. -/
def escapesRepository (path : String) : Bool :=
  path.isEmpty || Text.startsWith "/" path || Text.startsWith "\\" path ||
    Text.containsChar ':' path || (Text.split isPathSeparator path).any (· == "..")

def isRepoPathChar (c : Char) : Bool :=
  c.isAlphanum || c == '/' || c == '.' || c == '_' || c == '-'

def validateRepoPath (label value : String) : Result Unit :=
  Result.failIf (¬ Text.all isRepoPathChar value ∨ escapesRepository value)
    (invalid (label ++ " '" ++ value ++ "' must be a safe repository-relative path"))

/-! ## Host packages -/

inductive HostPackageManager
  | apt
  | brew
  deriving DecidableEq, Repr

def isPackageChar (c : Char) : Bool :=
  c.isAlphanum || c == '.' || c == '_' || c == '+' || c == '-'

/-- One package-manager argument: no flag and no shell metacharacter. -/
def isBarePackage (part : String) : Bool :=
  !part.isEmpty && !Text.startsWith "-" part && Text.all isPackageChar part

/-- Whether an installer takes a name as one argument; Homebrew versions formulae with `@`. -/
def HostPackageManager.acceptsName (manager : HostPackageManager) (name : String) : Bool :=
  match manager with
  | .apt => isBarePackage name
  | .brew =>
    match Text.splitOnce "@" name with
    | some (formula, version) =>
      isBarePackage formula && isBarePackage version && !Text.containsChar '@' version
    | none => isBarePackage name

/-! ## Repository checks -/

/-- A byte that can be part of an identifier of an expression. -/
def isExpressionIdent (c : Char) : Bool := c.isAlphanum || c == '_'

def eqIgnoreAsciiCase (a b : Char) : Bool := a.toLower == b.toLower

/-- `needle` stands at the head of a text and no identifier continues it. -/
def standsAtHead (needle value : List Char) : Bool :=
  needle.length ≤ value.length &&
    ((value.take needle.length).zipWith eqIgnoreAsciiCase needle).all id &&
    (value.drop needle.length).head?.all fun after => !isExpressionIdent after

/-- `needle` stands in a text as a word, read after the character `before`. -/
def containsWordAfter (needle : List Char) (before : Option Char) : List Char → Bool
  | [] => false
  | c :: rest =>
    (before.all (fun b => !isExpressionIdent b) && standsAtHead needle (c :: rest)) ||
      containsWordAfter needle (some c) rest

/-- `needle` occurs in `value`, ignoring case, as a word of its own. -/
def containsStandaloneAsciiWord (value needle : List Char) : Bool :=
  !needle.isEmpty && containsWordAfter needle none value

/-- The search for `secrets` in the expressions of a text. Every round consumes at least the two
markers; `fuel` bounds the rounds by the length of the text. -/
def referencesSecretsFrom : Nat → List Char → Bool
  | 0, _ => false
  | fuel + 1, tail =>
    match Text.splitOnceList "$\x7b\x7b".toList tail with
    | none => false
    | some (_, afterStart) =>
      match Text.splitOnceList "\x7d\x7d".toList afterStart with
      | some (body, rest) =>
        containsStandaloneAsciiWord body "secrets".toList || referencesSecretsFrom fuel rest
      | none => containsStandaloneAsciiWord afterStart "secrets".toList

def referencesGithubSecretsContext (value : String) : Bool :=
  referencesSecretsFrom (value.toList.length + 1) value.toList

def isCheckNameChar (c : Char) : Bool := c.isAlphanum || " -_()./,+".toList.contains c

/-- A check's name is a plain step title, and its script has neither control characters nor an
expression that mentions `secrets`. -/
def validateNamedCheck (group : String) (index : Nat) (check : SourceCheck) : Result Unit := do
  let here := group ++ "[" ++ toString index ++ "]"
  Result.failIf (Text.trim check.name).isEmpty (invalid (here ++ ".name must not be empty"))
  Result.failIf (¬ Text.all isCheckNameChar check.name)
    (invalid (here ++ ".name '" ++ check.name ++
      "' must be a plain step title (characters [A-Za-z0-9 -_()./,+]) — " ++
      "no ':', '#', quotes, or newlines"))
  Result.failIf (Text.trim check.run).isEmpty (invalid (here ++ ".run must not be empty"))
  Result.failIf (Text.any (fun c => Text.isControl c && c != '\n' && c != '\t') check.run)
    (invalid (here ++ ".run contains a control character (only newline and tab are allowed) — " ++
      "use LF line endings"))
  Result.failIf (referencesGithubSecretsContext check.run ∨
      referencesGithubSecretsContext check.name)
    (invalid (here ++ " references the GitHub Actions 'secrets' context — " ++
      "source CI never uses secrets (fork-PR safety); a smoke check must run without them"))

/-- Checks in order, each with its index. -/
def validateChecks (group : String) (checks : List SourceCheck) : Result Unit :=
  Result.forAll (fun entry : SourceCheck × Nat => validateNamedCheck group entry.2 entry.1)
    checks.zipIdx

/-! ## Bootstrap, release and remote references -/

def isTripleChar (c : Char) : Bool := c.isAlphanum || c == '_' || c == '-'

/-- The bootstrap block; its values are spliced into rendered scripts. -/
def validateBootstrap (bootstrap : Bootstrap) : Result Unit := do
  let ost := bootstrap.ost
  Result.failIf (¬ (!ost.version.isEmpty && Text.all isCiAtomChar ost.version &&
      !Text.startsWith "v" ost.version))
    (invalid ("bootstrap.ost.version '" ++ ost.version ++
      "' must be a bare release version like 0.9.0 (no leading 'v', characters [A-Za-z0-9._-])"))
  Result.failIf (¬ ((Text.split (· == '/') ost.repository).length == 2 &&
      (Text.split (· == '/') ost.repository).all isCiAtom))
    (invalid ("bootstrap.ost.repository '" ++ ost.repository ++
      "' must be an <owner>/<name> GitHub repository"))
  Result.forAll (fun entry : String × String => do
    Result.failIf (¬ (!entry.1.isEmpty && Text.all isTripleChar entry.1))
      (invalid ("bootstrap.ost.sha256 key '" ++ entry.1 ++ "' is not a target triple"))
    Result.failIf (entry.2.length ≠ 64 ∨ ¬ Text.all Text.isHexDigit entry.2)
      (invalid ("bootstrap.ost.sha256['" ++ entry.1 ++ "'] must be a bare 64-hex sha256, got '" ++
        entry.2 ++ "'"))) ost.sha256

/-- A version without a leading `v`: three numbers, then an optional pre-release. -/
def isReleaseVersion (version : String) : Bool :=
  let core := ((Text.splitOnce "-" version).map (·.1)).getD version
  let parts := Text.split (· == '.') core
  parts.length == 3 && parts.all (fun part => !part.isEmpty && Text.all Char.isDigit part) &&
    !Text.startsWith "v" version &&
    Text.all (fun c => c.isAlphanum || c == '.' || c == '-') version

def validateDestination (destination : String) : Result Unit :=
  match RemoteReference.parse destination with
  | .error error => .error (invalid ("release.destination '" ++ destination ++ "': " ++
      error.message))
  | .ok (.oci reference) =>
    Result.failIf (reference.tag.isSome ∨ reference.digest.isSome)
      (invalid ("release.destination '" ++ destination ++
        "' must be an OCI repository without a tag or digest"))
  | .ok (.file _) => .error (invalid "release.destination must be an oci:// repository")

def validateRelease (release : ReleaseLane) : Result Unit := do
  Result.failIf (¬ isReleaseVersion release.version)
    (invalid ("release.version '" ++ release.version ++
      "' must be a bare SemVer like 1.2.3 (no leading 'v')"))
  release.destination.elim (.ok ()) validateDestination
  release.environment.elim (.ok ()) fun environment =>
    Result.failIf (environment.isEmpty ∨ 64 < environment.length ∨
        ¬ Text.all isTripleChar environment)
      (invalid ("release.environment '" ++ environment ++
        "' must use [A-Za-z0-9_-] (maximum 64 characters)"))

/-- A cell's remote reference: a pinned `oci://` uri whose pin is repeated in
`expected_oci_digest`. -/
def validateRuntimeRemote (cell : String) (remote : RuntimeRemote) : Result Unit :=
  match RemoteReference.parse remote.uri with
  | .error error => .error (cellInvalid cell ("runtime_remote.uri: " ++ error.message))
  | .ok (.file _) =>
    .error (cellInvalid cell ("runtime_remote.uri must be an oci:// reference " ++
      "(file:// sources are the air-gapped local-import path, not a remote pin)"))
  | .ok (.oci reference) => do
    let uriDigest ← Result.okOr (cellInvalid cell ("runtime_remote.uri '" ++ remote.uri ++
      "' pins no digest — resolve the tag (`ost artifact resolve`) and pin the " ++
      "@sha256:<digest> form")) reference.digest
    let expected ← Result.okOr (cellInvalid cell ("runtime_remote.expected_oci_digest is " ++
      "required and must repeat the uri's pinned OCI digest")) remote.expectedOciDigest
    Result.failIf (¬ isSha256Ref expected)
      (cellInvalid cell ("runtime_remote.expected_oci_digest '" ++ expected ++
        "' is not a full sha256:<64-hex> digest"))
    Result.failIf (uriDigest ≠ expected)
      (cellInvalid cell ("runtime_remote.uri pins " ++ uriDigest ++
        " but expected_oci_digest is " ++ expected ++ " — the two must agree"))

end OpenStrata.Ci
