import OpenStrata.Core.Digest

/-!
# Remote artifact references

A reference names a repository of a registry, optionally with a tag and a pinned manifest
digest, or a local producer directory.

## Main definitions

* `OciReference`, `FileReference`, `RemoteReference`: parsed references
* `RemoteReference.parse`: the parser
* `RemoteReference.isPinned`: whether a reference names immutable content

## Main results

* `OciReference.parseRest_ok`: what a parsed registry reference satisfies
-/

namespace OpenStrata

/-- The tag grammar: a letter, digit or underscore, then at most 127 portable characters. -/
def isValidOciTag (value : String) : Bool :=
  match value.toList with
  | [] => false
  | first :: rest =>
    value.length ≤ 128 && (first.isAlphanum || first == '_') &&
      rest.all fun c => c.isAlphanum || c == '.' || c == '_' || c == '-'

/-- A reference to a registry. -/
structure OciReference where
  registry : String
  repository : String
  tag : Option String
  digest : Option String
  deriving DecidableEq, Repr

/-- A reference to a producer output directory. -/
structure FileReference where
  path : String
  deriving DecidableEq, Repr

/-- A parsed remote artifact reference. -/
inductive RemoteReference
  | oci (reference : OciReference)
  | file (reference : FileReference)
  deriving DecidableEq, Repr

/-- A character of a registry host with its port. -/
def isRegistryChar (c : Char) : Bool := c.isAlphanum || c == '.' || c == '-' || c == ':'

/-- A character of a repository path. -/
def isRepositoryChar (c : Char) : Bool :=
  c.isLower || c.isDigit || c == '.' || c == '_' || c == '-' || c == '/'

namespace OciReference

/-- The refusal of an ill-formed registry reference. -/
def bad (input why : String) : Error :=
  .usage ("'" ++ input ++ "' is not a valid oci:// reference: " ++ why ++
    " (expected oci://<registry>/<repository>[:tag][@sha256:<digest>])")

/-- The pinned digest of a reference, when it carries one. -/
def parseDigest (input : String) (rest : String) : Result (String × Option String) :=
  match Text.splitOnce "@" rest with
  | some (head, dg) =>
    if isSha256Ref dg then .ok (head, some dg)
    else .error (bad input ("'@" ++ dg ++ "' is not a sha256:<64 hex chars> digest"))
  | none => .ok (rest, none)

/-- The tag is what follows the last colon after the last slash. -/
def splitTag (repoAndTag : String) : String × Option String :=
  match Text.rsplitOnce ':' repoAndTag with
  | some (repo, tag) =>
    if ¬ Text.containsChar '/' repo ∨ ¬ Text.containsChar '/' tag then (repo, some tag)
    else (repoAndTag, none)
  | none => (repoAndTag, none)

/-- Parse what follows `oci://`. -/
def parseRest (input rest : String) : Result OciReference := do
  let (rest, digest) ← parseDigest input rest
  let (registry, repoAndTag) ← Result.okOr
    (bad input "missing a /<repository> after the registry host") (Text.splitOnce "/" rest)
  Result.failIf registry.isEmpty (bad input "empty registry host")
  Result.failIf (¬ Text.all isRegistryChar registry)
    (bad input ("registry host '" ++ registry ++
      "' may only contain letters, digits, and .-:"))
  let (repository, tag) := splitTag repoAndTag
  Result.failIf repository.isEmpty (bad input "empty repository path")
  Result.failIf (¬ Text.all isRepositoryChar repository)
    (bad input ("repository '" ++ repository ++
      "' may only contain lowercase letters, digits, and ._-/"))
  Result.failIf (tag.any fun tag => !isValidOciTag tag)
    (bad input ("'" ++ tag.getD "" ++ "' is not a valid tag"))
  return { registry, repository, tag, digest }

/-- The canonical locator. -/
def locator (r : OciReference) : String :=
  "oci://" ++ r.registry ++ "/" ++ r.repository ++
    (r.tag.elim "" fun tag => ":" ++ tag) ++ (r.digest.elim "" fun digest => "@" ++ digest)

/-- The manifest to ask the registry for: the digest when pinned, otherwise the tag. -/
def manifestReference (r : OciReference) : Result String :=
  Result.okOr (.usage ("'" ++ r.locator ++ "' names neither a tag nor a digest"))
    (r.digest.or r.tag)

theorem parseDigest_ok {input rest head : String} {digest : Option String}
    (h : parseDigest input rest = .ok (head, digest)) :
    ∀ d, digest = some d → isSha256Ref d := by
  unfold parseDigest at h
  split at h
  · split_ifs at h with hd
    cases h
    rintro d ⟨⟩
    exact hd
  · cases h
    rintro d ⟨⟩

/-- A parsed registry reference has a non-empty host of registry characters, a non-empty
repository, and a well-formed digest when it is pinned. -/
theorem parseRest_ok {input rest : String} {r : OciReference}
    (h : parseRest input rest = .ok r) :
    r.registry.isEmpty = false ∧ Text.all isRegistryChar r.registry ∧
      r.repository.isEmpty = false ∧ Text.all isRepositoryChar r.repository ∧
      ∀ d, r.digest = some d → isSha256Ref d := by
  simp only [parseRest, Result.bind_ok, Result.failIf_ok, Result.okOr_ok] at h
  obtain ⟨⟨head, digest⟩, hd, ⟨registry, repoAndTag⟩, -, ⟨⟩, hne, ⟨⟩, hreg, ⟨⟩, hrne, ⟨⟩,
    hrepo, ⟨⟩, -, hr⟩ := h
  cases hr
  exact ⟨by simpa using hne, by simpa using hreg, by simpa using hrne, by simpa using hrepo,
    parseDigest_ok hd⟩

end OciReference

namespace FileReference

/-- Parse what follows `file://`; a leading slash before a drive letter is dropped. -/
def parseRest (input rest : String) : Result FileReference :=
  let path := match rest.toList with
    | '/' :: a :: ':' :: c :: tail =>
      if a.isAlpha then String.ofList (a :: ':' :: c :: tail) else rest
    | _ => rest
  if path.isEmpty then
    .error (.usage ("'" ++ input ++
      "' has an empty file path (expected file://<package-output-dir>)"))
  else .ok { path }

def locator (r : FileReference) : String := "file://" ++ r.path

end FileReference

namespace RemoteReference

/-- Parse a reference. -/
def parse (input : String) : Result RemoteReference :=
  match Text.stripPrefix "oci://" input with
  | some rest => do return .oci (← OciReference.parseRest input rest)
  | none =>
    match Text.stripPrefix "file://" input with
    | some rest => do return .file (← FileReference.parseRest input rest)
    | none =>
      .error (.usage ("'" ++ input ++ "' is not a remote artifact reference (expected " ++
        "oci://<registry>/<repository>[:tag][@sha256:<digest>] or file://<package-output-dir>)"))

/-- A registry reference is pinned by its digest; a file reference is verified on every pull. -/
def isPinned : RemoteReference → Bool
  | .oci r => r.digest.isSome
  | .file _ => true

def locator : RemoteReference → String
  | .oci r => r.locator
  | .file r => r.locator

end RemoteReference

end OpenStrata
