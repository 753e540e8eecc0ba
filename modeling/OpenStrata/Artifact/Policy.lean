import Mathlib.Algebra.Order.Group.Nat
import OpenStrata.Core.Error
import OpenStrata.Core.Serde
import OpenStrata.Core.Text

/-!
# Artifact trust policy

The trust levels, the policy document with its publishers and protected namespaces, and the
matching of a publisher identity. Reading a policy file is the business of the TOML reader,
which is a parameter.

## Main definitions

* `TrustLevel`: assurance levels, ordered
* `ArtifactPolicy`, `ArtifactPolicy.validate`: a policy and its check
* `AllowedPublisher.matches`: an identity against a publisher rule
* `ArtifactPolicy.authorizePublisher`: the publisher that may push to a destination

## Main results

* `ArtifactPolicy.publisher_of_mem`: in a valid policy a publisher is found under its id
-/

namespace OpenStrata

/-- Assurance level of an artifact or a publisher identity. -/
inductive TrustLevel
  | localOnly
  | unsigned
  | attested
  | verified
  | trusted
  deriving DecidableEq, Repr

namespace TrustLevel

/-- Position in the order of the levels. -/
def rank : TrustLevel → Nat
  | .localOnly => 0
  | .unsigned => 1
  | .attested => 2
  | .verified => 3
  | .trusted => 4

theorem rank_injective : Function.Injective rank := by
  intro a b h
  cases a <;> cases b <;> first | rfl | simp [rank] at h

instance : LinearOrder TrustLevel := LinearOrder.lift' rank rank_injective

def asStr : TrustLevel → String
  | .localOnly => "local"
  | .unsigned => "unsigned"
  | .attested => "attested"
  | .verified => "verified"
  | .trusted => "trusted"

end TrustLevel

/-- A namespace whose pushes require an approved identity. -/
structure ProtectedNamespace where
  namespaceName : String
  minimumTrust : TrustLevel
  allowedPublishers : List String
  deriving DecidableEq, Repr

/-- A publisher rule; all five identity dimensions must match. -/
structure AllowedPublisher where
  id : String
  trust : TrustLevel
  repository : String
  workflowPath : String
  gitRefs : List String
  actors : List String
  events : List String
  deriving DecidableEq, Repr

/-- The claims of a verified publisher identity. -/
structure PublisherIdentity where
  repository : String
  workflowPath : String
  gitRef : String
  actor : String
  event : String
  deriving DecidableEq, Repr

def PublisherIdentity.fromJson (value : Json) : Option PublisherIdentity := do
  let fs ← Serde.fields ["repository", "workflow_path", "git_ref", "actor", "event"] value
  return {
    repository := ← Serde.required fs "repository" Serde.string
    workflowPath := ← Serde.required fs "workflow_path" Serde.string
    gitRef := ← Serde.required fs "git_ref" Serde.string
    actor := ← Serde.required fs "actor" Serde.string
    event := ← Serde.required fs "event" Serde.string }

/-- One policy document. -/
structure ArtifactPolicy where
  schema : Nat
  minimumTrust : TrustLevel
  protectedNamespaces : List ProtectedNamespace
  allowedPublishers : List AllowedPublisher
  deriving DecidableEq, Repr

def ARTIFACT_POLICY_SCHEMA : Nat := 1

def policyInvalid (message : String) : Error :=
  .ofCode "ARTIFACT_POLICY_INVALID" .configuration message

/-- A trailing star matches any continuation. -/
def refMatches (pattern value : String) : Bool :=
  match Text.stripSuffix "*" pattern with
  | some stem => Text.startsWith stem value
  | none => value == pattern

def AllowedPublisher.matches (p : AllowedPublisher) (identity : PublisherIdentity) : Bool :=
  p.repository == identity.repository && p.workflowPath == identity.workflowPath &&
    p.gitRefs.any (fun pattern => refMatches pattern identity.gitRef) &&
    p.actors.any (· == identity.actor) && p.events.any (· == identity.event)

/-- A destination inside a namespace: the namespace itself or a path under it. -/
def namespaceContains (namespaceName destination : String) : Bool :=
  destination == namespaceName ||
    (Text.stripPrefix namespaceName destination).any (Text.startsWith "/")

/-! ## Validation -/

/-- A host of lowercase letters, digits, dots and dashes, with an optional non-zero port. -/
def validRegistryNamespace (value : String) : Bool :=
  let (host, port) := match Text.rsplitOnce ':' value with
    | some (host, port) => (host, some port)
    | none => (value, none)
  !host.isEmpty &&
    Text.all (fun c => c.isLower || c.isDigit || c == '.' || c == '-') host &&
    port.all fun port =>
      !port.isEmpty && Text.all Char.isDigit port &&
        (Text.parseU64 port).any fun n => n < 2 ^ 16 && n != 0

/-- A lowercase registry and repository prefix, without scheme or digest. -/
def isNamespace (value : String) : Bool :=
  match Text.splitOnce "/" value with
  | none => false
  | some (registry, repository) =>
    value == Text.toAsciiLowercase value && (Text.splitOnce "://" value).isNone &&
      !Text.containsChar '@' value && validRegistryNamespace registry &&
      !repository.isEmpty && !Text.endsWith "/" repository &&
      (Text.split (· == '/') repository).all fun component =>
        !component.isEmpty && Text.all
          (fun c => c.isLower || c.isDigit || c == '.' || c == '_' || c == '-') component

def validateNamespace (value : ProtectedNamespace) : Result Unit := do
  Result.failIf (¬ isNamespace value.namespaceName)
    (policyInvalid ("protected namespace '" ++ value.namespaceName ++
      "' must be a lowercase registry/repository prefix without a scheme or tag"))
  Result.failIf (value.allowedPublishers = [])
    (policyInvalid ("protected namespace '" ++ value.namespaceName ++
      "' must allow at least one publisher"))

/-- A git ref pattern starts with `refs/` and uses at most one star, at its end. -/
def isGitRefPattern (pattern : String) : Bool :=
  let stars := pattern.toList.count '*'
  Text.startsWith "refs/" pattern && stars ≤ 1 && (stars != 1 || Text.endsWith "*" pattern)

def validatePublisher (value : AllowedPublisher) : Result Unit := do
  Result.failIf ((Text.trim value.id).isEmpty ∨ (Text.trim value.repository).isEmpty ∨
      (Text.trim value.workflowPath).isEmpty ∨ value.gitRefs = [] ∨ value.actors = [] ∨
      value.events = [])
    (policyInvalid ("allowed publisher id, repository, workflow_path, git_refs, actors, " ++
      "and events must all be non-empty"))
  Result.failIf (¬ Text.startsWith ".github/workflows/" value.workflowPath ∨
      ¬ Text.endsWith ".yml" value.workflowPath ∧ ¬ Text.endsWith ".yaml" value.workflowPath)
    (policyInvalid ("publisher '" ++ value.id ++
      "' workflow_path must name a .github/workflows/*.yml or *.yaml file"))
  Result.forAll (fun pattern => Result.failIf (¬ isGitRefPattern pattern)
    (policyInvalid ("publisher '" ++ value.id ++ "' git ref pattern '" ++ pattern ++
      "' must start with refs/ and may only use a trailing *"))) value.gitRefs

namespace ArtifactPolicy

def publisher (policy : ArtifactPolicy) (id : String) : Option AllowedPublisher :=
  policy.allowedPublishers.find? (·.id == id)

/-- The publishers in order, none of an id already seen. -/
def validatePublishers : List String → List AllowedPublisher → Result Unit
  | _, [] => .ok ()
  | seen, p :: rest => do
    validatePublisher p
    Result.failIf (p.id ∈ seen)
      (policyInvalid ("allowed publisher id '" ++ p.id ++ "' is duplicated"))
    validatePublishers (p.id :: seen) rest

/-- A protected namespace refers to a publisher of at least its trust. -/
def validateReference (policy : ArtifactPolicy) (protectedNs : ProtectedNamespace)
    (id : String) : Result Unit := do
  let publisher ← Result.okOr
    (policyInvalid ("protected namespace '" ++ protectedNs.namespaceName ++
      "' references unknown publisher '" ++ id ++ "'")) (policy.publisher id)
  Result.failIf (publisher.trust < protectedNs.minimumTrust)
    (policyInvalid ("publisher '" ++ id ++ "' has trust '" ++ publisher.trust.asStr ++
      "' below namespace '" ++ protectedNs.namespaceName ++ "' minimum '" ++
      protectedNs.minimumTrust.asStr ++ "'"))

/-- The protected namespaces in order, none of a name already seen. -/
def validateNamespaces (policy : ArtifactPolicy) :
    List String → List ProtectedNamespace → Result Unit
  | _, [] => .ok ()
  | seen, p :: rest => do
    validateNamespace p
    Result.failIf (p.namespaceName ∈ seen)
      (policyInvalid ("protected namespace '" ++ p.namespaceName ++ "' is duplicated"))
    Result.forAll (policy.validateReference p) p.allowedPublishers
    policy.validateNamespaces (p.namespaceName :: seen) rest

def validate (policy : ArtifactPolicy) : Result Unit := do
  Result.failIf (policy.schema ≠ ARTIFACT_POLICY_SCHEMA)
    (.ofCode "ARTIFACT_POLICY_SCHEMA_UNSUPPORTED" .configuration
      ("artifact policy schema " ++ toString policy.schema ++ " is not supported (expected " ++
        toString ARTIFACT_POLICY_SCHEMA ++ ")"))
  validatePublishers [] policy.allowedPublishers
  policy.validateNamespaces [] policy.protectedNamespaces

/-- Read a policy document: the TOML reader, then the check. -/
def parse (fromToml : String → Option ArtifactPolicy) (text : String) :
    Result ArtifactPolicy := do
  let policy ← Result.okOr
    (.ofCode "ARTIFACT_POLICY_PARSE_FAILED" .configuration "artifact policy TOML is invalid")
    (fromToml text)
  policy.validate
  return policy

/-- The most specific protected namespace that covers a destination; of equally specific
ones the last. -/
def protectedNamespace (policy : ArtifactPolicy) (destination : String) :
    Option ProtectedNamespace :=
  (policy.protectedNamespaces.filter fun p =>
    namespaceContains p.namespaceName destination).foldl
      (fun best p => match best with
        | none => some p
        | some b =>
          if b.namespaceName.length ≤ p.namespaceName.length then some p else some b)
      none

/-- What an authorised push is recorded under. -/
structure PublisherAuthorization where
  namespaceName : String
  publisher : String
  trust : TrustLevel
  deriving DecidableEq, Repr

/-- Match an identity against the publishers a protected destination allows. -/
def authorizePublisher (policy : ArtifactPolicy) (destination : String)
    (identity : PublisherIdentity) : Result (Option PublisherAuthorization) :=
  match policy.protectedNamespace destination with
  | none => .ok none
  | some protectedNs =>
    match (protectedNs.allowedPublishers.filterMap policy.publisher).find?
        (·.matches identity) with
    | some publisher => .ok (some {
        namespaceName := protectedNs.namespaceName
        publisher := publisher.id
        trust := publisher.trust })
    | none => .error ((Error.ofCode "ARTIFACT_POLICY_PUBLISHER_UNTRUSTED" .validation
        ("publisher identity is not allowed to publish to protected namespace '" ++
          protectedNs.namespaceName ++ "'")).withHint
        ("use an allowed repository/workflow/ref/actor/event identity, or pass " ++
          "--allow-untrusted-publisher explicitly"))

def verifyTrust (policy : ArtifactPolicy) (actual : TrustLevel) : Result Unit :=
  Result.failIf (actual < policy.minimumTrust)
    (.ofCode "ARTIFACT_POLICY_TRUST_INSUFFICIENT" .validation
      ("artifact trust '" ++ actual.asStr ++ "' is below policy minimum '" ++
        policy.minimumTrust.asStr ++ "'"))

theorem validatePublishers_ok {seen : List String} {publishers : List AllowedPublisher}
    {u : Unit} (h : validatePublishers seen publishers = .ok u) :
    (∀ p ∈ publishers, p.id ∉ seen) ∧ (publishers.map (·.id)).Nodup := by
  induction publishers generalizing seen with
  | nil => simp
  | cons p rest ih =>
    simp only [validatePublishers, Result.bind_ok, Result.failIf_ok] at h
    obtain ⟨⟨⟩, -, ⟨⟩, hseen, hrest⟩ := h
    obtain ⟨hnot, hnodup⟩ := ih hrest
    refine ⟨?_, ?_⟩
    · intro q hq
      rcases List.mem_cons.mp hq with rfl | hq
      · exact hseen
      · exact fun hmem => hnot q hq (List.mem_cons_of_mem _ hmem)
    · rw [List.map_cons, List.nodup_cons]
      refine ⟨fun hmem => ?_, hnodup⟩
      obtain ⟨q, hq, heq⟩ := List.mem_map.mp hmem
      exact hnot q hq (heq ▸ List.mem_cons_self)

theorem validate_publishers {policy : ArtifactPolicy} {u : Unit}
    (h : policy.validate = .ok u) : (policy.allowedPublishers.map (·.id)).Nodup := by
  simp only [validate, Result.bind_ok, Result.failIf_ok] at h
  obtain ⟨⟨⟩, -, ⟨⟩, hp, -⟩ := h
  exact (validatePublishers_ok hp).2

theorem find?_id_of_mem {publishers : List AllowedPublisher} {p : AllowedPublisher}
    (hnodup : (publishers.map (·.id)).Nodup) (hp : p ∈ publishers) :
    publishers.find? (·.id == p.id) = some p := by
  induction publishers with
  | nil => cases hp
  | cons q rest ih =>
    rw [List.map_cons, List.nodup_cons] at hnodup
    rcases List.mem_cons.mp hp with rfl | hp
    · simp
    · have hne : q.id ≠ p.id := fun heq =>
        hnodup.1 (List.mem_map.mpr ⟨p, hp, heq.symm⟩)
      rw [List.find?_cons_of_neg (by simpa using hne)]
      exact ih hnodup.2 hp

/-- In a valid policy a publisher is found under its id. -/
theorem publisher_of_mem {policy : ArtifactPolicy} {u : Unit} (h : policy.validate = .ok u)
    {p : AllowedPublisher} (hp : p ∈ policy.allowedPublishers) :
    policy.publisher p.id = some p :=
  find?_id_of_mem (validate_publishers h) hp

end ArtifactPolicy

end OpenStrata
