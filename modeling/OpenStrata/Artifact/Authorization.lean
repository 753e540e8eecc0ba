import Mathlib.Data.List.Nodup
import OpenStrata.Artifact.Policy
import OpenStrata.Core.Segments

/-!
# Publisher authorization

A push to a protected destination is authorised by the most specific namespace that contains the
destination. Two namespaces that contain one destination are both prefixes of it, so that they
are told apart by their length; the references of a valid policy resolve, so that the loop over
them never stops at one that does not.

## Main definitions

* `PublisherIdentity.fromGithubOidcClaims`: the identity that the claims of a token present
* `IsLongest`: the most specific of the namespaces that contain a destination
* `ArtifactPolicy.matchPublisher`: the loop over the references of a namespace
* `IdentityMatches`: an identity matches a rule in all its dimensions

## Main results

* `ArtifactPolicy.protectedNamespace_eq_some`: the namespace that is used is the longest
* `ArtifactPolicy.authorizePublisher_sound`: what an authorised push has been checked for
-/

namespace OpenStrata

/-! ## The presented identity -/

def ARTIFACT_POLICY_OIDC_AUDIENCE : String := "openstrata-artifact-publish"

def GITHUB_OIDC_ISSUER : String := "https://token.actions.githubusercontent.com"

def OIDC_CLOCK_SKEW_SECS : Nat := 60

/-- One audience, or several. -/
inductive Audience
  | one (value : String)
  | many (values : List String)
  deriving DecidableEq, Repr

namespace Audience

def fromJson (value : Json) : Option Audience :=
  ((Serde.string value).map one).or ((Serde.list Serde.string value).map many)

def contains (expected : String) : Audience → Bool
  | .one value => value == expected
  | .many values => values.any (· == expected)

end Audience

/-- The claims that are read from a token; others are ignored. -/
structure GithubOidcClaims where
  iss : String
  aud : Audience
  exp : Nat
  nbf : Option Nat
  repository : String
  workflowRef : String
  gitRef : String
  actor : String
  eventName : String
  deriving DecidableEq, Repr

def GithubOidcClaims.fromJson (value : Json) : Option GithubOidcClaims := do
  let fs ← Serde.openFields
    ["iss", "aud", "exp", "nbf", "repository", "workflow_ref", "ref", "actor", "event_name"] value
  return {
    iss := ← Serde.required fs "iss" Serde.string
    aud := ← Serde.required fs "aud" Audience.fromJson
    exp := ← Serde.required fs "exp" Serde.u64
    nbf := ← Serde.optional fs "nbf" Serde.u64
    repository := ← Serde.required fs "repository" Serde.string
    workflowRef := ← Serde.required fs "workflow_ref" Serde.string
    gitRef := ← Serde.required fs "ref" Serde.string
    actor := ← Serde.required fs "actor" Serde.string
    eventName := ← Serde.required fs "event_name" Serde.string }

def identityInvalid (message : String) : Error :=
  .ofCode "ARTIFACT_POLICY_IDENTITY_INVALID" .validation message

/-- `u64::saturating_add`. -/
def saturatingAdd (a b : Nat) : Nat := min (a + b) (2 ^ 64 - 1)

/-- The workflow file of a `repository/path@ref` reference. -/
def workflowPathOf (claims : GithubOidcClaims) : Option String := do
  let value ← Text.stripPrefix (claims.repository ++ "/") claims.workflowRef
  let (path, _) ← Text.rsplitOnce '@' value
  if Text.startsWith ".github/workflows/" path then some path else none

/-- The identity that the decoded claims of a token present, when they are GitHub's, for the
audience of a push, and within their time window. -/
def PublisherIdentity.fromGithubOidcClaims (claims : GithubOidcClaims) (now : Nat) :
    Result PublisherIdentity := do
  Result.failIf (claims.iss ≠ GITHUB_OIDC_ISSUER)
    (identityInvalid ("GitHub OIDC issuer '" ++ claims.iss ++ "' is not trusted"))
  Result.failIf (¬ claims.aud.contains ARTIFACT_POLICY_OIDC_AUDIENCE)
    (identityInvalid ("GitHub OIDC audience does not include '" ++
      ARTIFACT_POLICY_OIDC_AUDIENCE ++ "'"))
  Result.failIf (saturatingAdd claims.exp OIDC_CLOCK_SKEW_SECS < now)
    (identityInvalid "GitHub OIDC token has expired")
  Result.failIf (claims.nbf.any fun notBefore =>
      saturatingAdd now OIDC_CLOCK_SKEW_SECS < notBefore)
    (identityInvalid "GitHub OIDC token is not valid yet")
  let workflow ← Result.okOr (identityInvalid ("GitHub OIDC workflow_ref '" ++
    claims.workflowRef ++ "' does not belong to repository '" ++ claims.repository ++ "'"))
    (workflowPathOf claims)
  return {
    repository := claims.repository
    workflowPath := workflow
    gitRef := claims.gitRef
    actor := claims.actor
    event := claims.eventName }

/-! ## Identities and rules -/

/-- An identity matches a rule in all its dimensions. -/
structure IdentityMatches (p : AllowedPublisher) (identity : PublisherIdentity) : Prop where
  repository : identity.repository = p.repository
  workflowPath : identity.workflowPath = p.workflowPath
  gitRef : identity.gitRef ∈ p.gitRefs ∨
    ∃ stem rest, stem ++ "*" ∈ p.gitRefs ∧ identity.gitRef = stem ++ rest
  actor : identity.actor ∈ p.actors
  event : identity.event ∈ p.events

section Matches

variable {p : AllowedPublisher} {identity : PublisherIdentity} {pattern value : String}

theorem refMatches_cases (h : refMatches pattern value) :
    value = pattern ∨ ∃ stem rest, pattern = stem ++ "*" ∧ value = stem ++ rest := by
  unfold refMatches at h
  split at h
  · next stem hstem =>
    obtain ⟨rest, hrest⟩ := Text.startsWith_iff.mp h
    exact .inr ⟨stem, rest, Text.stripSuffix_eq_some.mp hstem, hrest⟩
  · exact .inl (by simpa using h)

theorem identityMatches_of_matches (h : p.matches identity) : IdentityMatches p identity := by
  simp only [AllowedPublisher.matches, Bool.and_eq_true, beq_iff_eq, List.any_eq_true] at h
  obtain ⟨⟨⟨⟨hrepository, hworkflow⟩, pattern, hpattern, href⟩, actor, hactor, rfl⟩,
    event, hevent, rfl⟩ := h
  refine ⟨hrepository.symm, hworkflow.symm, ?_, hactor, hevent⟩
  rcases refMatches_cases href with hvalue | ⟨stem, rest, rfl, hvalue⟩
  · exact .inl (hvalue ▸ hpattern)
  · exact .inr ⟨stem, rest, hpattern, hvalue⟩

end Matches

/-! ## The most specific namespace -/

/-- The most specific of the namespaces that contain a destination: any other is shorter. -/
structure IsLongest (policy : ArtifactPolicy) (destination : String) (ns : ProtectedNamespace) :
    Prop where
  mem : ns ∈ policy.protectedNamespaces
  contains : namespaceContains ns.namespaceName destination
  longest : ∀ other ∈ policy.protectedNamespaces,
    namespaceContains other.namespaceName destination → other ≠ ns →
      other.namespaceName.length < ns.namespaceName.length

section Longest

variable {policy : ArtifactPolicy} {destination name other : String}
  {namespaces : List ProtectedNamespace} {ns best : ProtectedNamespace}

/-- A namespace that contains a destination is a prefix of it. -/
theorem prefix_of_namespaceContains (h : namespaceContains name destination) :
    name.toList <+: destination.toList := by
  simp only [namespaceContains, Bool.or_eq_true, beq_iff_eq, Option.any_eq_true] at h
  rcases h with rfl | ⟨rest, hrest, -⟩
  · exact List.prefix_rfl
  · rw [Text.stripPrefix_eq_some.mp hrest, String.toList_append]
    exact List.prefix_append _ _

/-- Of the namespaces that contain a destination, no two have one length. -/
theorem eq_of_namespaceContains (h : namespaceContains name destination)
    (h' : namespaceContains other destination) (hlength : name.length = other.length) :
    name = other := by
  rw [← String.toList_inj]
  refine (List.prefix_of_prefix_length_le (prefix_of_namespaceContains h)
    (prefix_of_namespaceContains h') ?_).eq_of_length ?_
  · simp [String.length_toList, hlength]
  · simp [String.length_toList, hlength]

/-- One step of the search for the longest namespace, which prefers the later of two. -/
def preferLonger (best : Option ProtectedNamespace) (p : ProtectedNamespace) :
    Option ProtectedNamespace :=
  match best with
  | none => some p
  | some b => if b.namespaceName.length ≤ p.namespaceName.length then some p else some b

theorem foldl_preferLonger_some (l : List ProtectedNamespace) (b : ProtectedNamespace) :
    ∃ best, l.foldl preferLonger (some b) = some best ∧ (best = b ∨ best ∈ l) ∧
      b.namespaceName.length ≤ best.namespaceName.length ∧
      ∀ p ∈ l, p.namespaceName.length ≤ best.namespaceName.length := by
  induction l generalizing b with
  | nil => exact ⟨b, rfl, .inl rfl, le_rfl, by simp⟩
  | cons p l ih =>
    by_cases hlonger : b.namespaceName.length ≤ p.namespaceName.length
    · obtain ⟨best, hbest, hmem, hle, hall⟩ := ih p
      refine ⟨best, ?_, .inr ?_, hlonger.trans hle, ?_⟩
      · simpa [preferLonger, hlonger] using hbest
      · rcases hmem with rfl | hmem
        · exact List.mem_cons_self
        · exact List.mem_cons_of_mem _ hmem
      · intro q hq
        rcases List.mem_cons.mp hq with rfl | hq
        · exact hle
        · exact hall q hq
    · obtain ⟨best, hbest, hmem, hle, hall⟩ := ih b
      refine ⟨best, ?_, hmem.imp_right (List.mem_cons_of_mem _), hle, ?_⟩
      · simpa [preferLonger, hlonger] using hbest
      · intro q hq
        rcases List.mem_cons.mp hq with rfl | hq
        · omega
        · exact hall q hq

theorem foldl_preferLonger_none (h : namespaces.foldl preferLonger none = some best) :
    best ∈ namespaces ∧ ∀ p ∈ namespaces, p.namespaceName.length ≤ best.namespaceName.length := by
  cases namespaces with
  | nil => cases h
  | cons b l =>
    obtain ⟨best', hbest, hmem, hle, hall⟩ := foldl_preferLonger_some l b
    obtain rfl : best' = best := Option.some.inj (hbest.symm.trans h)
    refine ⟨?_, ?_⟩
    · rcases hmem with rfl | hmem
      · exact List.mem_cons_self
      · exact List.mem_cons_of_mem _ hmem
    · intro q hq
      rcases List.mem_cons.mp hq with rfl | hq
      · exact hle
      · exact hall q hq

end Longest

namespace ArtifactPolicy

/-! ## What validation establishes -/

section Validated

variable {policy : ArtifactPolicy} {seen : List String} {namespaces : List ProtectedNamespace}
  {u : Unit}

theorem validateNamespaces_ok (h : policy.validateNamespaces seen namespaces = .ok u) :
    (∀ ns ∈ namespaces, ns.namespaceName ∉ seen) ∧
      (namespaces.map (·.namespaceName)).Nodup ∧
      ∀ ns ∈ namespaces, ∀ id ∈ ns.allowedPublishers, policy.validateReference ns id = .ok () := by
  induction namespaces generalizing seen with
  | nil => simp
  | cons ns rest ih =>
    simp only [validateNamespaces, Result.bind_ok, Result.failIf_ok, Result.forAll_ok] at h
    obtain ⟨⟨⟩, -, ⟨⟩, hseen, ⟨⟩, hreferences, hrest⟩ := h
    obtain ⟨hnot, hnodup, hall⟩ := ih hrest
    refine ⟨?_, ?_, ?_⟩
    · intro q hq
      rcases List.mem_cons.mp hq with rfl | hq
      · exact hseen
      · exact fun hmem => hnot q hq (List.mem_cons_of_mem _ hmem)
    · rw [List.map_cons, List.nodup_cons]
      refine ⟨fun hmem => ?_, hnodup⟩
      obtain ⟨q, hq, heq⟩ := List.mem_map.mp hmem
      exact hnot q hq (heq ▸ List.mem_cons_self)
    · intro q hq
      rcases List.mem_cons.mp hq with rfl | hq
      · exact hreferences
      · exact hall q hq

theorem validate_namespaces (h : policy.validate = .ok u) :
    (policy.protectedNamespaces.map (·.namespaceName)).Nodup ∧
      ∀ ns ∈ policy.protectedNamespaces, ∀ id ∈ ns.allowedPublishers,
        policy.validateReference ns id = .ok () := by
  simp only [validate, Result.bind_ok, Result.failIf_ok] at h
  obtain ⟨⟨⟩, -, ⟨⟩, -, hnamespaces⟩ := h
  exact (validateNamespaces_ok hnamespaces).2

/-- A reference of a valid policy names a publisher of at least the namespace's trust. -/
theorem publisher_of_reference (h : policy.validate = .ok u) {ns : ProtectedNamespace}
    (hns : ns ∈ policy.protectedNamespaces) {id : String} (hid : id ∈ ns.allowedPublishers) :
    ∃ p, policy.publisher id = some p ∧ p ∈ policy.allowedPublishers ∧ p.id = id ∧
      ns.minimumTrust ≤ p.trust := by
  obtain ⟨p, hp, htrust⟩ := Result.bind_ok.mp ((validate_namespaces h).2 ns hns id hid)
  have hfind := Result.okOr_ok.mp hp
  refine ⟨p, hfind, List.mem_of_find?_eq_some hfind, by simpa using List.find?_some hfind, ?_⟩
  rw [Result.failIf_ok, not_lt] at htrust
  exact htrust

end Validated

/-! ## Authorization -/

section Authorize

variable {policy : ArtifactPolicy} {destination : String} {identity : PublisherIdentity}
  {ns : ProtectedNamespace} {u : Unit}

theorem protectedNamespace_eq_foldl (policy : ArtifactPolicy) (destination : String) :
    policy.protectedNamespace destination =
      (policy.protectedNamespaces.filter fun p =>
        namespaceContains p.namespaceName destination).foldl preferLonger none := rfl

theorem protectedNamespace_eq_none : policy.protectedNamespace destination = none ↔
    ∀ ns ∈ policy.protectedNamespaces, ¬ namespaceContains ns.namespaceName destination := by
  rw [protectedNamespace_eq_foldl, ← List.filter_eq_nil_iff]
  constructor
  · intro h
    cases hfilter : policy.protectedNamespaces.filter fun p =>
        namespaceContains p.namespaceName destination with
    | nil => rfl
    | cons b l =>
      obtain ⟨best, hbest, -⟩ := foldl_preferLonger_some l b
      rw [hfilter] at h
      exact absurd (hbest.symm.trans h) (Option.some_ne_none best)
  · intro h
    rw [h]
    rfl

/-- In a valid policy the namespace that is used is the longest that contains the destination. -/
theorem protectedNamespace_eq_some (h : policy.validate = .ok u) :
    policy.protectedNamespace destination = some ns ↔ IsLongest policy destination ns := by
  have hnodup := (validate_namespaces h).1
  have hlongest {best : ProtectedNamespace} (hbest : policy.protectedNamespace destination =
      some best) : IsLongest policy destination best := by
    rw [protectedNamespace_eq_foldl] at hbest
    obtain ⟨hmem, hall⟩ := foldl_preferLonger_none hbest
    obtain ⟨hmem, hcontains⟩ := List.mem_filter.mp hmem
    refine ⟨hmem, hcontains, fun other hother hin hne => ?_⟩
    refine lt_of_le_of_ne (hall other (List.mem_filter.mpr ⟨hother, hin⟩)) fun hlength => hne ?_
    exact List.inj_on_of_nodup_map hnodup hother hmem
      (eq_of_namespaceContains hin hcontains hlength)
  refine ⟨hlongest, fun hns => ?_⟩
  cases hused : policy.protectedNamespace destination with
  | none => exact absurd hns.contains (protectedNamespace_eq_none.mp hused ns hns.mem)
  | some best =>
    have hbest := hlongest hused
    by_contra hne
    have hdiffer : best ≠ ns := fun heq => hne (congrArg some heq)
    have hshorter := hns.longest best hbest.mem hbest.contains hdiffer
    have hshorter' := hbest.longest ns hns.mem hns.contains hdiffer.symm
    omega

/-- The references of a namespace in order, up to the first publisher that matches; `none` when
one of them names no publisher, which ends the program. -/
def matchPublisher (policy : ArtifactPolicy) (identity : PublisherIdentity) :
    List String → Option (Option AllowedPublisher)
  | [] => some none
  | id :: ids =>
    match policy.publisher id with
    | none => none
    | some p => if p.matches identity then some (some p) else policy.matchPublisher identity ids

theorem matchPublisher_eq {ids : List String} (h : ∀ id ∈ ids, (policy.publisher id).isSome) :
    policy.matchPublisher identity ids =
      some ((ids.filterMap policy.publisher).find? (·.matches identity)) := by
  induction ids with
  | nil => rfl
  | cons id ids ih =>
    obtain ⟨p, hp⟩ := Option.isSome_iff_exists.mp (h id List.mem_cons_self)
    rw [matchPublisher, hp, List.filterMap_cons_some hp,
      ih fun id hid => h id (List.mem_cons_of_mem _ hid)]
    by_cases hmatches : p.matches identity
    · simp [hmatches]
    · simp [hmatches]

/-- A rule authorises a push: it is a rule of the longest namespace, matches the identity in every
dimension, and has the namespace's trust. -/
structure Authorizes (policy : ArtifactPolicy) (destination : String)
    (identity : PublisherIdentity) (ns : ProtectedNamespace) (p : AllowedPublisher) : Prop where
  longest : IsLongest policy destination ns
  listed : p ∈ policy.allowedPublishers
  referenced : p.id ∈ ns.allowedPublishers
  identity : IdentityMatches p identity
  trusted : ns.minimumTrust ≤ p.trust

/-- **Authorization.** Under a valid policy the longest namespace that contains the destination is
used, and it is the only one of its length. A push is authorised for one of its publishers only,
when the identity matches the publisher in repository, workflow, ref, actor and event and the
publisher has the namespace's trust. No publisher is asked for exactly when no namespace contains
the destination, and no reference fails to resolve. -/
theorem authorizePublisher_sound (h : policy.validate = .ok u) (destination : String)
    (identity : PublisherIdentity) :
    (∀ ns, policy.protectedNamespace destination = some ns ↔ IsLongest policy destination ns) ∧
    (∀ authorization, policy.authorizePublisher destination identity = .ok (some authorization) →
      ∃ ns p, policy.Authorizes destination identity ns p ∧
        authorization = ⟨ns.namespaceName, p.id, p.trust⟩) ∧
    (policy.authorizePublisher destination identity = .ok none ↔
      ∀ ns ∈ policy.protectedNamespaces, ¬ namespaceContains ns.namespaceName destination) ∧
    ∀ ns ∈ policy.protectedNamespaces,
      policy.matchPublisher identity ns.allowedPublishers =
        some ((ns.allowedPublishers.filterMap policy.publisher).find? (·.matches identity)) := by
  refine ⟨fun ns => protectedNamespace_eq_some h, ?_, ?_, ?_⟩
  · intro authorization hauthorized
    unfold authorizePublisher at hauthorized
    split at hauthorized
    · cases hauthorized
    · next ns hns =>
      split at hauthorized
      · next p hfind =>
        cases hauthorized
        have hlongest := (protectedNamespace_eq_some h).mp hns
        obtain ⟨id, hid, hp⟩ := List.mem_filterMap.mp (List.mem_of_find?_eq_some hfind)
        obtain ⟨p', hp', hmem, hpid, htrust⟩ := publisher_of_reference h hlongest.mem hid
        obtain rfl : p' = p := Option.some.inj (hp'.symm.trans hp)
        have hmatches : p'.matches identity := by
          have := List.find?_some hfind
          exact this
        exact ⟨ns, p', ⟨hlongest, hmem, hpid ▸ hid, identityMatches_of_matches hmatches, htrust⟩,
          rfl⟩
      · cases hauthorized
  · rw [← protectedNamespace_eq_none]
    unfold authorizePublisher
    split
    · next hnone => simp [hnone]
    · next ns hns =>
      rw [hns]
      split
      · simp
      · simp
  · intro ns hns
    refine matchPublisher_eq fun id hid => ?_
    obtain ⟨p, hp, -⟩ := publisher_of_reference h hns hid
    rw [hp]
    rfl

end Authorize

end ArtifactPolicy

/-! ## A protected namespace of one rule -/

namespace Authorization.Sample

def release : AllowedPublisher where
  id := "release"
  trust := .verified
  repository := "animu/usd"
  workflowPath := ".github/workflows/push.yml"
  gitRefs := ["refs/tags/v*"]
  actors := ["bot"]
  events := ["push"]

def policy : ArtifactPolicy where
  schema := 1
  minimumTrust := .unsigned
  protectedNamespaces := [⟨"ghcr.io/animu", .verified, ["release"]⟩]
  allowedPublishers := [release]

/-- The claims of a token that was issued for a deployment environment. -/
def claims (environment : String) : Json := .obj
  [("iss", .str GITHUB_OIDC_ISSUER), ("aud", .str ARTIFACT_POLICY_OIDC_AUDIENCE),
    ("exp", .int 2000000000), ("nbf", .int 1700000000),
    ("repository", .str "animu/usd"),
    ("workflow_ref", .str "animu/usd/.github/workflows/push.yml@refs/tags/v1"),
    ("ref", .str "refs/tags/v1"), ("actor", .str "bot"),
    ("event_name", .str "push"), ("environment", .str environment)]

def identity : PublisherIdentity where
  repository := "animu/usd"
  workflowPath := ".github/workflows/push.yml"
  gitRef := "refs/tags/v1"
  actor := "bot"
  event := "push"

end Authorization.Sample

open Authorization.Sample in
theorem authorizePublisher_sound_sample : policy.validate = .ok () ∧
    ∃ ns p, policy.Authorizes "ghcr.io/animu/usd" identity ns p := by
  have hvalid : policy.validate = .ok () := by decide
  have hauthorized : policy.authorizePublisher "ghcr.io/animu/usd" identity =
      .ok (some ⟨"ghcr.io/animu", "release", .verified⟩) := by decide
  obtain ⟨-, hsound, -⟩ :=
    ArtifactPolicy.authorizePublisher_sound hvalid "ghcr.io/animu/usd" identity
  obtain ⟨ns, p, hauthorizes, -⟩ := hsound _ hauthorized
  exact ⟨hvalid, ns, p, hauthorizes⟩

open Authorization.Sample in
/-- A rule has no dimension for the environment that a token names: tokens of two environments
present one identity, and both authorise the push. -/
theorem environment_not_matched :
    ((GithubOidcClaims.fromJson (claims "staging")).map fun c =>
      PublisherIdentity.fromGithubOidcClaims c 1800000000) = some (.ok identity) ∧
    ((GithubOidcClaims.fromJson (claims "production")).map fun c =>
      PublisherIdentity.fromGithubOidcClaims c 1800000000) = some (.ok identity) ∧
    policy.authorizePublisher "ghcr.io/animu/usd" identity =
      .ok (some ⟨"ghcr.io/animu", "release", .verified⟩) := by
  decide

end OpenStrata
