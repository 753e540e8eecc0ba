import OpenStrata.Transport.Verify

/-!
# Trust of a verified pull

A pull may ask for more assurance than a mere import gives. The chain then has to find it in
subject-bound evidence: a verified SBOM, a verified provenance statement, and an allowed
publisher that the statement's builder matches. Here that argument is made: whatever a passed
chain reports, the sidecars of the directory back it.

## Main definitions

* `Floor`: a trust level the caller or the policy asks for
* `SbomPresent`, `ProvenancePresent`: a sidecar that is there and verified
* `TrustSound`: what backs the trust a chain reports

## Main results

* `effectiveTrust_above_attested`: more than attestation needs an SBOM and a publisher
* `verifyDist_trust`: a passed chain is backed
-/

namespace OpenStrata

/-- A trust level that the caller or the artifact policy asks for. -/
def Floor (policy : PullPolicy) (level : TrustLevel) : Prop :=
  policy.minimumTrust = some level ∨
    ∃ artifactPolicy, policy.artifactPolicy = some artifactPolicy ∧
      artifactPolicy.minimumTrust = level

/-- The directory carries an SBOM about the artifact and its dependencies. -/
def SbomPresent (codec : Codec) (dist : Directory) (record : ArtifactRecord) : Prop :=
  ∃ content document, dist.read SBOM_FILE = .ok content ∧
    SbomVerified codec record.digest record.dependencyIdentities content document

/-- The directory carries a provenance statement about the artifact and its source. -/
def ProvenancePresent (codec : Codec) (dist : Directory) (fetched : FetchedManifest)
    (statement : Json) : Prop :=
  ∃ content, dist.read PROVENANCE_FILE = .ok content ∧
    ProvenanceVerified codec fetched.manifest fetched.record.digest content statement

/-- What backs the trust that a chain reports about a directory. -/
structure TrustSound (codec : Codec) (dist : Directory) (policy : PullPolicy)
    (fetched : FetchedManifest) (outcome : ChainOutcome) : Prop where
  floors : ∀ level, Floor policy level → level ≤ outcome.requiredTrust
  effective : outcome.requiredTrust ≤ outcome.effectiveTrust
  above_attested : TrustLevel.attested < outcome.requiredTrust →
    SbomPresent codec dist fetched.record ∧
    ∃ statement, ProvenancePresent codec dist fetched statement ∧
      ∃ artifactPolicy, policy.artifactPolicy = some artifactPolicy ∧
      ∃ identity, builderIdentity statement = .ok identity ∧
      ∃ publisher ∈ artifactPolicy.allowedPublishers,
        publisher.matches identity ∧ outcome.requiredTrust ≤ publisher.trust
  sbom : policy.requireSbom → SbomPresent codec dist fetched.record
  provenance : policy.requireProvenance → ∃ statement,
    ProvenancePresent codec dist fetched statement

section Steps

variable {codec : Codec} {dist : Directory} {policy : PullPolicy} {fetched : FetchedManifest}
  {record : ArtifactRecord} {sbom provenance : Option EvidenceDigest}
  {publisher : Option String} {step : String × String}

theorem le_requiredTrust {level : TrustLevel} (h : Floor policy level) :
    level ≤ requiredTrust policy := by
  unfold requiredTrust
  rcases h with hmin | ⟨artifactPolicy, hpolicy, rfl⟩
  · rw [hmin]
    exact le_max_left _ _
  · rw [hpolicy]
    exact le_max_right _ _

/-- The SBOM step verifies the sidecar it reports, and insists on one when it is required. -/
theorem verifySbomStep_ok (h : verifySbomStep codec dist policy record = .ok (sbom, step)) :
    (sbom.isSome → SbomPresent codec dist record) ∧ (policy.requireSbom → sbom.isSome) := by
  unfold verifySbomStep at h
  obtain ⟨found, hfound, h⟩ := Result.bind_ok.mp h
  cases found with
  | some evidence =>
    simp only [Result.bind_ok, verifySbom] at h
    obtain ⟨⟨⟩, -, ⟨⟩, ⟨content, hcontent, hcheck⟩, hresult⟩ := h
    cases hresult
    obtain ⟨document, hdocument⟩ := checkSbom_ok.mp hcheck
    exact ⟨fun _ => ⟨content, document, hcontent, hdocument⟩, fun _ => rfl⟩
  | none =>
    simp only [Result.bind_ok, Result.failIf_ok] at h
    obtain ⟨⟨⟩, hnot, hresult⟩ := h
    cases hresult
    exact ⟨fun h => (by cases h), fun hrequire => absurd hrequire hnot⟩

/-- The provenance step verifies the sidecar it reports and the publisher it matches, and
insists on a sidecar when it is required. -/
theorem verifyProvenanceStep_ok
    (h : verifyProvenanceStep codec dist policy fetched = .ok (provenance, publisher, step)) :
    (provenance.isSome → ∃ statement, ProvenancePresent codec dist fetched statement ∧
      matchPublisher (publisherPolicy policy) statement = .ok publisher) ∧
    (provenance = none → publisher = none) ∧
    (policy.requireProvenance → provenance.isSome) := by
  unfold verifyProvenanceStep at h
  obtain ⟨found, hfound, h⟩ := Result.bind_ok.mp h
  cases found with
  | some evidence =>
    simp only [Result.bind_ok, verifyProvenance] at h
    obtain ⟨⟨⟩, -, matched, ⟨content, hcontent, ⟨⟩, -, hcheck⟩, hresult⟩ := h
    cases hresult
    obtain ⟨statement, hstatement, hmatch⟩ := checkProvenance_ok hcheck
    exact ⟨fun _ => ⟨statement, ⟨content, hcontent, hstatement⟩, hmatch⟩,
      fun h => (by cases h), fun _ => rfl⟩
  | none =>
    simp only [Result.bind_ok, Result.failIf_ok] at h
    obtain ⟨⟨⟩, hnot, hresult⟩ := h
    cases hresult
    exact ⟨fun h => (by cases h), fun _ => rfl, fun hrequire => absurd hrequire hnot⟩

/-- More than attestation is only derived from an SBOM and a matched publisher of the policy
whose own trust accounts for it. -/
theorem effectiveTrust_above_attested {level : TrustLevel} (hrecord : record.trust = .localOnly)
    (habove : TrustLevel.attested < level)
    (hle : level ≤ effectiveTrust policy record sbom provenance publisher) :
    sbom.isSome ∧ ∃ id p, publisher = some id ∧
      (publisherPolicy policy).bind (·.publisher id) = some p ∧ level ≤ p.trust := by
  have hbelow : ∀ low, low ≤ TrustLevel.attested → ¬ level ≤ low := by
    intro low hlow hlevel
    exact absurd habove (not_lt.mpr (hlevel.trans hlow))
  unfold effectiveTrust at hle
  cases publisher with
  | none =>
    -- without a publisher nothing exceeds attestation
    exfalso
    cases provenance with
    | some evidence => exact hbelow .attested le_rfl hle
    | none =>
      rw [hrecord] at hle
      exact hbelow .localOnly (by decide) hle
  | some id =>
    by_cases hsbom : sbom.isSome
    · simp only [hsbom, if_true] at hle
      refine ⟨hsbom, id, ?_⟩
      cases hp : (publisherPolicy policy).bind (·.publisher id) with
      | none =>
        rw [hp] at hle
        exact absurd hle (hbelow .attested le_rfl)
      | some p =>
        rw [hp] at hle
        rcases le_max_iff.mp hle with hlow | hlevel
        · exact absurd hlow (hbelow .attested le_rfl)
        · exact ⟨p, rfl, rfl, hlevel⟩
    · simp only [hsbom] at hle
      exact absurd hle (hbelow .attested le_rfl)

/-- In a valid policy the publisher of a matched id is the one that was matched. -/
theorem matched_publisher {statement : Json} {id : String} {p : AllowedPublisher}
    (hvalid : ∀ q, policy.artifactPolicy = some q → q.validate = .ok ())
    (hmatch : matchPublisher (publisherPolicy policy) statement = .ok (some id))
    (hp : (publisherPolicy policy).bind (·.publisher id) = some p) :
    ∃ artifactPolicy, policy.artifactPolicy = some artifactPolicy ∧
      ∃ identity, builderIdentity statement = .ok identity ∧
        p ∈ artifactPolicy.allowedPublishers ∧ p.matches identity := by
  cases hpolicy : publisherPolicy policy with
  | none =>
    rw [hpolicy] at hp
    cases hp
  | some artifactPolicy =>
    rw [hpolicy] at hmatch hp
    have hsource : policy.artifactPolicy = some artifactPolicy :=
      (Option.filter_eq_some_iff.mp hpolicy).1
    obtain ⟨identity, hidentity, q, hq, hmatches, hid⟩ := matchPublisher_ok hmatch
    have hfound : artifactPolicy.publisher id = some q := by
      rw [Option.some.inj hid]
      exact ArtifactPolicy.publisher_of_mem (hvalid _ hsource) hq
    obtain rfl : q = p := Option.some.inj (hfound.symm.trans hp)
    exact ⟨artifactPolicy, hsource, identity, hidentity, hq, hmatches⟩

end Steps

/-- The trust a passed chain reports is at least every floor, and what lies above attestation
is backed by a verified SBOM, a verified provenance statement and an allowed publisher. The
policy is one that `ArtifactPolicy::load` returned, which has validated it. -/
theorem verifyDist_trust {codec : Codec} {untar : TarReader} {path : DistPath}
    {policy : PullPolicy} {selector : Option String} {outcome : ChainOutcome}
    (hvalid : ∀ p, policy.artifactPolicy = some p → p.validate = .ok ())
    (h : verifyDist codec untar path policy selector = .ok outcome) :
    ∃ dist fetched, locateManifest path = .ok dist ∧
      readFetchedManifest codec dist = .ok fetched ∧
      TrustSound codec dist policy fetched outcome := by
  obtain ⟨dist, fetched, sbom, sbomStep, provenance, provenanceStep, trustStep, hdist, hfetched,
    -, hsbom, hprovenance, heffective, hrequired, htrust⟩ := verifyDist_ok h
  obtain ⟨hsbomPresent, hsbomRequired⟩ := verifySbomStep_ok hsbom
  obtain ⟨hpresent, habsent, hprovenanceRequired⟩ := verifyProvenanceStep_ok hprovenance
  obtain ⟨-, -, -, hderived⟩ := readFetchedManifest_ok hfetched
  have hle : outcome.requiredTrust ≤ outcome.effectiveTrust := by
    simp only [verifyTrustStep, Result.bind_ok, Result.failIf_ok, not_lt] at htrust
    obtain ⟨-, hle, -⟩ := htrust
    rwa [hrequired]
  refine ⟨dist, fetched, hdist, hfetched, ?_⟩
  refine {
    floors := fun level hfloor => hrequired ▸ le_requiredTrust hfloor
    effective := hle
    above_attested := ?_
    sbom := fun hrequire => hsbomPresent (hsbomRequired hrequire)
    provenance := fun hrequire => ?_ }
  · intro habove
    rw [heffective] at hle
    obtain ⟨hsome, id, p, hpublisher, hp, htrust⟩ := effectiveTrust_above_attested
      (ArtifactRecord.fromProducerManifest_trust hderived) habove hle
    have hprov : provenance.isSome := by
      cases provenance with
      | some evidence => rfl
      | none => rw [habsent rfl] at hpublisher; cases hpublisher
    obtain ⟨statement, hstatement, hmatch⟩ := hpresent hprov
    rw [hpublisher] at hmatch
    obtain ⟨artifactPolicy, hpolicy, identity, hidentity, hmem, hmatches⟩ :=
      matched_publisher hvalid hmatch hp
    exact ⟨hsbomPresent hsome, statement, hstatement, artifactPolicy, hpolicy, identity,
      hidentity, p, hmem, hmatches, htrust⟩
  · obtain ⟨statement, hstatement, -⟩ := hpresent (hprovenanceRequired hrequire)
    exact ⟨statement, hstatement⟩

/-! ## A backed pull

A package with an SBOM and a provenance statement, pulled under a policy that asks for a
verified publisher. -/

namespace Transport.Sample

/-- The compressed empty tar archive. -/
def archive : Bytes := [0x28, 0xB5, 0x2F, 0xFD, 0x60, 0x00, 0x03, 0x03, 0x20, 0x00, 0x00]

def archiveHex : String := "6672c9865e33b6d95529d26430d23b9ed2f3949e0d4c7124c02c6d05f2303b9e"

def source : Json := .obj [("repository", .str "acme/demo"), ("revision", .str "9f1c2a")]

def manifest : Json := .obj [
  ("archive", .str "demo-1.0.0.tar.zst"), ("archive_digest", .str ("sha256:" ++ archiveHex)),
  ("archive_size", .int 11), ("build", .obj [("source", source)]), ("files", .arr []),
  ("name", .str "demo"), ("target", .str "linux-x86_64"), ("total_size", .int 0),
  ("version", .str "1.0.0")]

def sbom : Json := .obj [
  ("packages", .arr [.obj [("checksums", .arr [.obj [
    ("algorithm", .str "SHA256"), ("checksumValue", .str archiveHex)]])]]),
  ("spdxVersion", .str "SPDX-2.3")]

def statement : Json := .obj [
  ("predicate", .obj [
    ("buildDefinition", .obj [("externalParameters", .obj [("source", source)])]),
    ("runDetails", .obj [("builder", .obj [("identity", .obj [
      ("actor", .str "bot"), ("event", .str "push"), ("git_ref", .str "refs/tags/v1"),
      ("repository", .str "acme/demo"),
      ("workflow_path", .str ".github/workflows/release.yml")])])])]),
  ("subject", .arr [.obj [("digest", .obj [("sha256", .str archiveHex)])]])]

/-- SHA-256 and the JSON parser on the files of the directory, told apart by their length. -/
def codec : Codec where
  sha256 bytes := bytesOfHex <| String.toList <|
    if bytes.length = 11 then archiveHex
    else if bytes.length = 289 then
      "0b44957e9d3d55f7a7e447ed81273e1534b6b5109a8db2115fc74907cda4fefa"
    else if bytes.length = 161 then
      "361847ebbbf45059a3948cb36787246c137da4557aad02381a50ae2f24f51b30"
    else "2d23b456d4ff3f68f815fd173fc02433dc3ffff912c5637f65afb1986f0fe31e"
  parse bytes := [(289, manifest), (161, sbom), (382, statement)].lookup bytes.length

def untar : TarReader := fun bytes => if bytes = archive then some [] else none

def dist : Directory := .ofFiles "dist" [(MANIFEST_FILE, jsonBytes manifest),
  ("demo-1.0.0.tar.zst", archive), (SBOM_FILE, jsonBytes sbom),
  (PROVENANCE_FILE, jsonBytes statement)]

def publisher : AllowedPublisher where
  id := "release"
  trust := .verified
  repository := "acme/demo"
  workflowPath := ".github/workflows/release.yml"
  gitRefs := ["refs/tags/*"]
  actors := ["bot"]
  events := ["push"]

def policy : PullPolicy where
  expectedArtifactDigest := none
  requireKind := some .package
  requireTarget := some "linux-x86_64"
  requireOpenusd := none
  requireOpenusdVersion := none
  requireSbom := true
  requireProvenance := true
  minimumTrust := some .attested
  artifactPolicy := some {
    schema := 1
    minimumTrust := .verified
    protectedNamespaces := []
    allowedPublishers := [publisher] }

theorem verified :
    (verifyDist codec untar (.directory dist) policy none).toOption.map
      (·.effectiveTrust) = some .verified := by
  decide +kernel

end Transport.Sample

open Transport in
theorem verifyDist_trust_sample :
    ∃ outcome, verifyDist Sample.codec Sample.untar (.directory Sample.dist) Sample.policy none =
        .ok outcome ∧
      ∃ dist fetched, locateManifest (.directory Sample.dist) = .ok dist ∧
        readFetchedManifest Sample.codec dist = .ok fetched ∧
        TrustSound Sample.codec dist Sample.policy fetched outcome := by
  have hverified := Sample.verified
  cases h : verifyDist Sample.codec Sample.untar (.directory Sample.dist) Sample.policy none with
  | error e =>
    rw [h] at hverified
    cases hverified
  | ok outcome =>
    refine ⟨outcome, rfl, verifyDist_trust ?_ h⟩
    intro p hp
    obtain rfl := Option.some.inj hp
    decide

end OpenStrata
