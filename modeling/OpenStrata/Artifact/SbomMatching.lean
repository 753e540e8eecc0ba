import OpenStrata.Artifact.Evidence
import OpenStrata.Lib.Matching

/-!
# What an accepted SBOM says

The document of an artifact describes it in the package `SPDXRef-Package`, and has one further
package for each of its dependencies. The check looks for the artifact's digest in any package,
counts the dependency packages and looks for one of each dependency, and does neither for an
artifact without dependencies. An accepted document says what the record says exactly when it
leaves the check no room: no other package lends the subject its digest, no dependency package
stands for several dependencies, and an artifact without dependencies lists none.

## Main definitions

* `SbomFaithful`: the subject has the artifact's digest, and the dependency packages correspond to
  the dependencies
* `SbomUnambiguous`: the document leaves the check no room

## Main results

* `verifySbom_faithful_iff`: an accepted document is faithful exactly when it is unambiguous
-/

namespace OpenStrata

/-- The package that a document describes. -/
def isSubjectPackage (package : Json) : Bool := package.getStr? "SPDXID" == some "SPDXRef-Package"

/-- The described package carries the artifact's digest, and the dependency packages are the
artifact's dependencies, one for one. -/
structure SbomFaithful (document : Json) (artifactDigest : String)
    (dependencies : List ResolvedDependencyIdentity) : Prop where
  subject : ∃ package ∈ itemsOf document "packages",
    isSubjectPackage package ∧ carriesSha256 package (bareDigest artifactDigest)
  dependencies : Matching.Corresponds describesDependency dependencies (dependencyPackages document)

/-- The check's answer has one reading. -/
structure SbomUnambiguous (document : Json) (artifactDigest : String)
    (dependencies : List ResolvedDependencyIdentity) : Prop where
  /-- The digest stands in the described package when it stands in any. -/
  subject : ∀ package ∈ itemsOf document "packages",
    carriesSha256 package (bareDigest artifactDigest) →
      ∃ described ∈ itemsOf document "packages",
        isSubjectPackage described ∧ carriesSha256 described (bareDigest artifactDigest)
  /-- An artifact without dependencies has no dependency packages. -/
  unlisted : dependencies = [] → dependencyPackages document = []
  /-- Any of the dependencies are described by as many packages. -/
  enough : ∀ part : List ResolvedDependencyIdentity, part.Sublist dependencies →
    part.length ≤ ((dependencyPackages document).filter fun package =>
      part.any (describesDependency · package)).length

section Verified

variable {codec : Codec} {dist : Directory} {artifactDigest : String} {content : Bytes}
  {dependencies : List ResolvedDependencyIdentity} {document : Json}

/-- What acceptance establishes, for the document that was read. -/
theorem verifySbom_ok (hread : dist.read SBOM_FILE = .ok content)
    (hparse : codec.parse content = some document)
    (h : verifySbom codec dist artifactDigest dependencies = .ok ()) :
    SbomVerified codec artifactDigest dependencies content document := by
  rw [verifySbom, hread] at h
  obtain ⟨found, hverified⟩ := checkSbom_ok.mp h
  obtain rfl := Option.some.inj (hparse.symm.trans hverified.parsed)
  exact hverified

/-- The dependency packages of an accepted document are as many as the dependencies, when there
are any. -/
theorem SbomVerified.length_eq (h : SbomVerified codec artifactDigest dependencies content document)
    (hne : dependencies ≠ []) : dependencies.length = (dependencyPackages document).length := by
  have hmatch := h.dependencies_match hne
  rw [dependenciesMatch, Bool.and_eq_true, beq_iff_eq] at hmatch
  exact hmatch.1.symm

/-- An accepted document says of the artifact what its record says exactly when it leaves the
check no room. -/
theorem verifySbom_faithful_iff (hread : dist.read SBOM_FILE = .ok content)
    (hparse : codec.parse content = some document)
    (h : verifySbom codec dist artifactDigest dependencies = .ok ()) :
    SbomFaithful document artifactDigest dependencies ↔
      SbomUnambiguous document artifactDigest dependencies := by
  have hverified := verifySbom_ok hread hparse h
  constructor
  · rintro ⟨hsubject, hdependencies⟩
    refine ⟨fun _ _ _ => hsubject, ?_, fun _ => hdependencies.length_le⟩
    rintro rfl
    obtain ⟨packages, hperm, hrelated⟩ := hdependencies
    obtain rfl := List.forall₂_nil_left_iff.mp hrelated
    exact hperm.nil_eq.symm
  · rintro ⟨hsubject, hunlisted, henough⟩
    obtain ⟨package, hpackage, hcarries⟩ := hverified.subject
    refine ⟨hsubject package hpackage hcarries, ?_⟩
    by_cases hne : dependencies = []
    · subst hne
      rw [hunlisted rfl]
      exact ⟨[], List.Perm.refl [], .nil⟩
    · exact (Matching.corresponds_iff (hverified.length_eq hne)).mpr henough

end Verified

namespace Sbom.Sample

/-- A package with this id, version and digest. -/
def package (id version digest : String) : Json :=
  .obj [
    ("SPDXID", .str id),
    ("name", .str "tbb"),
    ("versionInfo", .str version),
    ("downloadLocation", .str "r"),
    ("sourceInfo", .str "revision v"),
    ("checksums", .arr [.obj [("algorithm", .str "SHA256"), ("checksumValue", .str digest)]])]

def document (packages : List Json) : Json :=
  .obj [("spdxVersion", .str "SPDX-2.3"), ("packages", .arr packages)]

/-- The artifact and its dependency. -/
def honest : Json :=
  document [package "SPDXRef-Package" "1" "aa", package "SPDXRef-Dependency-1" "2" "bb"]

/-- A dependency that carries the artifact's digest. -/
def impersonating : Json :=
  document [package "SPDXRef-Package" "1" "cc", package "SPDXRef-Dependency-1" "2" "aa"]

def dependency : ResolvedDependencyIdentity where
  name := "tbb"
  version := "2"
  source := { repository := "r", revision := "v" }
  archiveDigest := some "sha256:bb"

def codec (d : Json) : Codec where
  sha256 _ := []
  parse content := if content = jsonBytes d then some d else none

def dist (d : Json) : Directory := .ofFiles "dist" [(SBOM_FILE, jsonBytes d)]

theorem read_dist (d : Json) : (dist d).read SBOM_FILE = .ok (jsonBytes d) :=
  Directory.read_ok.mpr (by simp [dist, Directory.ofFiles])

theorem parse_codec (d : Json) : (codec d).parse (jsonBytes d) = some d := by
  simp [codec]

theorem verifySbom_dist {d : Json} {artifactDigest : String}
    {dependencies : List ResolvedDependencyIdentity}
    (hversion : d.getStr? "spdxVersion" = some "SPDX-2.3")
    (hsubject : ∃ package ∈ itemsOf d "packages",
      carriesSha256 package (bareDigest artifactDigest))
    (hmatch : dependencies ≠ [] → dependenciesMatch d dependencies) :
    verifySbom (codec d) (dist d) artifactDigest dependencies = .ok () := by
  rw [verifySbom, read_dist]
  exact checkSbom_ok.mpr ⟨d, parse_codec d, hversion, hsubject, hmatch⟩

end Sbom.Sample

open Sbom.Sample in
theorem verifySbom_faithful_sample : SbomFaithful honest "sha256:aa" [dependency] := by
  have hok : verifySbom (codec honest) (dist honest) "sha256:aa" [dependency] = .ok () :=
    verifySbom_dist (by decide) (by decide) fun _ => by decide
  refine (verifySbom_faithful_iff (read_dist honest) (parse_codec honest) hok).mpr
    ⟨by decide, by simp, fun part hpart => ?_⟩
  rcases List.sublist_singleton.mp hpart with rfl | rfl <;> decide

open Sbom.Sample in
/-- An SBOM is accepted whose described package has another digest, and which lists a dependency
that the artifact does not have. -/
theorem impersonating_accepted :
    verifySbom (codec impersonating) (dist impersonating) "sha256:aa" [] = .ok () ∧
      ¬ SbomFaithful impersonating "sha256:aa" [] := by
  constructor
  · exact verifySbom_dist (by decide) (by decide) nofun
  · rintro ⟨⟨package, hpackage, hsubject, hcarries⟩, -⟩
    revert package
    decide

end OpenStrata
