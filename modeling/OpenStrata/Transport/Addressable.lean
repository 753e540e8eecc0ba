import OpenStrata.Core.Parts
import OpenStrata.Transport.Verify

/-!
# Selectors of imported runtimes

A record derived from a producer manifest with an OpenUSD section has a selector when the checks of
the import imply the selector's own preconditions. They do, but for the version: the selector of
the current schema is refused when the artifact's version is not the one the section states, and
the import does not compare the two. A blank version is admitted as well.

## Main definitions

* `ResolvedOpenUsdCompatibility.hashedIdentity`: what the digest in a selector covers
* `Addressable`: a record has a selector that encodes the version its section states

## Main results

* `addressable_iff`: when the record of an accepted manifest is addressable
* `misversioned_not_addressable`: an accepted manifest whose record has no selector
-/

namespace OpenStrata

/-! ## Verified identities

The reasons against an identity and the test for a verified one look at the same conditions. -/

section Verified

variable {c : ResolvedOpenUsdCompatibility} {p : ResolvedOpenUsdProvider} {label : String}

theorem provider_isVerified (h : providerVerificationFailure label p = none) :
    p.isVerified = true := by
  unfold providerVerificationFailure at h
  unfold ResolvedOpenUsdProvider.isVerified
  simp only at h
  split_ifs at h with hfamily hprovider hconstraint
  split at h
  · cases h
  · next version hversion =>
    split_ifs at h with hsatisfies
    simp [hfamily, hprovider, hconstraint, hversion, hsatisfies]

namespace ResolvedOpenUsdCompatibility

theorem providersAreVerified_of_failure (h : c.providersVerificationFailure = none) :
    c.providersAreVerified = true := by
  unfold providersVerificationFailure at h
  split_ifs at h with hplatform hstandard
  simp only [Option.or_eq_none_iff] at h
  obtain ⟨⟨⟨htoolchain, hruntime⟩, hpython⟩, htbb⟩ := h
  have htoolchain := provider_isVerified htoolchain
  simp only [ResolvedOpenUsdProvider.isVerified, Bool.and_eq_true] at htoolchain
  obtain ⟨⟨⟨hfamily, hprovider⟩, hconstraint⟩, hversion⟩ := htoolchain
  simp [providersAreVerified, hplatform, hstandard, hfamily, hprovider, hconstraint, hversion,
    provider_isVerified hruntime, provider_isVerified hpython, provider_isVerified htbb]

/-- A value that is not always blank is there and is not blank. -/
theorem any_of_not_all {value : Option String}
    (h : ¬ (value.all fun text => (Text.trim text).isEmpty) = true) :
    (value.any fun text => !(Text.trim text).isEmpty) = true := by
  cases value with
  | none => exact absurd rfl h
  | some text => simpa using h

theorem isVerified_of_failure (h : c.verificationFailure = none) : c.isVerified = true := by
  unfold verificationFailure at h
  split_ifs at h with hprofile hproducer hconsumer hvariant
  obtain ⟨hproviders, hmacos⟩ := Option.or_eq_none_iff.mp h
  have hverified := providersAreVerified_of_failure hproviders
  have hplatform : (Text.trim c.platform).isEmpty = false := by
    simp only [providersAreVerified, Bool.and_eq_true, Bool.not_eq_true'] at hverified
    exact hverified.1.1.1.1.1.1.1.1
  have hprofile : c.profile = some "usd" := not_not.mp hprofile
  have hcanonical : (c.variant.canonical c.capabilities).isSome = true :=
    Option.isSome_iff_ne_none.mpr fun h => hvariant (by rw [h, Option.isNone_none])
  simp only [isVerified, hplatform, hprofile, any_of_not_all hproducer, any_of_not_all hconsumer,
    hcanonical, hverified, Bool.not_false, Bool.true_and, beq_self_eq_true]
  -- the block that a macOS cell carries, and no other
  unfold macosVerificationFailure at hmacos
  cases hm : c.macos with
  | none => cases hos : c.os <;> simp_all
  | some macos =>
    cases hos : c.os with
    | macos =>
      rw [hm, hos] at hmacos
      obtain ⟨hsdk, htarget⟩ := Option.or_eq_none_iff.mp hmacos
      split_ifs at htarget with hblank
      simp [provider_isVerified hsdk, hblank]
    | linux => simp [hm, hos] at hmacos
    | windows => simp [hm, hos] at hmacos

/-! ## What a selector is made of -/

/-- What the digest in a selector covers. -/
def hashedIdentity (c : ResolvedOpenUsdCompatibility) (artifactTarget openusdVersion : String)
    (source : Option ResolvedSourceIdentity)
    (dependencies : List ResolvedDependencyIdentity) : Json :=
  if c.schema = 1 then
    .obj [("schema", .int c.schema), ("platform", .str c.platform),
      ("os", .str c.os.asStr), ("arch", .str c.arch.asStr),
      ("artifact_target", .str artifactTarget), ("openusd_version", .str openusdVersion),
      ("source", (source.map ResolvedSourceIdentity.toJson).getD .null),
      ("dependencies", sortedDependencies dependencies), ("toolchain", c.toolchain.toJson),
      ("python", c.python.toJson), ("tbb", c.tbb.toJson), ("variant", .str c.variant.asStr),
      ("capabilities", .arr (c.sortedCapabilities.map .str))]
  else
    .obj [("schema", .int c.schema), ("platform", .str c.platform),
      ("os", .str c.os.asStr), ("arch", .str c.arch.asStr),
      ("artifact_target", .str artifactTarget), ("profile", .str (c.profile.getD "")),
      ("producer_openusd_version", .str openusdVersion),
      ("consumer_openusd_constraint", .str (c.consumerOpenusdConstraint.getD "")),
      ("source", (source.map ResolvedSourceIdentity.toJson).getD .null),
      ("dependencies", sortedDependencies dependencies), ("toolchain", c.toolchain.toJson),
      ("python", c.python.toJson), ("tbb", c.tbb.toJson),
      ("variant", .str ((c.variant.canonical c.capabilities).getD c.variant).asStr),
      ("macos", (c.macos.map ResolvedOpenUsdMacos.toJson).getD .null),
      ("capabilities", .arr (c.sortedCapabilities.map .str))]

/-- The OpenUSD version among what a digest covers. -/
def hashedVersion (identity : Json) : Option String :=
  (identity.getStr? "openusd_version").or (identity.getStr? "producer_openusd_version")

variable {codec : Codec} {target version : String} {source : Option ResolvedSourceIdentity}
  {dependencies : List ResolvedDependencyIdentity}

theorem hashedVersion_hashedIdentity :
    hashedVersion (c.hashedIdentity target version source dependencies) = some version := by
  unfold hashedIdentity
  split <;> rfl

/-- The selector of an identity encodes a version: its digest covers that version. -/
def Encodes (codec : Codec) (identity : Json) (selector : String) : Prop :=
  ∃ head, selector = head ++ "-" ++ selectorHash codec identity

/-- A selector of the current schema exists when the version is the one the identity states, and
one of schema 1 when the version is not blank. -/
theorem selector_iff (hinputs : source.all ResolvedSourceIdentity.isVerified)
    (hdependencies : dependencies.all ResolvedDependencyIdentity.isVerified)
    (htarget : (Text.trim target).isEmpty = false)
    (hverified : if c.schema = 1 then c.providersAreVerified else c.isVerified) :
    (∃ selector, c.selector codec target version source dependencies = some selector ∧
      Encodes codec (c.hashedIdentity target version source dependencies) selector) ↔
      (Text.trim version).isEmpty = false ∧
        (c.schema ≠ 1 → c.producerOpenusdVersion = some version) := by
  have hselected : selectorInputsVerified target version source dependencies =
      !(Text.trim version).isEmpty := by
    simp [selectorInputsVerified, htarget, hinputs, hdependencies]
  unfold selector
  by_cases hschema : c.schema = 1
  · rw [if_pos hschema] at hverified ⊢
    simp only [legacySelector, hverified, hselected, hschema, not_true_eq_false, false_or,
      ne_eq, IsEmpty.forall_iff, and_true]
    cases hblank : (Text.trim version).isEmpty with
    | true => simp
    | false =>
      simp only [Bool.not_false, not_true_eq_false, if_false, iff_true]
      refine ⟨_, rfl, c.readable c.variant, ?_⟩
      rw [hashedIdentity, if_pos hschema, hschema]
  · rw [if_neg hschema] at hverified ⊢
    have hparts := hverified
    simp only [isVerified, Bool.and_eq_true, beq_iff_eq, Option.any_eq_true] at hparts
    obtain ⟨⟨⟨⟨⟨⟨-, hprofile⟩, stated, hstated, hnotblank⟩, constraint, hconstraint, -⟩, hvariant⟩,
      -⟩, -⟩ := hparts
    obtain ⟨variant, hvariant⟩ := Option.isSome_iff_exists.mp hvariant
    simp only [hverified, hselected, hvariant, hstated, hprofile, hconstraint, not_true_eq_false,
      false_or, Option.bind_eq_bind, Option.bind_some, Option.some_inj]
    cases hblank : (Text.trim version).isEmpty with
    | true => simp
    | false =>
      simp only [Bool.not_false, not_true_eq_false, if_false, true_and]
      by_cases hversion : stated = version
      · subst hversion
        rw [if_neg (by simp)]
        refine iff_of_true ⟨_, rfl, tagPrefix (c.readable variant), ?_⟩ fun _ => rfl
        rw [hashedIdentity, if_neg hschema, hprofile, hconstraint, hvariant]
        rfl
      · rw [if_pos hversion]
        refine iff_of_false ?_ fun h => hversion (h hschema)
        rintro ⟨selector, hnone, -⟩
        cases hnone

end ResolvedOpenUsdCompatibility

end Verified

/-! ## What an accepted manifest gives -/

section Accepted

variable {manifest value : Json} {kind : ArtifactKind} {platform : Option String} {target : String}
  {compatibility : Option ResolvedOpenUsdCompatibility}

/-- The identity read from the OpenUSD section, whose providers are verified. -/
structure AcceptedSection (value : Json) (target : String) (c : ResolvedOpenUsdCompatibility) :
    Prop where
  read : ResolvedOpenUsdCompatibility.fromJson value = some c
  verified : if c.schema = 1 then c.providersAreVerified else c.isVerified
  target : (Text.trim target).isEmpty = false

theorem trim_ne_empty {s : String} {c : Char} (hc : c ∈ s.toList)
    (hwhite : Text.isWhitespace c = false) : (Text.trim s).isEmpty = false := by
  obtain ⟨before, after, hs, hbefore, hafter⟩ := Text.exists_trim s
  by_contra hempty
  have hnil : (Text.trim s).toList = [] := by simpa using hempty
  rw [hs, hnil, List.append_nil, List.mem_append] at hc
  have hblank : Text.isWhitespace c = true := hc.elim (hbefore c) (hafter c)
  rw [hblank] at hwhite
  cases hwhite

theorem startsWith_not_blank {os : Os} {arch : Arch}
    (h : Text.startsWith (os.asStr ++ "-" ++ arch.asStr ++ "-") target) :
    (Text.trim target).isEmpty = false := by
  refine trim_ne_empty (c := '-') ?_ (by decide)
  obtain ⟨tail, htail⟩ := List.isPrefixOf_iff_prefix.mp h
  rw [← htail]
  simp

theorem acceptedSection (hsection : manifest.get? "openusd_compatibility" = some value)
    (hnull : value.isNull = false)
    (h : normalizeOpenusdCompatibility manifest kind platform target = .ok compatibility) :
    kind = .runtime ∧ ∃ c, compatibility = some c ∧ AcceptedSection value target c := by
  have hpresent : (manifest.get? "openusd_compatibility").filter (fun v => !v.isNull) =
      some value := by
    rw [hsection]
    simp [hnull]
  unfold normalizeOpenusdCompatibility at h
  split_ifs at h with hkind hsome
  · rw [hpresent] at hsome
    exact absurd rfl hsome
  · refine ⟨not_not.mp hkind, ?_⟩
    obtain ⟨copy, hcopy, h⟩ := Result.bind_ok.mp h
    have hvalue : copy = some value := by
      simp only [agreedCopy, hpresent] at hcopy
      split at hcopy
      · next hnone _ => cases hnone
      · next a b ha hb =>
        split_ifs at hcopy with heq
        rw [← Except.ok.inj hcopy, ← heq, ← ha]
      · cases hcopy
    subst hvalue
    simp only [Result.bind_ok, Result.okOr_ok, Result.failIf_ok] at h
    obtain ⟨c, hread, -, hschema, -, hfailure, -, -, -, hprefix, python, -, -, -, h⟩ := h
    cases h
    refine ⟨c, rfl, hread, ?_, startsWith_not_blank (not_not.mp hprefix)⟩
    by_cases hone : c.schema = 1
    · rw [if_pos hone]
      rw [if_pos hone] at hfailure
      exact ResolvedOpenUsdCompatibility.providersAreVerified_of_failure
        (Option.not_isSome_iff_eq_none.mp hfailure)
    · rw [if_neg hone]
      rw [if_neg hone] at hfailure
      exact ResolvedOpenUsdCompatibility.isVerified_of_failure
        (Option.not_isSome_iff_eq_none.mp hfailure)

theorem sourceIdentity_verified {source : Option ResolvedSourceIdentity}
    (h : normalizeSourceIdentity manifest = .ok source) :
    source.all ResolvedSourceIdentity.isVerified := by
  unfold normalizeSourceIdentity at h
  split at h
  · cases h
    rfl
  · simp only [Result.bind_ok, exactSourceField, Result.okOr_ok, Option.filter_eq_some_iff] at h
    obtain ⟨_, -, repository, ⟨-, hrepository⟩, revision, ⟨-, hrevision⟩, h⟩ := h
    cases h
    simp [ResolvedSourceIdentity.isVerified, hrepository, hrevision]

theorem readDependencies_verified {index : Nat} {values : List Json}
    {dependencies : List ResolvedDependencyIdentity}
    (h : readDependencies index values = .ok dependencies) :
    ∀ d ∈ dependencies, d.isVerified := by
  induction values generalizing index dependencies with
  | nil =>
    cases h
    simp
  | cons value rest ih =>
    simp only [readDependencies, Result.bind_ok, Result.okOr_ok, Result.failIf_ok, not_not] at h
    obtain ⟨dependency, -, -, hverified, others, hothers, h⟩ := h
    cases h
    exact List.forall_mem_cons.mpr ⟨hverified, ih hothers⟩

theorem dependencyIdentities_verified {dependencies : List ResolvedDependencyIdentity}
    (h : normalizeDependencyIdentities manifest = .ok dependencies) :
    dependencies.all ResolvedDependencyIdentity.isVerified := by
  unfold normalizeDependencyIdentities at h
  split at h
  · cases h
    rfl
  · simp only [Result.bind_ok] at h
    obtain ⟨values, -, read, hread, h⟩ := h
    split at h
    · cases h
    · cases h
      rw [List.all_eq_true]
      intro d hd
      exact readDependencies_verified hread d ((List.mem_insertionSort _).mp hd)

end Accepted

/-- The record has a selector, and the version that the selector encodes is the one the OpenUSD
section states, if it states one. -/
def Addressable (codec : Codec) (r : ArtifactRecord) (c : ResolvedOpenUsdCompatibility) : Prop :=
  let identity := c.hashedIdentity r.target r.version r.sourceIdentity r.dependencyIdentities
  ∃ selector, r.openusdSelector codec = some selector ∧
    ResolvedOpenUsdCompatibility.Encodes codec identity selector ∧
    ∀ stated, c.producerOpenusdVersion = some stated →
      ResolvedOpenUsdCompatibility.hashedVersion identity = some stated

/-- The record of an accepted manifest with an OpenUSD section is addressable exactly when the
manifest's version is not blank and is the one the section states, if it states one. -/
theorem addressable_iff {codec : Codec} {manifest value : Json} {source : ArtifactSource}
    {createdUnix : Nat} {importedBy : String} {r : ArtifactRecord}
    (h : ArtifactRecord.fromProducerManifest manifest source createdUnix importedBy = .ok r)
    (hsection : manifest.get? "openusd_compatibility" = some value)
    (hnull : value.isNull = false) :
    ∃ c version, ResolvedOpenUsdCompatibility.fromJson value = some c ∧
      r.openusdCompatibility = some c ∧ manifest.getStr? "version" = some version ∧
      (Addressable codec r c ↔ (Text.trim version).isEmpty = false ∧
        ∀ stated, c.producerOpenusdVersion = some stated → version = stated) := by
  simp only [ArtifactRecord.fromProducerManifest, Result.bind_ok] at h
  obtain ⟨kind, -, _, -, _, -, ⟨name, version, licenses⟩, hidentity, digest, -, _, -, target, -,
    compatibility, hcompatibility, verification, -, sourceIdentity, hsource, dependencies,
    hdependencies, component, -, archive, -, archiveSize, -, totalSize, -, h⟩ := h
  obtain ⟨rfl, c, rfl, hc⟩ := acceptedSection hsection hnull hcompatibility
  have hversion : manifest.getStr? "version" = some version := by
    simp only [manifestIdentity, reduceCtorEq, if_false, false_and, Result.bind_ok, requireStr,
      Result.okOr_ok] at hidentity
    obtain ⟨_, -, _, hversion, hpair⟩ := hidentity
    cases hpair
    exact hversion
  have hselector := @ResolvedOpenUsdCompatibility.selector_iff c codec target version
    sourceIdentity dependencies (sourceIdentity_verified hsource)
    (dependencyIdentities_verified hdependencies) hc.target hc.verified
  refine ⟨c, version, hc.read, ?_, hversion, ?_⟩
  · cases h
    rfl
  · cases h
    have hencoded : ResolvedOpenUsdCompatibility.hashedVersion
        (c.hashedIdentity target version sourceIdentity dependencies) = some version :=
      ResolvedOpenUsdCompatibility.hashedVersion_hashedIdentity
    simp only [Addressable, ArtifactRecord.openusdSelector, Option.bind_some, hencoded,
      Option.some_inj]
    constructor
    · rintro ⟨selector, hselected, hencodes, hstated⟩
      exact ⟨(hselector.mp ⟨selector, hselected, hencodes⟩).1, hstated⟩
    · rintro ⟨hblank, hstated⟩
      have hschema : c.schema ≠ 1 → c.producerOpenusdVersion = some version := by
        -- an identity of the current schema states a version
        intro hschema
        have hverified := hc.verified
        rw [if_neg hschema, ResolvedOpenUsdCompatibility.isVerified] at hverified
        simp only [Bool.and_eq_true, Option.any_eq_true] at hverified
        obtain ⟨⟨⟨⟨⟨-, stated, hproducer, -⟩, -⟩, -⟩, -⟩, -⟩ := hverified
        rw [hproducer, hstated stated hproducer]
      obtain ⟨selector, hselected, hencodes⟩ := hselector.mpr ⟨hblank, hschema⟩
      exact ⟨selector, hselected, hencodes, hstated⟩

/-! ## A runtime of another version -/

namespace Addressable.Sample

def provider (family version : String) : Json := .obj [("family", .str family),
  ("provider", .str "managed"), ("version", .str version), ("version_constraint", .str version)]

/-- An OpenUSD section that states the version 26.05. -/
def compatibility : Json := .obj [
  ("arch", .str "x86_64"), ("capabilities", .arr []),
  ("consumer_openusd_constraint", .str ">=26.05"), ("os", .str "linux"),
  ("platform", .str "cy2026"), ("producer_openusd_version", .str "26.05"), ("profile", .str "usd"),
  ("python", provider "cpython" "3.11"), ("schema", .int 2), ("tbb", provider "onetbb" "2021.5"),
  ("toolchain", .obj [("cxx_standard", .str "17"), ("family", .str "gcc"),
    ("provider", .str "system"), ("runtime", provider "libstdc++" "11.2"),
    ("version", .str "11.2"), ("version_constraint", .str "11.2")]),
  ("variant", .str "core")]

def runtimeManifest (version : String) : Json := .obj [
  ("archive", .str "rt.tar.zst"),
  ("archive_digest", .str "sha256:efefefefefefefefefefefefefefefefefefefefefefefefefefefefefefefef"),
  ("archive_size", .int 11), ("files", .arr []), ("kind", .str RUNTIME_KIND), ("name", .str "rt"),
  ("openusd_compatibility", compatibility),
  ("provenance", .obj [("platform", .str "cy2026"),
    ("runtime_manifest", .obj [("openusd_compatibility", compatibility)])]),
  ("target", .str "linux-x86_64-py311"), ("total_size", .int 0), ("version", .str version)]

def codec : Codec where
  sha256 _ := []
  parse _ := none

/-- How a test of the imported record ends. -/
def imports (manifest : Json) (test : ArtifactRecord → Bool) : Bool :=
  match ArtifactRecord.fromProducerManifest manifest .imported 0 "ost" with
  | .ok record => test record
  | .error _ => false

theorem exists_of_imports {manifest : Json} {test : ArtifactRecord → Bool}
    (h : imports manifest test) :
    ∃ r, ArtifactRecord.fromProducerManifest manifest .imported 0 "ost" = .ok r ∧ test r := by
  unfold imports at h
  split at h
  · next record hrecord => exact ⟨record, hrecord, h⟩
  · cases h

end Addressable.Sample

open Addressable.Sample in
theorem addressable_iff_sample : ∃ r c,
    ArtifactRecord.fromProducerManifest (runtimeManifest "26.05") .imported 0 "ost" = .ok r ∧
      r.openusdCompatibility = some c ∧ Addressable codec r c := by
  have hrecord : imports (runtimeManifest "26.05") fun r =>
      r.openusdCompatibility.any fun c => c.producerOpenusdVersion = some "26.05" := by
    decide
  obtain ⟨r, hr, htest⟩ := exists_of_imports hrecord
  obtain ⟨c, version, -, hc, hversion, hiff⟩ :=
    @addressable_iff codec _ compatibility _ _ _ r hr rfl rfl
  have hversion : "26.05" = version := Option.some.inj hversion
  refine ⟨r, c, hr, hc, hiff.mpr ⟨by rw [← hversion]; decide, fun stated hstated => ?_⟩⟩
  rw [hc, Option.any_some, decide_eq_true_eq, hstated] at htest
  rw [← hversion, ← Option.some.inj htest]

open Addressable.Sample in
/-- A runtime whose artifact version is not the OpenUSD version of its section is imported, and its
record has no selector. -/
theorem misversioned_not_addressable : ∃ r c,
    ArtifactRecord.fromProducerManifest (runtimeManifest "25.11") .imported 0 "ost" = .ok r ∧
      r.openusdCompatibility = some c ∧ ¬ Addressable codec r c := by
  have hrecord : imports (runtimeManifest "25.11") fun r =>
      r.openusdCompatibility.isSome && (r.openusdSelector codec).isNone := by
    decide
  obtain ⟨r, hr, htest⟩ := exists_of_imports hrecord
  obtain ⟨hsome, hnone⟩ := Bool.and_eq_true_iff.mp htest
  obtain ⟨c, hc⟩ := Option.isSome_iff_exists.mp hsome
  refine ⟨r, c, hr, hc, ?_⟩
  rintro ⟨selector, hselector, -⟩
  rw [Option.isNone_iff_eq_none.mp hnone] at hselector
  cases hselector

end OpenStrata
