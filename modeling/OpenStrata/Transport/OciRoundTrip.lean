import OpenStrata.Artifact.StoreSound
import OpenStrata.Transport.Oci
import OpenStrata.Transport.Trust

/-!
# Round trip of an OCI bundle

What a push describes, the pull side reads back: the image manifest parses, and each file's
layer is found under its own media type. The layers that were not pushed are looked for by
title, so an archive that has the filename of a sidecar is taken for it; and a selector of the
first schema need not be the tag that the pull side insists on.

## Main definitions

* `RoundTrips`: the pull side finds exactly the layers that were pushed
* `SidecarNames`, `SelectorPublishable`: when it does

## Main results

* `parseOciManifest_build`: an image manifest parses when its selector is a valid tag
* `planPush_roundTrips_iff`: a push reads back exactly when names and selector allow it
-/

namespace OpenStrata

/-! ## Reading back what was built -/

section Manifest

variable {codec : Codec} {layers : List Layer} {l : Layer} {locator configDigest : String}
  {configSize : Nat} {selector : Option String} {bytes : Bytes}

/-- A layer that a pull accepts. -/
def Layer.Readable (l : Layer) : Prop := isSha256Ref l.digest ∧ l.size < 2 ^ 64

/-- The fields of a rendered layer. -/
theorem Layer.toJson_fields (l : Layer) : l.toJson.getStr? "digest" = some l.digest ∧
    l.toJson.get? "size" = some (.int l.size) ∧ l.toJson.getStr? "mediaType" = some l.mediaType ∧
    (l.toJson.get? "annotations").bind (·.getStr? TITLE_ANNOTATION) = l.title := by
  obtain ⟨mediaType, digest, size, title⟩ := l
  cases title with
  | none => exact ⟨rfl, rfl, rfl, rfl⟩
  | some title => exact ⟨rfl, rfl, rfl, rfl⟩

theorem Layer.fromJson_toJson (h : l.Readable) : Layer.fromJson locator l.toJson = .ok l := by
  obtain ⟨hdigest, hsize, hmediaType, htitle⟩ := l.toJson_fields
  have hread : (Json.int (l.size : Int)).asU64? = some l.size := by
    rw [Json.asU64?, if_pos ⟨by omega, by exact_mod_cast h.2⟩, Int.toNat_natCast]
  simp only [Layer.fromJson, Result.bind_ok, Result.okOr_ok]
  refine ⟨l.digest, ?_, l.size, ?_, ?_⟩
  · rw [hdigest, Option.filter_some, if_pos h.1]
  · rw [hsize, Option.bind_some, hread]
  · rw [hmediaType, htitle]
    rfl

theorem mapM_fromJson (h : ∀ l ∈ layers, l.Readable) :
    (layers.map Layer.toJson).mapM (Layer.fromJson locator) = .ok layers := by
  induction layers with
  | nil => rfl
  | cons l layers ih =>
    rw [List.map_cons, List.mapM_cons, Layer.fromJson_toJson (h l (List.mem_cons_self ..)),
      ih fun l' hl' => h l' (List.mem_cons_of_mem _ hl')]
    rfl

theorem readSelector_build :
    readSelector locator (buildOciManifest layers configDigest configSize selector) =
      match selector with
      | none => .ok none
      | some tag => do
        Result.failIf (¬ isValidOciTag tag)
          (ociManifestInvalid locator "the OpenUSD selector annotation is not a valid OCI tag")
        return some tag := by
  cases selector with
  | none => rfl
  | some tag => rfl

/-- An image manifest reads back as its layers and its selector, when that is a valid tag. -/
theorem parseOciManifest_build_iff {m : OciManifest} (hlayers : ∀ l ∈ layers, l.Readable)
    (hparse : codec.parse bytes = some (buildOciManifest layers configDigest configSize selector)) :
    parseOciManifest codec bytes locator = .ok m ↔
      m = ⟨layers, selector⟩ ∧ ∀ tag, selector = some tag → isValidOciTag tag := by
  have hget : ((buildOciManifest layers configDigest configSize selector).get? "layers").bind
      Json.asArr? = some (layers.map Layer.toJson) := by
    cases selector <;> rfl
  simp only [parseOciManifest, Result.bind_ok, Result.okOr_ok, hparse, Option.some.injEq,
    exists_eq_left', hget, mapM_fromJson hlayers, Except.ok.injEq, readSelector_build]
  cases selector with
  | none =>
    constructor
    · rintro ⟨_, hnone, heq⟩
      cases hnone
      cases heq
      exact ⟨rfl, fun _ h => by cases h⟩
    · rintro ⟨rfl, -⟩
      exact ⟨none, rfl, rfl⟩
  | some tag =>
    simp only [Result.bind_ok, Result.failIf_ok, not_not]
    constructor
    · rintro ⟨_, ⟨⟨⟩, hvalid, hsome⟩, heq⟩
      cases hsome
      cases heq
      refine ⟨rfl, fun tag' htag => ?_⟩
      cases htag
      exact hvalid
    · rintro ⟨rfl, hvalid⟩
      exact ⟨some tag, ⟨(), hvalid tag rfl, rfl⟩, rfl⟩

end Manifest

/-! ## Finding the layers -/

/-- The pull side finds the layers of a plan, and none for a sidecar that has none. -/
structure Found (plan : PushPlan) (m : OciManifest) : Prop where
  selector : m.openusdSelector = plan.openusdSelector
  archive : ∀ titles, m.findLayer MEDIA_TYPE_ARCHIVE titles =
    some (.ofFile MEDIA_TYPE_ARCHIVE plan.archive)
  producerManifest : ∀ titles, m.findLayer MEDIA_TYPE_PRODUCER_MANIFEST titles =
    some (.ofFile MEDIA_TYPE_PRODUCER_MANIFEST plan.producerManifest)
  debug : ∀ a titles, plan.debug = some a →
    m.findLayer MEDIA_TYPE_DEBUG_ARCHIVE titles = some (.ofDebug a)
  noDebug : plan.debug = none → ∀ l ∈ m.layers, l.mediaType ≠ MEDIA_TYPE_DEBUG_ARCHIVE
  sbom : m.findLayer MEDIA_TYPE_SBOM (· == SBOM_FILE) =
    plan.sbom.map (.ofFile MEDIA_TYPE_SBOM)
  provenance : m.findLayer MEDIA_TYPE_PROVENANCE (· == PROVENANCE_FILE) =
    plan.provenance.map (.ofFile MEDIA_TYPE_PROVENANCE)

/-- What a push describes is parsed and found by the pull side. -/
def RoundTrips (codec : Codec) (plan : PushPlan) (locator : String) : Prop :=
  ∃ m, parseOciManifest codec (jsonBytes (plan.ociManifest codec)) locator = .ok m ∧ Found plan m

/-- No archive has the filename of a sidecar that the record does not refer to. -/
structure SidecarNames (record : ArtifactRecord) (debug : Option DebugArchive) : Prop where
  sbom : record.sbom = none →
    record.archive ≠ SBOM_FILE ∧ ∀ a, debug = some a → a.archive ≠ SBOM_FILE
  provenance : record.provenance = none →
    record.archive ≠ PROVENANCE_FILE ∧ ∀ a, debug = some a → a.archive ≠ PROVENANCE_FILE

/-- A selector of the first schema has a platform that fits into a tag. -/
def SelectorPublishable (codec : Codec) (record : ArtifactRecord) : Prop :=
  ∀ c, record.openusdCompatibility = some c → c.schema = 1 →
    (record.openusdSelector codec).isSome →
    Text.all isTagChar c.platform ∧ (c.readable c.variant).length ≤ 63

/-- What the checks of a push establish about its plan. -/
structure Planned (codec : Codec) (record : ArtifactRecord) (plan : PushPlan) : Prop where
  archive : plan.archive.path = record.archive
  producerManifest : plan.producerManifest.path = MANIFEST_FILE
  selector : plan.openusdSelector = record.openusdSelector codec
  sbom : record.sbom = plan.sbom.map (·.path)
  sbomFile : ∀ e, plan.sbom = some e → e.path = SBOM_FILE
  provenance : record.provenance = plan.provenance.map (·.path)
  provenanceFile : ∀ e, plan.provenance = some e → e.path = PROVENANCE_FILE
  digests : ∀ l ∈ plan.layers, isSha256Ref l.digest

section Layers

variable {codec : Codec} {record : ArtifactRecord} {files : Directory} {plan : PushPlan}
  {locator name : String} {evidence : EvidenceDigest}

/-- The first layer of each media type. -/
theorem PushPlan.find?_layers (plan : PushPlan) :
    plan.layers.find? (·.mediaType == MEDIA_TYPE_ARCHIVE) =
        some (.ofFile MEDIA_TYPE_ARCHIVE plan.archive) ∧
      plan.layers.find? (·.mediaType == MEDIA_TYPE_DEBUG_ARCHIVE) = plan.debug.map .ofDebug ∧
      plan.layers.find? (·.mediaType == MEDIA_TYPE_SBOM) =
        plan.sbom.map (.ofFile MEDIA_TYPE_SBOM) ∧
      plan.layers.find? (·.mediaType == MEDIA_TYPE_PROVENANCE) =
        plan.provenance.map (.ofFile MEDIA_TYPE_PROVENANCE) ∧
      plan.layers.find? (·.mediaType == MEDIA_TYPE_PRODUCER_MANIFEST) =
        some (.ofFile MEDIA_TYPE_PRODUCER_MANIFEST plan.producerManifest) := by
  obtain ⟨archive, debug, sbom, provenance, producerManifest, selector⟩ := plan
  cases debug <;> cases sbom <;> cases provenance <;> exact ⟨rfl, rfl, rfl, rfl, rfl⟩

/-- The layers of a plan, one kind after the other. -/
theorem PushPlan.mem_layers {l : Layer} : l ∈ plan.layers ↔
    l = .ofFile MEDIA_TYPE_ARCHIVE plan.archive ∨
      (∃ a, plan.debug = some a ∧ .ofDebug a = l) ∨
      (∃ e, plan.sbom = some e ∧ .ofFile MEDIA_TYPE_SBOM e = l) ∨
      (∃ e, plan.provenance = some e ∧ .ofFile MEDIA_TYPE_PROVENANCE e = l) ∨
      l = .ofFile MEDIA_TYPE_PRODUCER_MANIFEST plan.producerManifest := by
  simp only [PushPlan.layers, List.mem_append, List.mem_singleton, List.mem_map,
    Option.mem_toList, or_assoc]

theorem isSha256Ref_of_verified (hsha : ∀ b, (codec.sha256 b).length = 32)
    (h : verifyEvidenceDigest codec files evidence = .ok ()) : isSha256Ref evidence.digest := by
  simp only [verifyEvidenceDigest, Result.bind_ok, checkEvidence_ok] at h
  obtain ⟨content, -, hdigest, -⟩ := h
  rw [← hdigest]
  exact isSha256Ref_sha256Hex (hsha content)

/-- A push that passes its checks describes digests of files. -/
theorem planPush_ok (hsha : ∀ b, (codec.sha256 b).length = 32)
    (h : planPush codec record files = .ok plan) : Planned codec record plan := by
  simp only [planPush, Result.bind_ok, Result.forAll_ok] at h
  obtain ⟨⟨⟩, hstored, ⟨bytes, manifest⟩, -, debug, hdebug, ⟨⟩, -, sbom, hsbom, provenance,
    hprovenance, ⟨⟩, hverified, ⟨⟩, -, ⟨⟩, -, hplan⟩ := h
  cases hplan
  obtain ⟨hsbomPath, -, -, hsbomFile⟩ := recordEvidence_ok.mp hsbom
  obtain ⟨hprovenancePath, -, -, hprovenanceFile⟩ := recordEvidence_ok.mp hprovenance
  refine ⟨rfl, rfl, rfl, hsbomPath, hsbomFile, hprovenancePath, hprovenanceFile, fun l hl => ?_⟩
  rw [PushPlan.mem_layers] at hl
  rcases hl with rfl | ⟨a, ha, rfl⟩ | ⟨e, he, rfl⟩ | ⟨e, he, rfl⟩ | rfl
  · -- the stored archive has the digest of its record
    simp only [checkStored, EvidenceDigest.fromFile, Result.bind_ok, Result.failIf_ok] at hstored
    obtain ⟨-, -, -, -, actual, ⟨content, -, hactual⟩, ⟨⟩, hmatch, -⟩ := hstored
    cases hactual
    rw [not_or, not_not, not_not] at hmatch
    show isSha256Ref record.digest
    rw [← hmatch.1]
    exact isSha256Ref_sha256Hex (hsha content)
  · rw [show debug = some a from ha] at hdebug
    exact (manifestDebugArchive_ok hdebug).2.1
  · have hsbom' : sbom = some e := he
    exact isSha256Ref_of_verified hsha (hverified e (by simp [hsbom']))
  · have hprovenance' : provenance = some e := he
    exact isSha256Ref_of_verified hsha (hverified e (by simp [hprovenance']))
  · exact isSha256Ref_sha256Hex (hsha bytes)

/-- A sidecar without a layer is not found when no layer has its title. -/
theorem findLayer_absent {m : OciManifest} {mediaType : String} (hlayers : m.layers = plan.layers)
    (habsent : plan.layers.find? (·.mediaType == mediaType) = none) :
    m.findLayer mediaType (· == name) = none ↔ ∀ l ∈ plan.layers, l.title ≠ some name := by
  rw [OciManifest.findLayer, hlayers, habsent, Option.none_or, List.find?_eq_none]
  refine forall₂_congr fun l _ => not_congr ?_
  rw [Option.any_eq_true]
  simp

/-- No layer has the title of a sidecar that is absent when no archive has. -/
theorem titles_ne_iff (h : Planned codec record plan) (hmanifest : MANIFEST_FILE ≠ name)
    (hsbom : ∀ e, plan.sbom = some e → SBOM_FILE ≠ name)
    (hprovenance : ∀ e, plan.provenance = some e → PROVENANCE_FILE ≠ name) :
    (∀ l ∈ plan.layers, l.title ≠ some name) ↔
      record.archive ≠ name ∧ ∀ a, plan.debug = some a → a.archive ≠ name := by
  constructor
  · intro hall
    refine ⟨?_, fun a ha => ?_⟩
    · rintro rfl
      exact hall _ (PushPlan.mem_layers.mpr (.inl rfl)) (congrArg some h.archive)
    · rintro rfl
      exact hall _ (PushPlan.mem_layers.mpr (.inr (.inl ⟨a, ha, rfl⟩))) rfl
  · rintro ⟨harchive, hdebug⟩ l hl htitle
    rw [PushPlan.mem_layers] at hl
    rcases hl with rfl | ⟨a, ha, rfl⟩ | ⟨e, he, rfl⟩ | ⟨e, he, rfl⟩ | rfl
    · exact harchive (h.archive.symm.trans (Option.some.inj htitle))
    · exact hdebug a ha (Option.some.inj htitle)
    · exact hsbom e he ((h.sbomFile e he).symm.trans (Option.some.inj htitle))
    · exact hprovenance e he ((h.provenanceFile e he).symm.trans (Option.some.inj htitle))
    · exact hmanifest (h.producerManifest.symm.trans (Option.some.inj htitle))

/-- The pull side finds the layers of a plan when the names allow it. -/
theorem found_iff (h : Planned codec record plan) :
    Found plan ⟨plan.layers, plan.openusdSelector⟩ ↔ SidecarNames record plan.debug := by
  obtain ⟨harchive, hdebug, hsbom, hprovenance, hmanifest⟩ := plan.find?_layers
  have hsbomNone : record.sbom = none ↔ plan.sbom = none := by
    rw [h.sbom, Option.map_eq_none_iff]
  have hprovenanceNone : record.provenance = none ↔ plan.provenance = none := by
    rw [h.provenance, Option.map_eq_none_iff]
  have habsentSbom : plan.sbom = none →
      ((OciManifest.mk plan.layers plan.openusdSelector).findLayer MEDIA_TYPE_SBOM (· == SBOM_FILE)
        = none ↔ record.archive ≠ SBOM_FILE ∧ ∀ a, plan.debug = some a → a.archive ≠ SBOM_FILE) := by
    intro hnone
    rw [hnone] at hsbom
    rw [findLayer_absent rfl hsbom, titles_ne_iff h (by decide) (by simp [hnone])
      fun _ _ => by decide]
  have habsentProvenance : plan.provenance = none →
      ((OciManifest.mk plan.layers plan.openusdSelector).findLayer MEDIA_TYPE_PROVENANCE
        (· == PROVENANCE_FILE) = none ↔ record.archive ≠ PROVENANCE_FILE ∧
          ∀ a, plan.debug = some a → a.archive ≠ PROVENANCE_FILE) := by
    intro hnone
    rw [hnone] at hprovenance
    rw [findLayer_absent rfl hprovenance, titles_ne_iff h (by decide) (fun _ _ => by decide)
      (by simp [hnone])]
  constructor
  · intro hfound
    refine ⟨fun hnone => ?_, fun hnone => ?_⟩
    · have hplan := hsbomNone.mp hnone
      refine (habsentSbom hplan).mp ?_
      rw [hfound.sbom, hplan]
      rfl
    · have hplan := hprovenanceNone.mp hnone
      refine (habsentProvenance hplan).mp ?_
      rw [hfound.provenance, hplan]
      rfl
  · intro hnames
    exact {
      selector := rfl
      archive := fun titles => by
        rw [OciManifest.findLayer, harchive, Option.some_or]
      producerManifest := fun titles => by
        rw [OciManifest.findLayer, hmanifest, Option.some_or]
      debug := fun a titles ha => by
        rw [OciManifest.findLayer, hdebug, ha, Option.map_some, Option.some_or]
      noDebug := fun hnone l hl => by
        rw [hnone, Option.map_none, List.find?_eq_none] at hdebug
        simpa using hdebug l hl
      sbom := by
        cases he : plan.sbom with
        | none => exact (habsentSbom he).mpr (hnames.sbom (hsbomNone.mpr he))
        | some e => rw [OciManifest.findLayer, hsbom, he, Option.map_some, Option.some_or]
      provenance := by
        cases he : plan.provenance with
        | none => exact (habsentProvenance he).mpr (hnames.provenance (hprovenanceNone.mpr he))
        | some e => rw [OciManifest.findLayer, hprovenance, he, Option.map_some, Option.some_or] }

/-- The selector of a record is a valid tag, if there is one. -/
theorem selectorPublishable_iff (hsha : ∀ b, (codec.sha256 b).length = 32) :
    (∀ tag, record.openusdSelector codec = some tag → isValidOciTag tag) ↔
      SelectorPublishable codec record := by
  constructor
  · intro h c hc hschema hsome
    obtain ⟨tag, htag⟩ := Option.isSome_iff_exists.mp hsome
    have hselector := htag
    rw [ArtifactRecord.openusdSelector, hc, Option.bind_some] at hselector
    exact (ResolvedOpenUsdCompatibility.isValidOciTag_selector_iff hsha hselector).mp (h tag htag)
      hschema
  · intro h tag htag
    obtain ⟨c, hc, hselector⟩ := Option.bind_eq_some_iff.mp htag
    exact (ResolvedOpenUsdCompatibility.isValidOciTag_selector_iff hsha hselector).mpr
      fun hschema => h c hc hschema (Option.isSome_of_eq_some htag)

end Layers

section RoundTrip

variable {codec : Codec} {record : ArtifactRecord} {files : Directory} {plan : PushPlan}
  {locator : String}

/-- A planned push reads back exactly when names and selector allow it. -/
theorem Planned.roundTrips_iff (hsha : ∀ b, (codec.sha256 b).length = 32)
    (h : Planned codec record plan) (hsize : ∀ l ∈ plan.layers, l.size < 2 ^ 64)
    (hparse : codec.parse (jsonBytes (plan.ociManifest codec)) = some (plan.ociManifest codec)) :
    RoundTrips codec plan locator ↔
      SidecarNames record plan.debug ∧ SelectorPublishable codec record := by
  have hreadable : ∀ l ∈ plan.layers, l.Readable := fun l hl => ⟨h.digests l hl, hsize l hl⟩
  rw [← found_iff h, ← selectorPublishable_iff hsha, ← h.selector]
  simp only [RoundTrips, parseOciManifest_build_iff hreadable hparse]
  constructor
  · rintro ⟨_, ⟨rfl, hvalid⟩, hfound⟩
    exact ⟨hfound, hvalid⟩
  · rintro ⟨hfound, hvalid⟩
    exact ⟨_, ⟨rfl, hvalid⟩, hfound⟩

/-- What a push describes is found again by the pull side, exactly when no archive has the
filename of a sidecar that is not pushed, and a selector of the first schema fits into a tag. -/
theorem planPush_roundTrips_iff (hsha : ∀ b, (codec.sha256 b).length = 32)
    (hplan : planPush codec record files = .ok plan) (hsize : ∀ l ∈ plan.layers, l.size < 2 ^ 64)
    (hparse : codec.parse (jsonBytes (plan.ociManifest codec)) = some (plan.ociManifest codec)) :
    RoundTrips codec plan locator ↔
      SidecarNames record plan.debug ∧ SelectorPublishable codec record :=
  (planPush_ok hsha hplan).roundTrips_iff hsha hsize hparse

end RoundTrip

/-! ## Pushes of small artifacts -/

namespace Oci.Sample

/-- SHA-256 of the small archive; every other file has one digest. -/
def sha256 (bytes : Bytes) : Bytes := bytesOfHex <| String.toList <|
  if bytes.length = 11 then Transport.Sample.archiveHex
  else "9f86d081884c7d659a2feaa0c55ad015a3bf4f1b2b0b822cd15d6c15b0f00a08"

theorem length_sha256 (bytes : Bytes) : (sha256 bytes).length = 32 := by
  unfold sha256
  split
  · decide
  · decide

def files (manifest : Json) (archive : String) : Directory := .ofFiles "object"
  [(MANIFEST_FILE, jsonBytes manifest), (archive, Transport.Sample.archive)]

/-- The record that a producer manifest describes. -/
def accepted (manifest : Json) : Option ArtifactRecord :=
  (ArtifactRecord.fromProducerManifest manifest .imported 0 STORE_PRODUCER).toOption

/-- The plan of its push; the one document that is read is the producer manifest. -/
def planned (manifest : Json) : Option PushPlan := do
  let record ← accepted manifest
  (planPush { sha256, parse := fun _ => some manifest } record
    (files manifest record.archive)).toOption

/-- A parser that reads the producer manifest and the image manifest of its push. -/
def codec (manifest : Json) : Codec where
  sha256 := sha256
  parse bytes :=
    if bytes = jsonBytes manifest then some manifest
    else (planned manifest).map (·.ociManifest { sha256, parse := fun _ => none })

/-- A push whose image manifest parses. -/
structure Pushed (manifest : Json) (record : ArtifactRecord) (plan : PushPlan) : Prop where
  accepted : ArtifactRecord.fromProducerManifest manifest .imported 0 STORE_PRODUCER = .ok record
  planned : planPush (codec manifest) record (files manifest record.archive) = .ok plan
  parsed : (codec manifest).parse (jsonBytes (plan.ociManifest (codec manifest))) =
    some (plan.ociManifest (codec manifest))
  sizes : ∀ l ∈ plan.layers, l.size < 2 ^ 64

/-- Whether a push parses, and how a test of it ends. -/
def pushes (manifest : Json) (test : ArtifactRecord → PushPlan → Bool) : Bool :=
  match ArtifactRecord.fromProducerManifest manifest .imported 0 STORE_PRODUCER with
  | .error _ => false
  | .ok record =>
    match planPush (codec manifest) record (files manifest record.archive) with
    | .error _ => false
    | .ok plan =>
      (codec manifest).parse (jsonBytes (plan.ociManifest (codec manifest))) =
          some (plan.ociManifest (codec manifest)) &&
        plan.layers.all (·.size < 2 ^ 64) && test record plan

theorem exists_of_pushes {manifest : Json} {test : ArtifactRecord → PushPlan → Bool}
    (h : pushes manifest test) :
    ∃ record plan, Pushed manifest record plan ∧ test record plan := by
  unfold pushes at h
  split at h
  · cases h
  · next record hrecord =>
    split at h
    · cases h
    · next plan hplan =>
      simp only [Bool.and_eq_true, decide_eq_true_eq, List.all_eq_true] at h
      exact ⟨record, plan, ⟨hrecord, hplan, h.1.1, h.1.2⟩, h.2⟩

def provider (family version : String) : Json := .obj [("family", .str family),
  ("provider", .str "system"), ("version", .str version), ("version_constraint", .str version)]

/-- A compatibility identity of the first schema. -/
def compatibility (platform : String) : Json := .obj [
  ("arch", .str "x86_64"), ("capabilities", .arr []), ("os", .str "linux"),
  ("platform", .str platform), ("python", provider "cpython" "3.11"), ("schema", .int 1),
  ("tbb", provider "onetbb" "2021.5"),
  ("toolchain", .obj [("cxx_standard", .str "17"), ("family", .str "gcc"),
    ("provider", .str "system"), ("runtime", provider "libstdc++" "11.2"),
    ("version", .str "11.2"), ("version_constraint", .str "11.2")]),
  ("variant", .str "core")]

def runtimeManifest (platform : String) : Json := .obj [
  ("archive", .str "rt.tar.zst"),
  ("archive_digest", .str ("sha256:" ++ Transport.Sample.archiveHex)),
  ("archive_size", .int 11), ("files", .arr []), ("kind", .str RUNTIME_KIND), ("name", .str "rt"),
  ("openusd_compatibility", compatibility platform),
  ("provenance", .obj [("platform", .str platform),
    ("runtime_manifest", .obj [("openusd_compatibility", compatibility platform)])]),
  ("target", .str "linux-x86_64-py311"), ("total_size", .int 0), ("version", .str "26.05")]

/-- A package whose archive has the filename of an SBOM. -/
def misnamedManifest : Json := .obj [
  ("archive", .str SBOM_FILE), ("archive_digest", .str ("sha256:" ++ Transport.Sample.archiveHex)),
  ("archive_size", .int 11), ("files", .arr []), ("name", .str "demo"),
  ("target", .str "linux-x86_64"), ("total_size", .int 0), ("version", .str "1.0.0")]

/-- The platform of a record, when its compatibility identity has the first schema and a
selector. -/
def legacyPlatform (codec : Codec) (record : ArtifactRecord) : Option String :=
  (record.openusdCompatibility.filter fun c =>
    c.schema = 1 && (record.openusdSelector codec).isSome).map (·.platform)

theorem runtime_pushes : pushes (runtimeManifest "cy2026") fun record plan =>
    plan.debug.isNone && record.archive = "rt.tar.zst" &&
      (record.openusdCompatibility.any fun c => c.platform = "cy2026" &&
        (c.readable c.variant).length ≤ 63) := by
  decide +kernel

theorem spaced_pushes : pushes (runtimeManifest "cy 2026") fun record _ =>
    legacyPlatform (codec (runtimeManifest "cy 2026")) record = some "cy 2026" := by
  decide +kernel

theorem misnamed_pushes : pushes misnamedManifest fun record _ =>
    record.sbom.isNone && record.archive = SBOM_FILE := by
  decide +kernel

end Oci.Sample

open Oci.Sample in
theorem planPush_roundTrips_iff_sample : ∃ record plan,
    Pushed (runtimeManifest "cy2026") record plan ∧
      RoundTrips (codec (runtimeManifest "cy2026")) plan "oci://ghcr.io/acme/rt" := by
  obtain ⟨record, plan, hpushed, htest⟩ := exists_of_pushes runtime_pushes
  simp only [Bool.and_eq_true, Option.isNone_iff_eq_none, decide_eq_true_eq, Option.any_eq_true]
    at htest
  obtain ⟨⟨hdebug, harchive⟩, c, hc, hplatform, hlength⟩ := htest
  have hnames : SidecarNames record plan.debug := by
    rw [hdebug]
    exact ⟨fun _ => ⟨by rw [harchive]; decide, nofun⟩, fun _ => ⟨by rw [harchive]; decide, nofun⟩⟩
  have hselector : SelectorPublishable (codec (runtimeManifest "cy2026")) record := by
    intro c' hc' _ _
    obtain rfl := Option.some.inj (hc.symm.trans hc')
    exact ⟨by rw [hplatform]; decide, hlength⟩
  exact ⟨record, plan, hpushed, (planPush_roundTrips_iff length_sha256 hpushed.planned
    hpushed.sizes hpushed.parsed).mpr ⟨hnames, hselector⟩⟩

open Oci.Sample in
/-- A push of a runtime whose platform has a space, and one of a package whose archive has the
filename of an SBOM, are not read back as they were pushed. -/
theorem planPush_not_roundTrips :
    (∃ record plan, Pushed (runtimeManifest "cy 2026") record plan ∧
      ∀ locator, ¬ RoundTrips (codec (runtimeManifest "cy 2026")) plan locator) ∧
    ∃ record plan, Pushed misnamedManifest record plan ∧
      ∀ locator, ¬ RoundTrips (codec misnamedManifest) plan locator := by
  constructor
  · obtain ⟨record, plan, hpushed, htest⟩ := exists_of_pushes spaced_pushes
    obtain ⟨c, hc, hplatform⟩ := Option.map_eq_some_iff.mp (of_decide_eq_true htest)
    obtain ⟨hc, hlegacy⟩ := Option.filter_eq_some_iff.mp hc
    simp only [Bool.and_eq_true, decide_eq_true_eq] at hlegacy
    obtain ⟨hschema, hsome⟩ := hlegacy
    refine ⟨record, plan, hpushed, fun locator htrip => ?_⟩
    have hplanned := planPush_ok length_sha256 hpushed.planned
    have hselector := ((hplanned.roundTrips_iff length_sha256 hpushed.sizes hpushed.parsed).mp
      htrip).2 c hc hschema hsome
    rw [hplatform] at hselector
    exact absurd hselector.1 (by decide)
  · obtain ⟨record, plan, hpushed, htest⟩ := exists_of_pushes misnamed_pushes
    simp only [Bool.and_eq_true, Option.isNone_iff_eq_none, decide_eq_true_eq] at htest
    refine ⟨record, plan, hpushed, fun locator htrip => ?_⟩
    have hplanned := planPush_ok length_sha256 hpushed.planned
    have hnames := ((hplanned.roundTrips_iff length_sha256 hpushed.sizes hpushed.parsed).mp
      htrip).1
    exact (hnames.sbom htest.1).1 htest.2

end OpenStrata
