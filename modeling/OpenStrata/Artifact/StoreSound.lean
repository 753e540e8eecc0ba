import OpenStrata.Artifact.StoreSteps

/-!
# Soundness of the store

What an import has checked before it touches the store, and what the store keeps through
whole and interrupted operations: a directory may have lost files to a removal that failed,
but the record and the manifest that are there can be read, the sidecars are the ones that the
record refers to, and every index entry is the record of its directory.

## Main definitions

* `Incoming.Checked`: what the checks of an import establish
* `SoundRecord`, `SoundDir`: what a directory that holds a record or a manifest satisfies
* `Sound`: every installed directory is sound and every index entry is installed

## Main results

* `readIncoming_ok`: an accepted directory has been checked
* `Sound.untouched`: an untouched store stays sound
-/

namespace OpenStrata

/-- The content of a file of a directory; of a missing one, nothing. -/
def contentOf (dist : Directory) (name : String) : Bytes := (dist.read name).toOption.getD []

/-- A sidecar stands for the file under its name. -/
def Describes (codec : Codec) (dist : Directory) (name : String)
    (check : Bytes → Result Unit) (evidence : EvidenceDigest) : Prop :=
  dist.read name = .ok (contentOf dist name) ∧
    evidence = EvidenceDigest.ofBytes codec name (contentOf dist name) ∧
    check (contentOf dist name) = .ok ()

/-- The check of a provenance content, without a publisher policy. -/
def provenanceCheck (codec : Codec) (manifest : Json) (digest : String) (content : Bytes) :
    Result Unit := do
  Result.failIf (¬ Utf8.valid content) (.io PROVENANCE_FILE)
  let _ ← checkProvenance codec manifest digest none content

/-- What the checks of an import establish about a dist directory. -/
structure Incoming.Checked (codec : Codec) (incoming : Incoming) (base : ArtifactRecord)
    (source : ArtifactSource) (createdUnix : Nat) : Prop where
  manifest_read : incoming.dist.read MANIFEST_FILE = .ok incoming.manifestBytes
  parsed : codec.parse incoming.manifestBytes = some incoming.manifest
  derived : ArtifactRecord.fromProducerManifest incoming.manifest source createdUnix
    STORE_PRODUCER = .ok base
  record : incoming.record = (base.withSbom incoming.sbom).withProvenance incoming.provenance
  debug : manifestDebugArchive incoming.manifest = .ok incoming.debug
  sbom : ∀ e, incoming.sbom = some e → Describes codec incoming.dist SBOM_FILE
    (checkSbom codec base.digest base.dependencyIdentities) e
  provenance : ∀ e, incoming.provenance = some e → Describes codec incoming.dist PROVENANCE_FILE
    (provenanceCheck codec incoming.manifest base.digest) e
  sbom_absent : incoming.sbom = none → incoming.dist.exists? SBOM_FILE = false
  provenance_absent : incoming.provenance = none → incoming.dist.exists? PROVENANCE_FILE = false
  archive : incoming.dist.read base.archive = .ok (contentOf incoming.dist base.archive) ∧
    sha256Hex codec (contentOf incoming.dist base.archive) = base.digest ∧
    (contentOf incoming.dist base.archive).length = base.archiveSize
  debug_claim : ∀ a, incoming.debug = some a →
    incoming.dist.read a.archive = .ok (contentOf incoming.dist a.archive) ∧
    checkArchiveClaim codec a (contentOf incoming.dist a.archive) = .ok ()

section Checked

variable {codec : Codec} {dist : Directory} {name : String} {path : DistPath}
  {source : ArtifactSource} {createdUnix : Nat} {incoming : Incoming}

theorem contentOf_eq {content : Bytes} (h : dist.read name = .ok content) :
    contentOf dist name = content := by
  rw [contentOf, h]
  rfl

/-- A reference is complete and names its sidecar, or there is none. -/
theorem recordEvidence_ok {path digest : Option String} {size : Option Nat}
    {label file : String} {evidence : Option EvidenceDigest} :
    recordEvidence path digest size label file = .ok evidence ↔
      path = evidence.map (·.path) ∧ digest = evidence.map (·.digest) ∧
        size = evidence.map (·.size) ∧ ∀ e, evidence = some e → e.path = file := by
  unfold recordEvidence
  constructor
  · intro h
    split at h
    · cases h
      exact ⟨rfl, rfl, rfl, nofun⟩
    · split at h
      · next hpath =>
        cases h
        refine ⟨rfl, rfl, rfl, ?_⟩
        rintro e he
        cases he
        exact hpath
      · cases h
    · cases h
  · rintro ⟨rfl, rfl, rfl, hfile⟩
    cases evidence with
    | none => rfl
    | some e =>
      obtain rfl := hfile e rfl
      simp

theorem evidence_ok {r : ArtifactRecord} {sbom provenance : Option EvidenceDigest} :
    ArtifactStore.evidence r = .ok (sbom, provenance) ↔
      recordEvidence r.sbom r.sbomDigest r.sbomSize "SBOM" SBOM_FILE = .ok sbom ∧
        recordEvidence r.provenance r.provenanceDigest r.provenanceSize "provenance"
          PROVENANCE_FILE = .ok provenance := by
  simp only [ArtifactStore.evidence, Result.bind_ok]
  constructor
  · rintro ⟨s, hs, p, hp, heq⟩
    cases heq
    exact ⟨hs, hp⟩
  · rintro ⟨hs, hp⟩
    exact ⟨sbom, hs, provenance, hp, rfl⟩

theorem checkArchive_ok {record : ArtifactRecord} {actual : EvidenceDigest} {u : Unit} :
    checkArchive record actual = .ok u ↔
      actual.digest = record.digest ∧ actual.size = record.archiveSize := by
  simp [checkArchive, Result.bind_ok]

/-- An accepted directory has been checked. -/
theorem readIncoming_ok (h : readIncoming codec path source createdUnix = .ok incoming) :
    ∃ base, locateManifest path = .ok incoming.dist ∧
      incoming.Checked codec base source createdUnix := by
  simp only [readIncoming, Result.bind_ok, Result.okOr_ok] at h
  obtain ⟨dist, hdist, bytes, hbytes, manifest, hmanifest, base, hbase, debug, hdebug, sbom,
    hsbom, ⟨⟩, hsbomOk, provenance, hprovenance, ⟨⟩, hprovenanceOk, actual, hactual, ⟨⟩,
    harchive, ⟨⟩, hclaim, hincoming⟩ := h
  cases hincoming
  refine ⟨base, hdist, ?_⟩
  exact {
    manifest_read := hbytes
    parsed := hmanifest
    derived := hbase
    record := rfl
    debug := hdebug
    sbom := by
      rintro e rfl
      obtain ⟨content, hcontent, he⟩ := evidenceIn_some hsbom
      simp only [whenPresent, Option.isSome_some, if_true, verifySbom, Result.bind_ok] at hsbomOk
      obtain ⟨b, hb, hcheck⟩ := hsbomOk
      obtain rfl := Except.ok.inj (hb.symm.trans hcontent)
      rw [Describes, contentOf_eq hcontent]
      exact ⟨hcontent, he, hcheck⟩
    provenance := by
      rintro e rfl
      obtain ⟨content, hcontent, he⟩ := evidenceIn_some hprovenance
      simp only [whenPresent, Option.isSome_some, if_true, verifyProvenance,
        Result.bind_ok] at hprovenanceOk
      obtain ⟨publisher, ⟨b, hb, ⟨⟩, hvalid, hcheck⟩, -⟩ := hprovenanceOk
      obtain rfl := Except.ok.inj (hb.symm.trans hcontent)
      rw [Describes, contentOf_eq hcontent]
      refine ⟨hcontent, he, ?_⟩
      rw [Result.failIf_ok] at hvalid
      simp only [provenanceCheck, Result.bind_ok, Result.failIf_ok]
      exact ⟨(), hvalid, publisher, hcheck, rfl⟩
    sbom_absent := by
      rintro rfl
      exact evidenceIn_none hsbom
    provenance_absent := by
      rintro rfl
      exact evidenceIn_none hprovenance
    archive := by
      simp only [EvidenceDigest.fromFile, Result.bind_ok] at hactual
      obtain ⟨content, hcontent, hactual⟩ := hactual
      cases hactual
      obtain ⟨hdigest, hsize⟩ := checkArchive_ok.mp harchive
      rw [contentOf_eq hcontent]
      exact ⟨hcontent, hdigest, hsize⟩
    debug_claim := by
      rintro a rfl
      simp only [checkDebug, Result.bind_ok] at hclaim
      obtain ⟨content, hcontent, hcheck⟩ := hclaim
      rw [contentOf_eq hcontent]
      exact ⟨hcontent, hcheck⟩ }

end Checked

/-! ## Sound directories -/

variable (store : ArtifactStore)

/-- A record belongs to its directory, its references are complete, and the sidecars that are
there are the ones it refers to. -/
structure SoundRecord (o : String) (d : ObjectDir) (r : ArtifactRecord) : Prop where
  object : r.digestHex = o
  digest : isSha256Ref r.digest
  imported : r.importedBy.isEmpty = false
  evidence : ∃ sbom provenance, ArtifactStore.evidence r = .ok (sbom, provenance) ∧
    ∀ e ∈ sbom.toList ++ provenance.toList, ∀ c, d e.path = some c →
      checkEvidence store.toCodec e (store.contentBytes c) = .ok ()

/-- The record and the manifest of a directory can be read, if they are there. -/
structure SoundDir (o : String) (d : ObjectDir) : Prop where
  record : ∀ c, d RECORD_FILE = some c → ∃ r, c = .record r ∧ SoundRecord store o d r
  manifest : ∀ c, d MANIFEST_FILE = some c → ∃ m debug,
    store.parse (store.contentBytes c) = some m ∧ manifestDebugArchive m = .ok debug

/-- Every installed directory is sound and every index entry is the record of one. -/
structure Sound (w : World) : Prop where
  dirs : ∀ o d, ¬ isTemporary o → w.objects o = some d → SoundDir store o d
  index : ∀ r ∈ w.index.getD [], ¬ isTemporary r.digestHex ∧
    ∃ d, w.objects r.digestHex = some d ∧ d RECORD_FILE = some (.record r)

variable {store} {o : String} {d d' : ObjectDir} {r : ArtifactRecord} {w w' : World}

/-- An object directory of a well-formed digest is no staging directory. -/
theorem not_isTemporary_digestHex (h : isSha256Ref r.digest) : ¬ isTemporary r.digestHex := by
  intro htemp
  unfold isSha256Ref at h
  unfold ArtifactRecord.digestHex at htemp
  cases hhex : Text.stripPrefix "sha256:" r.digest with
  | none => simp [hhex] at h
  | some hex =>
    simp only [hhex, Bool.and_eq_true, beq_iff_eq, Option.getD_some] at h htemp
    obtain ⟨hlen, hall⟩ := h
    rw [isTemporary, Text.startsWith, List.isPrefixOf_iff_prefix] at htemp
    obtain ⟨rest, hrest⟩ := htemp
    have hdot : '.' ∈ hex.toList := by
      rw [← hrest]
      simp
    rw [Text.all, List.all_eq_true] at hall
    exact absurd (hall '.' hdot) (by decide)

/-- Records of well-formed digests in one object directory have one digest. -/
theorem digest_eq_of_digestHex {r' : ArtifactRecord} (h : isSha256Ref r.digest)
    (h' : isSha256Ref r'.digest) (heq : r.digestHex = r'.digestHex) : r.digest = r'.digest := by
  unfold isSha256Ref at h h'
  unfold ArtifactRecord.digestHex at heq
  cases hhex : Text.stripPrefix "sha256:" r.digest with
  | none => simp [hhex] at h
  | some hex =>
    cases hhex' : Text.stripPrefix "sha256:" r'.digest with
    | none => simp [hhex'] at h'
    | some hex' =>
      rw [hhex, hhex'] at heq
      simp only [Option.getD_some] at heq
      rw [Text.stripPrefix_eq_some.mp hhex, Text.stripPrefix_eq_some.mp hhex', heq]

theorem migrate_eq_self (h : r.importedBy.isEmpty = false) : r.migrateLegacyProducer = r := by
  simp [ArtifactRecord.migrateLegacyProducer, h]

/-- A directory whose exported files stay or go stays sound. -/
theorem SoundDir.mono (h : SoundDir store o d)
    (hsub : ∀ name, Exported store d name → ∀ c, d' name = some c → d name = some c) :
    SoundDir store o d' where
  record := by
    intro c hc
    obtain ⟨r, rfl, hr⟩ := h.record c (hsub _ .record c hc)
    obtain ⟨sbom, provenance, hevidence, hfits⟩ := hr.evidence
    refine ⟨r, rfl, hr.object, hr.digest, hr.imported, sbom, provenance, hevidence, ?_⟩
    intro e he c' hc'
    exact hfits e he c' (hsub _ (.sidecar (hsub _ .record _ hc) hevidence he) c' hc')
  manifest := by
    intro c hc
    exact h.manifest c (hsub _ .manifest c hc)

theorem SoundDir.congr (h : SoundDir store o d) (hsame : SameExports store d d') :
    SoundDir store o d' :=
  h.mono fun name hname _ hc => hsame name hname ▸ hc

theorem sound_empty : Sound store World.empty where
  dirs := by
    intro o d _ hd
    cases hd
  index := by
    intro r hr
    cases hr

/-- An untouched store stays sound when its new directories are. -/
theorem Sound.untouched (h : Sound store w) (huntouched : Untouched store w w')
    (hnew : ∀ o d, ¬ isTemporary o → w.objects o = none → w'.objects o = some d →
      SoundDir store o d) : Sound store w' where
  dirs := by
    intro o d' ho hd'
    cases hd : w.objects o with
    | none => exact hnew o d' ho hd hd'
    | some d =>
      obtain ⟨d₁, hd₁, hsame⟩ := huntouched.dirs o d ho hd
      obtain rfl := Option.some.inj (hd'.symm.trans hd₁)
      exact (h.dirs o d ho hd).congr hsame
  index := by
    intro r hr
    rw [huntouched.index] at hr
    obtain ⟨ho, d, hd, hrecord⟩ := h.index r hr
    obtain ⟨d₁, hd₁, hsame⟩ := huntouched.dirs _ d ho hd
    exact ⟨ho, d₁, hd₁, (hsame _ .record).trans hrecord⟩

/-- The entry of an index is the sound record of its directory. -/
theorem Sound.record_of_index (h : Sound store w) (hr : r ∈ w.index.getD []) :
    ∃ d, w.objects r.digestHex = some d ∧ d RECORD_FILE = some (.record r) ∧
      SoundRecord store r.digestHex d r := by
  obtain ⟨ho, d, hd, hrecord⟩ := h.index r hr
  obtain ⟨r', heq, hsound⟩ := (h.dirs _ d ho hd).record _ hrecord
  cases heq
  exact ⟨d, hd, hrecord, hsound⟩

/-- The entries of a sound index are read as they stand. -/
theorem Sound.indexed (h : Sound store w) : indexed w = w.index.getD [] := by
  rw [OpenStrata.indexed, ← List.map_id (w.index.getD []), List.map_map]
  apply List.map_congr_left
  intro r hr
  obtain ⟨d, -, -, hsound⟩ := h.record_of_index hr
  exact migrate_eq_self hsound.imported

end OpenStrata
