import OpenStrata.Artifact.StoreCalls
import OpenStrata.Artifact.StoreMerge

/-!
# Import of a new digest

An import whose digest is not stored fills a staging directory and renames it into place.
Until the rename only the staging directory has changed, whatever faults strike; after it the
store has one more sound directory, and then one more index entry.

## Main definitions

* `stagedDir`: the files of a filled staging directory
* `Extends`: an untouched store whose new directories are sound

## Main results

* `ArtifactStore.spec_importFresh`: what the import installs
* `soundDir_stagedDir`: an installed directory is sound
-/

namespace OpenStrata

/-- A file copied from a dist directory. -/
def withFile (m : ObjectDir) (dist : Directory) (name : String) : ObjectDir :=
  Function.update m name (some (.bytes (contentOf dist name)))

/-- The sidecar of a dist directory, if there is one. -/
def withSidecar (m : ObjectDir) (dist : Directory) : Option EvidenceDigest → ObjectDir
  | none => m
  | some e => withFile m dist e.path

/-- The debug archive of a dist directory, if there is one. -/
def withDebugArchive (m : ObjectDir) (dist : Directory) : Option DebugArchive → ObjectDir
  | none => m
  | some a => withFile m dist a.archive

/-- The producer's files in a staging directory. -/
def stagedFiles (incoming : Incoming) : ObjectDir :=
  let archived := withFile (fun _ => none) incoming.dist incoming.record.archive
  let manifested := Function.update archived MANIFEST_FILE (some (.bytes incoming.manifestBytes))
  withSidecar (withSidecar (withDebugArchive manifested incoming.dist incoming.debug)
    incoming.dist incoming.sbom) incoming.dist incoming.provenance

/-- The files of a filled staging directory. -/
def stagedDir (incoming : Incoming) : ObjectDir :=
  Function.update
    (Function.update (stagedFiles incoming) SHA256SUMS
      (some (.bytes (utf8 (checksumContents incoming.record incoming.debug)))))
    RECORD_FILE (some (.record incoming.record))

/-- An untouched store whose new directories are sound. -/
structure Extends (store : ArtifactStore) (w w' : World) : Prop where
  untouched : Untouched store w w'
  sound : ∀ o d, ¬ isTemporary o → w.objects o = none → w'.objects o = some d →
    SoundDir store o d

section Extends

variable {store : ArtifactStore} {w : World} {staging o : String} {d : ObjectDir}
  {x : Option ObjectDir}

/-- A staging directory may hold anything. -/
theorem extends_setDir_staging (h : isTemporary staging) :
    Extends store w (w.setDir staging x) := by
  have hother : ∀ o, ¬ isTemporary o → (w.setDir staging x).objects o = w.objects o := by
    intro o ho
    exact World.objects_setDir_of_ne _ (by rintro rfl; exact ho h)
  refine ⟨⟨rfl, fun o d ho hd => ⟨d, (hother o ho).trans hd, SameExports.refl d⟩⟩, ?_⟩
  intro o d ho hnone hd
  rw [hother o ho, hnone] at hd
  cases hd

/-- A sound directory may be installed. -/
theorem extends_install (h : isTemporary staging) (hnone : w.objects o = none)
    (hsound : SoundDir store o d) :
    Extends store w ((w.setDir staging none).setDir o (some d)) := by
  have hother : ∀ o', ¬ isTemporary o' → o' ≠ o →
      ((w.setDir staging none).setDir o (some d)).objects o' = w.objects o' := by
    intro o' ho' hne
    rw [World.objects_setDir_of_ne _ hne,
      World.objects_setDir_of_ne _ (by rintro rfl; exact ho' h)]
  refine ⟨⟨rfl, fun o' d' ho' hd' => ⟨d', ?_, SameExports.refl d'⟩⟩, fun o' d' ho' hnone' hd' => ?_⟩
  · rw [hother o' ho' (by rintro rfl; rw [hnone] at hd'; cases hd')]
    exact hd'
  · by_cases hne : o' = o
    · subst hne
      rw [World.objects_setDir] at hd'
      cases hd'
      exact hsound
    · rw [hother o' ho' hne, hnone'] at hd'
      cases hd'

end Extends

/-! ## The staging directory -/

namespace ArtifactStore

variable {store : ArtifactStore} {env : Environment StoreOp StoreOp.Reply StoreFault}
  {I : World → Prop} {w : World} {staging : String} {m : ObjectDir} {dist : Directory}
  {incoming : Incoming} {base : ArtifactRecord} {source : ArtifactSource} {pid createdUnix : Nat}

/-- A step of an import that has only changed its staging directory. -/
abbrev StagingSpec {α : Type} (env : Environment StoreOp StoreOp.Reply StoreFault)
    (I : World → Prop) (w : World) (staging : String) (p : Action α) (s : World)
    (Q : α → World → Prop) : Prop :=
  Program.Spec World.step env I (fun s => ∃ x, s = w.setDir staging x) p s Q

theorem staging_copyFrom {name source : String} {content : Bytes}
    (hread : dist.read source = .ok content) :
    StagingSpec env I w staging (copyFrom dist source staging name) (w.setDir staging (some m))
      fun _ s => s = w.setDir staging (some (Function.update m name (some (.bytes content)))) := by
  apply Program.Spec.bind (R := fun b s => content = b ∧ s = w.setDir staging (some m))
  · rw [hread]
    exact Program.Spec.done_ok ⟨rfl, rfl⟩
  rintro _ _ ⟨rfl, rfl⟩
  apply Program.Spec.bind (R := fun ok s => (ok = true →
      s = w.setDir staging (some (Function.update m name (some (.bytes content))))) ∧
    (ok = false → ∃ x, s = w.setDir staging x))
  · apply Program.Spec.perform
    intro fault _
    simp only [World.step_copyFile, World.objects_setDir, Option.isNone_some, Bool.false_eq_true,
      if_false, World.setFile_setDir]
    cases fault with
    | none => exact ⟨fun _ => rfl, nofun⟩
    | some f =>
      rcases f with ⟨leftover, kept⟩
      cases leftover with
      | none => exact ⟨nofun, fun _ => ⟨_, rfl⟩⟩
      | some b => exact ⟨nofun, fun _ => ⟨_, rfl⟩⟩
  · rintro ok s ⟨hok, herror⟩
    cases ok with
    | true => exact Program.Spec.done_ok (hok rfl)
    | false => exact Program.Spec.done_error (herror rfl)

theorem staging_writeFile {name : String} (content : Content) :
    StagingSpec env I w staging (store.writeFile staging name content)
      (w.setDir staging (some m)) fun _ s =>
        s = w.setDir staging (some (Function.update m name (some content))) := by
  apply Program.Spec.bind (R := fun ok s => (ok = true →
      s = w.setDir staging (some (Function.update m name (some content)))) ∧
    (ok = false → ∃ x, s = w.setDir staging x))
  · apply Program.Spec.perform
    intro fault _
    cases fault with
    | none => exact ⟨fun _ => by simp [World.step_writeAtomic], by simp [World.step_writeAtomic]⟩
    | some f => exact ⟨nofun, fun _ => ⟨some m, rfl⟩⟩
  · rintro ok s ⟨hok, herror⟩
    cases ok with
    | true => exact Program.Spec.done_ok (hok rfl)
    | false => exact Program.Spec.done_error (herror rfl)

/-- Copying an optional sidecar. -/
theorem staging_copySidecar {evidence : Option EvidenceDigest} {file : String}
    {check : Bytes → Result Unit}
    (h : ∀ e, evidence = some e → Describes store.toCodec dist file check e) :
    StagingSpec env I w staging (copySidecar dist staging evidence) (w.setDir staging (some m))
      fun _ s => s = w.setDir staging (some (withSidecar m dist evidence)) := by
  cases evidence with
  | none => exact Program.Spec.pure rfl
  | some e =>
    obtain rfl := (h e rfl).path
    exact staging_copyFrom (h e rfl).1

/-- Copying an optional debug archive. -/
theorem staging_copyDebug {debug : Option DebugArchive}
    (h : ∀ a, debug = some a → dist.read a.archive = .ok (contentOf dist a.archive)) :
    StagingSpec env I w staging (copyDebug dist staging debug) (w.setDir staging (some m))
      fun _ s => s = w.setDir staging (some (withDebugArchive m dist debug)) := by
  cases debug with
  | none => exact Program.Spec.pure rfl
  | some a => exact staging_copyFrom (h a rfl)

/-- Filling a staging directory. -/
theorem staging_stage (hchecked : incoming.Checked store.toCodec base source createdUnix) :
    StagingSpec env I w staging (store.stage incoming staging)
      (w.setDir staging (some fun _ => none))
      fun _ s => s = w.setDir staging (some (stagedDir incoming)) := by
  have harchive : incoming.dist.read incoming.record.archive =
      .ok (contentOf incoming.dist incoming.record.archive) := by
    rw [hchecked.record, ArtifactRecord.withSidecars_eq]
    exact hchecked.archive.1
  apply Program.Spec.bind (staging_copyFrom harchive)
  rintro - _ rfl
  apply Program.Spec.bind (staging_writeFile _)
  rintro - _ rfl
  apply Program.Spec.bind (staging_copyDebug fun a ha => (hchecked.debug_claim a ha).1)
  rintro - _ rfl
  apply Program.Spec.bind (staging_copySidecar hchecked.sbom)
  rintro - _ rfl
  apply Program.Spec.bind (staging_copySidecar hchecked.provenance)
  rintro - _ rfl
  apply Program.Spec.bind (staging_writeFile _)
  rintro - _ rfl
  exact staging_writeFile _

/-- Removing a staging directory, whole or not. -/
theorem staging_removeDir {x : Option ObjectDir} :
    StagingSpec env I w staging (Action.call (.removeDir staging)) (w.setDir staging x)
      fun removal s => (removal = .removed → s = w.setDir staging none) ∧
        ∃ x, s = w.setDir staging x := by
  apply Program.Spec.perform
  intro fault _
  cases x with
  | none => exact ⟨by simp [World.step_removeDir], none, by simp [World.step_removeDir]⟩
  | some d =>
    cases fault with
    | none => exact ⟨by simp [World.step_removeDir], none, by simp [World.step_removeDir]⟩
    | some f => exact ⟨by simp [World.step_removeDir], World.keepFiles d f.kept, by simp [World.step_removeDir]⟩

/-- A cleared staging directory is gone. -/
theorem staging_clear : StagingSpec env I w staging (store.clearStaging staging) w
    fun _ s => s = w.setDir staging none := by
  have hremoveDir : StagingSpec env I w staging (Action.call (.removeDir staging))
      (w.setDir staging (w.objects staging)) _ := staging_removeDir
  rw [World.setDir_self rfl] at hremoveDir
  apply Program.Spec.bind (R := fun present s =>
    w = s ∧ present = (w.objects staging).isSome)
  · exact Program.Spec.perform fun fault _ => ⟨rfl, rfl⟩
  rintro present _ ⟨rfl, rfl⟩
  split
  · apply Program.Spec.bind hremoveDir
    rintro removal s ⟨hremoved, herror⟩
    cases removal with
    | removed => exact Program.Spec.done_ok (hremoved rfl)
    | notFound => exact Program.Spec.done_error herror
    | failed => exact Program.Spec.done_error herror
  · next habsent =>
    apply Program.Spec.pure
    exact (World.setDir_self (by simpa using habsent)).symm

/-- A staging directory that fails to fill is removed. -/
theorem staging_stageOrClear
    (hchecked : incoming.Checked store.toCodec base source createdUnix) :
    StagingSpec env I w staging (store.stageOrClear incoming staging)
      (w.setDir staging (some fun _ => none))
      fun _ s => s = w.setDir staging (some (stagedDir incoming)) := by
  refine Program.Spec.attempt_bind (staging_stage hchecked)
    (fun _ _ hs => Program.Spec.pure hs) fun e s hs => ?_
  obtain ⟨x, rfl⟩ := hs
  apply Program.Spec.bind staging_removeDir
  rintro removal s ⟨-, herror⟩
  exact Program.Spec.done_error herror

/-- A staging directory is renamed into place where there is no directory, or the import
fails. -/
theorem staging_install {object : String} {d : ObjectDir} (hstaging : isTemporary staging)
    (hobject : ¬ isTemporary object) (hnone : w.file? object RECORD_FILE = none) :
    StagingSpec env I w staging (store.install staging object) (w.setDir staging (some d))
      fun _ s => w.objects object = none ∧
        s = (w.setDir staging none).setDir object (some d) := by
  have hne : object ≠ staging := by
    rintro rfl
    exact hobject hstaging
  have hsame : ∀ x, (w.setDir staging x).objects object = w.objects object := fun x =>
    World.objects_setDir_of_ne _ hne
  apply Program.Spec.bind (R := fun renamed s =>
    (renamed = true → w.objects object = none ∧
        s = (w.setDir staging none).setDir object (some d)) ∧
      (renamed = false → ∃ x, s = w.setDir staging x))
  · apply Program.Spec.perform
    intro fault _
    cases fault with
    | none =>
      simp only [World.step_renameDir, World.objects_setDir, hsame]
      cases w.objects object with
      | none => exact ⟨fun _ => ⟨rfl, by simp⟩, nofun⟩
      | some d' => exact ⟨nofun, fun _ => ⟨_, rfl⟩⟩
    | some f => exact ⟨nofun, fun _ => ⟨_, rfl⟩⟩
  · rintro renamed s ⟨hok, herror⟩
    cases renamed with
    | true => exact Program.Spec.pure (hok rfl)
    | false =>
      obtain ⟨x, rfl⟩ := herror rfl
      apply Program.Spec.bind staging_removeDir
      rintro removal _ ⟨-, x, rfl⟩
      -- nobody else has installed the digest
      apply Program.Spec.bind (R := fun present s => present = false ∧ ∃ x, s = w.setDir staging x)
      · apply Program.Spec.perform
        intro fault _
        refine ⟨?_, x, rfl⟩
        rw [World.file?] at hnone
        simp [World.step_probeFile, World.file?, hsame, hnone]
      · rintro present s ⟨rfl, herror⟩
        exact Program.Spec.done_error herror

theorem isTemporary_stagingName (object : String) (pid : Nat) :
    isTemporary (stagingName object pid) := by
  rw [stagingName, String.append_assoc, String.append_assoc]
  exact isTemporary_append _

/-- An import of a new digest installs its staged directory and indexes its record; when it
fails, the store is untouched and has at most that directory more. -/
theorem spec_importFresh (hchecked : incoming.Checked store.toCodec base source createdUnix)
    (hobject : ¬ isTemporary incoming.record.digestHex)
    (hnone : w.file? incoming.record.digestHex RECORD_FILE = none)
    (hsound : SoundDir store incoming.record.digestHex (stagedDir incoming)) :
    Program.Spec World.step env I (Extends store w) (store.importFresh pid incoming) w
      fun outcome s => outcome.record = incoming.record ∧
        w.objects incoming.record.digestHex = none ∧ s = { (w.setDir (stagingName incoming.record.digestHex pid) none).setDir
            incoming.record.digestHex (some (stagedDir incoming)) with
          index := some (upsertRecord incoming.record (indexed w)) } := by
  have hstaging := isTemporary_stagingName incoming.record.digestHex pid
  have hfail : ∀ s, (∃ x, s = w.setDir (stagingName incoming.record.digestHex pid) x) →
      Extends store w s := by
    rintro s ⟨x, rfl⟩
    exact extends_setDir_staging hstaging
  apply Program.Spec.bind (staging_clear.mono (fun _ _ h => h) hfail)
  rintro - _ rfl
  -- the directory is empty until it is filled
  apply Program.Spec.bind (R := fun created s => (created = true →
      s = w.setDir (stagingName incoming.record.digestHex pid) (some fun _ => none)) ∧
    (created = false → Extends store w s))
  · apply Program.Spec.perform
    intro fault _
    cases fault with
    | none => exact ⟨by simp [World.step_createDir], by simp [World.step_createDir]⟩
    | some f => exact ⟨nofun, fun _ => extends_setDir_staging hstaging⟩
  rintro created s ⟨hcreated, herror⟩
  apply Program.Spec.bind (R := fun _ s =>
    s = w.setDir (stagingName incoming.record.digestHex pid) (some fun _ => none))
  · cases created with
    | true => exact Program.Spec.done_ok (hcreated rfl)
    | false => exact Program.Spec.done_error (herror rfl)
  rintro - _ rfl
  apply Program.Spec.bind ((staging_stageOrClear hchecked).mono (fun _ _ h => h) hfail)
  rintro - _ rfl
  apply Program.Spec.bind ((staging_install hstaging hobject hnone).mono (fun _ _ h => h) hfail)
  rintro - _ ⟨habsent, rfl⟩
  have hextends := extends_install hstaging habsent hsound
  have hindex : ((w.setDir (stagingName incoming.record.digestHex pid) none).setDir
      incoming.record.digestHex (some (stagedDir incoming))).index = w.index := rfl
  apply Program.Spec.bind (spec_indexUpsert (fun _ => hextends) hindex)
  rintro - _ rfl
  exact Program.Spec.pure ⟨rfl, habsent, rfl⟩

end ArtifactStore

/-! ## The staged directory -/

section Staged

variable {store : ArtifactStore} {incoming : Incoming} {base : ArtifactRecord}
  {source : ArtifactSource} {createdUnix : Nat} {m : ObjectDir} {dist : Directory}
  {file name : String}

theorem withFile_of_ne (h : name ≠ file) : withFile m dist file name = m name :=
  Function.update_of_ne h _ _

theorem withFile_self : withFile m dist name name = some (.bytes (contentOf dist name)) :=
  Function.update_self _ _ _

theorem withSidecar_of_ne {evidence : Option EvidenceDigest}
    (hpath : ∀ e, evidence = some e → e.path = file) (h : name ≠ file) :
    withSidecar m dist evidence name = m name := by
  cases evidence with
  | none => rfl
  | some e =>
    obtain rfl := hpath e rfl
    exact withFile_of_ne h

/-- A copied debug archive is the dist directory's file; the other files stay. -/
theorem withDebugArchive_cases (debug : Option DebugArchive) :
    withDebugArchive m dist debug name = m name ∨
      (∃ a, debug = some a ∧ a.archive = name) ∧
        withDebugArchive m dist debug name = some (.bytes (contentOf dist name)) := by
  cases debug with
  | none => exact .inl rfl
  | some a =>
    by_cases hname : name = a.archive
    · subst hname
      exact .inr ⟨⟨a, rfl, rfl⟩, withFile_self⟩
    · exact .inl (withFile_of_ne hname)

variable (hchecked : incoming.Checked store.toCodec base source createdUnix)

include hchecked

theorem stagedDir_record : stagedDir incoming RECORD_FILE = some (.record incoming.record) :=
  Function.update_self _ _ _

/-- The files that the store does not write itself come from the dist directory. -/
theorem stagedDir_of_ne (hrecord : name ≠ RECORD_FILE) (hsums : name ≠ SHA256SUMS) :
    stagedDir incoming name = stagedFiles incoming name := by
  rw [stagedDir, Function.update_of_ne hrecord, Function.update_of_ne hsums]

theorem stagedDir_manifest :
    stagedDir incoming MANIFEST_FILE = some (.bytes incoming.manifestBytes) := by
  rw [stagedDir_of_ne hchecked (by decide) (by decide), stagedFiles,
    withSidecar_of_ne hchecked.provenance_path (by decide),
    withSidecar_of_ne hchecked.sbom_path (by decide)]
  rcases withDebugArchive_cases incoming.debug with hsame | ⟨-, hcopied⟩
  · rw [hsame, Function.update_self]
  · rw [hcopied, contentOf_eq hchecked.manifest_read]

theorem stagedDir_provenance {e : EvidenceDigest} (he : incoming.provenance = some e) :
    stagedDir incoming PROVENANCE_FILE =
      some (.bytes (contentOf incoming.dist PROVENANCE_FILE)) := by
  rw [stagedDir_of_ne hchecked (by decide) (by decide), stagedFiles, he, withSidecar,
    hchecked.provenance_path e he, withFile_self]

theorem stagedDir_sbom {e : EvidenceDigest} (he : incoming.sbom = some e) :
    stagedDir incoming SBOM_FILE = some (.bytes (contentOf incoming.dist SBOM_FILE)) := by
  rw [stagedDir_of_ne hchecked (by decide) (by decide), stagedFiles,
    withSidecar_of_ne hchecked.provenance_path (by decide), he, withSidecar,
    hchecked.sbom_path e he, withFile_self]

/-- A new record refers to the sidecars that came in. -/
theorem evidence_incoming :
    ArtifactStore.evidence incoming.record = .ok (incoming.sbom, incoming.provenance) := by
  obtain ⟨-, hsbom, hsbomDigest, hsbomSize, hprovenance, hprovenanceDigest, hprovenanceSize⟩ :=
    ArtifactRecord.fromProducerManifest_fresh hchecked.derived
  rw [hchecked.record, ArtifactRecord.withSidecars_eq, hsbom, hsbomDigest, hsbomSize, hprovenance,
    hprovenanceDigest, hprovenanceSize, evidence_ok]
  simp only [Option.or_none]
  exact ⟨recordEvidence_ok.mpr ⟨rfl, rfl, rfl, hchecked.sbom_path⟩,
    recordEvidence_ok.mpr ⟨rfl, rfl, rfl, hchecked.provenance_path⟩⟩

/-- The record of an import has the digest of its manifest. -/
theorem isSha256Ref_incoming : isSha256Ref incoming.record.digest := by
  rw [hchecked.record, ArtifactRecord.withSidecars_eq]
  exact (ArtifactRecord.fromProducerManifest_ok hchecked.derived).2.2.2.1

/-- A staged directory is sound. -/
theorem soundDir_stagedDir : SoundDir store incoming.record.digestHex (stagedDir incoming) where
  record := by
    intro c hc
    rw [stagedDir_record hchecked] at hc
    cases hc
    refine ⟨incoming.record, rfl, rfl, isSha256Ref_incoming hchecked, ?_, _, _,
      evidence_incoming hchecked, ?_⟩
    · rw [hchecked.record, ArtifactRecord.withSidecars_eq]
      exact (ArtifactRecord.fromProducerManifest_fresh hchecked.derived).1 ▸ (by decide)
    · intro e he c hc
      rw [checkEvidence_ok]
      simp only [List.mem_append, Option.mem_toList] at he
      rcases he with he | he
      · rw [hchecked.sbom_path e he, stagedDir_sbom hchecked he] at hc
        cases hc
        rw [(hchecked.sbom e he).2.1]
        exact ⟨rfl, rfl⟩
      · rw [hchecked.provenance_path e he, stagedDir_provenance hchecked he] at hc
        cases hc
        rw [(hchecked.provenance e he).2.1]
        exact ⟨rfl, rfl⟩
  manifest := by
    intro c hc
    rw [stagedDir_manifest hchecked] at hc
    cases hc
    exact ⟨incoming.manifest, incoming.debug, hchecked.parsed, hchecked.debug⟩

end Staged

end OpenStrata
