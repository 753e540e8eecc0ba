import OpenStrata.Artifact.StoreSound

/-!
# Import over a stored digest

An import whose digest is stored merges into the object directory that is there. What it
leaves behind is a function of the directory, the stored record and the incoming files; the
program computes that function, and when it fails, the store still exports what it did, unless
the incoming manifest promises a debug archive that another file already stands for.

## Main definitions

* `mergePlan`: what an import over a stored digest attaches, commits, records and leaves
* `MergeSafe`: the conditions under which the merge cannot fail half way

## Main results

* `ArtifactStore.spec_importPresent`: the program computes the plan
* `Merged.soundDir`: a merged directory is sound
-/

namespace OpenStrata

/-- The directory after binding a sidecar. -/
def attachTo (m : ObjectDir) (pid : Nat) (storedDigest : Option String) (dist : Directory) :
    Option EvidenceDigest → ObjectDir
  | none => m
  | some e => putUnbound m (evidenceTemp pid e.path) storedDigest e (contentOf dist e.path)

/-- Binding a sidecar attaches it, unless it is bound already. -/
def attaches (m : ObjectDir) (storedDigest : Option String) : Option EvidenceDigest → Bool
  | none => false
  | some e => !isBound m storedDigest e

/-- The directory after materialising the debug archive of an incoming manifest. -/
def withDebug (m : ObjectDir) (pid : Nat) (incoming : Incoming) : ObjectDir :=
  match incoming.debug with
  | none => m
  | some a => putMissing m (debugTemp pid a.archive) a.archive (contentOf incoming.dist a.archive)

/-- The directory after repairing the debug archive and the checksums of a manifest that is
stored already. -/
def repairedDir (m : ObjectDir) (pid : Nat) (stored : ArtifactRecord) (committed : Bool)
    (incoming : Incoming) : ObjectDir :=
  if committed && incoming.debug.isSome then
    Function.update (withDebug m pid incoming) SHA256SUMS
      (some (.bytes (utf8 (checksumContents stored incoming.debug))))
  else m

/-- The directory after binding the sidecars of an incoming directory. -/
def attachSidecars (m : ObjectDir) (pid : Nat) (stored : ArtifactRecord) (incoming : Incoming) :
    ObjectDir :=
  attachTo (attachTo m pid stored.sbomDigest incoming.dist incoming.sbom)
    pid stored.provenanceDigest incoming.dist incoming.provenance

/-- What an import over a stored digest attaches, commits, records and leaves behind. -/
structure MergePlan where
  start : ObjectDir
  sbom : Bool
  provenance : Bool
  attached : ObjectDir
  commits : Bool
  manifested : ObjectDir
  changed : Bool
  record : ArtifactRecord
  debug : Option DebugArchive
  files : ObjectDir

/-- The merge into a directory `d` that holds the incoming manifest, when it is `committed`,
or else one that promises `storedDebug`. -/
def mergePlan (pid : Nat) (d : ObjectDir) (existing : ArtifactRecord) (enriched committed : Bool)
    (incoming : Incoming) (storedDebug : Option DebugArchive) : MergePlan :=
  let start := repairedDir d pid existing committed incoming
  let sbom := attaches start existing.sbomDigest incoming.sbom
  let provenance := attaches start existing.provenanceDigest incoming.provenance
  let attached := attachSidecars start pid existing incoming
  let commits := (provenance || enriched) && !committed
  let manifested := if commits then
      Function.update (withDebug attached pid incoming) MANIFEST_FILE
        (some (.bytes incoming.manifestBytes))
    else attached
  let changed := sbom || provenance || enriched
  let record := if changed then
      (existing.withSbom incoming.sbom).withProvenance incoming.provenance
    else existing
  let debug := if committed || commits then incoming.debug else storedDebug
  { start, sbom, provenance, attached, commits, manifested, changed, record, debug
    files := if changed then
        Function.update (Function.update manifested RECORD_FILE (some (.record record)))
          SHA256SUMS (some (.bytes (utf8 (checksumContents record debug))))
      else manifested }

/-- Whether a second manifest adds an identity to a stored record. -/
def enrichedBy (stored : ArtifactRecord) (incoming : Incoming) (committed : Bool) : Bool :=
  match mergeIdentity stored incoming committed with
  | .ok merged => merged.2
  | .error _ => false

/-- Another file stands under the name of a promised debug archive. -/
def DebugConflict (store : ArtifactStore) (m : ObjectDir) (incoming : Incoming) : Prop :=
  ∃ a c, incoming.debug = some a ∧ m a.archive = some c ∧
    checkArchiveClaim store.toCodec a (store.contentBytes c) ≠ .ok ()

/-- A temporary name under which an import may copy a file. -/
def Incoming.UsesTemp (incoming : Incoming) (pid : Nat) (name : String) : Prop :=
  (∃ e, (incoming.sbom = some e ∨ incoming.provenance = some e) ∧ name = evidenceTemp pid e.path) ∨
    ∃ a, incoming.debug = some a ∧ name = debugTemp pid a.archive

/-- The merge cannot fail half way: no temporary name is that of an exported file, no incoming
sidecar has the digest of a stored one and another size, and once an exported sidecar was
replaced, no debug archive is committed over another file. -/
structure MergeSafe (store : ArtifactStore) (pid : Nat) (d : ObjectDir) (stored : ArtifactRecord)
    (manifest : Bytes) (incoming : Incoming) : Prop where
  temps : ∀ name, incoming.UsesTemp pid name → ¬ Exported store d name
  sbom : ∀ e, incoming.sbom = some e → stored.sbomDigest = some e.digest →
    stored.sbomSize = some e.size
  provenance : ∀ e, incoming.provenance = some e → stored.provenanceDigest = some e.digest →
    stored.provenanceSize = some e.size
  debug : manifest ≠ incoming.manifestBytes →
    ¬ SameExports store d (attachSidecars d pid stored incoming) →
    (attaches d stored.provenanceDigest incoming.provenance ∨ enrichedBy stored incoming false) →
    ¬ DebugConflict store (attachSidecars d pid stored incoming) incoming

/-! ## Files that stay -/

theorem isTemporary_append (rest : String) : isTemporary (".tmp-" ++ rest) := by
  simp [isTemporary, Text.startsWith, String.toList_append]

theorem ne_debugTemp {name : String} (h : ¬ isTemporary name) (pid : Nat) (archive : String) :
    name ≠ debugTemp pid archive := by
  rintro rfl
  apply h
  rw [debugTemp, show ".tmp-debug-" = ".tmp-" ++ "debug-" from rfl, String.append_assoc,
    String.append_assoc, String.append_assoc]
  exact isTemporary_append _

theorem ne_evidenceTemp {name : String} (h : ¬ isTemporary name) (pid : Nat) (path : String) :
    name ≠ evidenceTemp pid path := by
  rintro rfl
  apply h
  rw [evidenceTemp, show ".tmp-evidence-" = ".tmp-" ++ "evidence-" from rfl,
    String.append_assoc, String.append_assoc, String.append_assoc]
  exact isTemporary_append _

section Frames

variable {m : ObjectDir} {pid : Nat} {storedDigest : Option String} {dist : Directory}
  {evidence : Option EvidenceDigest} {file name : String} {incoming : Incoming}

/-- Binding a sidecar changes no other file. -/
theorem attachTo_of_ne (hpath : ∀ e, evidence = some e → e.path = file)
    (htemp : ¬ isTemporary name) (hname : name ≠ file) :
    attachTo m pid storedDigest dist evidence name = m name := by
  cases evidence with
  | none => rfl
  | some e =>
    obtain rfl := hpath e rfl
    simp only [attachTo, putUnbound]
    split
    · rfl
    · exact replaced_of_ne (ne_evidenceTemp htemp pid _) hname

theorem attaches_congr {m' : ObjectDir} (hpath : ∀ e, evidence = some e → e.path = file)
    (hsame : m' file = m file) :
    attaches m' storedDigest evidence = attaches m storedDigest evidence := by
  cases evidence with
  | none => rfl
  | some e =>
    obtain rfl := hpath e rfl
    simp [attaches, isBound, hsame]

/-- Materialising a debug archive leaves a file, or puts that of the dist directory where
there was none. -/
theorem withDebug_cases (m : ObjectDir) (pid : Nat) (incoming : Incoming)
    (htemp : ¬ isTemporary name) :
    withDebug m pid incoming name = m name ∨
      m name = none ∧ (∃ a, incoming.debug = some a ∧ a.archive = name) ∧
        withDebug m pid incoming name = some (.bytes (contentOf incoming.dist name)) := by
  unfold withDebug
  cases hdebug : incoming.debug with
  | none => exact .inl rfl
  | some a =>
    simp only [putMissing]
    split
    · exact .inl rfl
    · next hmissing =>
      by_cases hname : name = a.archive
      · subst hname
        refine .inr ⟨by simpa using hmissing, ⟨a, rfl, rfl⟩, replaced_self _ _ _ _⟩
      · exact .inl (replaced_of_ne (ne_debugTemp htemp pid _) hname)

/-- A repair leaves a file other than the checksums, or puts that of the dist directory where
there was none. -/
theorem repairedDir_cases (m : ObjectDir) (pid : Nat) (stored : ArtifactRecord) (committed : Bool)
    (incoming : Incoming) (htemp : ¬ isTemporary name) (hsums : name ≠ SHA256SUMS) :
    repairedDir m pid stored committed incoming name = m name ∨
      m name = none ∧ (∃ a, incoming.debug = some a ∧ a.archive = name) ∧
        repairedDir m pid stored committed incoming name =
          some (.bytes (contentOf incoming.dist name)) := by
  unfold repairedDir
  split
  · rw [Function.update_of_ne hsums]
    exact withDebug_cases m pid incoming htemp
  · exact .inl rfl

end Frames

/-! ## The sidecars of a checked directory -/

section Sidecars

variable {codec : Codec} {d : ObjectDir} {pid : Nat} {incoming : Incoming}
  {stored base : ArtifactRecord} {source : ArtifactSource} {createdUnix : Nat} {name : String}

theorem Describes.path {dist : Directory} {check : Bytes → Result Unit} {e : EvidenceDigest}
    (h : Describes codec dist name check e) : e.path = name := by
  rw [h.2.1]
  rfl

variable (hchecked : incoming.Checked codec base source createdUnix)

include hchecked

theorem Incoming.Checked.sbom_path (e : EvidenceDigest) (he : incoming.sbom = some e) :
    e.path = SBOM_FILE :=
  (hchecked.sbom e he).path

theorem Incoming.Checked.provenance_path (e : EvidenceDigest)
    (he : incoming.provenance = some e) : e.path = PROVENANCE_FILE :=
  (hchecked.provenance e he).path

/-- Binding the sidecars changes no other file. -/
theorem attachSidecars_of_ne (htemp : ¬ isTemporary name) (hsbom : name ≠ SBOM_FILE)
    (hprovenance : name ≠ PROVENANCE_FILE) :
    attachSidecars d pid stored incoming name = d name := by
  rw [attachSidecars, attachTo_of_ne hchecked.provenance_path htemp hprovenance,
    attachTo_of_ne hchecked.sbom_path htemp hsbom]

/-- The SBOM that is bound. -/
theorem attachSidecars_sbom : attachSidecars d pid stored incoming SBOM_FILE =
    attachTo d pid stored.sbomDigest incoming.dist incoming.sbom SBOM_FILE :=
  attachTo_of_ne hchecked.provenance_path (by decide) (by decide)

/-- A debug archive of the dist directory is there. -/
theorem Incoming.Checked.debug_exists {a : DebugArchive} (ha : incoming.debug = some a) :
    incoming.dist.exists? a.archive := by
  rw [Directory.exists?, Directory.read_ok.mp (hchecked.debug_claim a ha).1]
  rfl

end Sidecars

/-! ## Merging identities -/

section Identity

variable {stored existing record : ArtifactRecord} {incoming : Incoming}
  {enriched committed : Bool}

/-- Where nothing is to be added, enrichment changes nothing. -/
theorem enrichIdentity_eq_self (h : enrichmentRequested stored record = false) :
    enrichIdentity stored record = stored := by
  have hor : ∀ {α : Type} (a b : Option α), isEnrichment a b = false → a.or b = a := by
    intro α a b hab
    cases a with
    | some a => rfl
    | none =>
      cases b with
      | none => rfl
      | some b => simp [isEnrichment] at hab
  simp only [enrichmentRequested, Bool.or_eq_false_iff] at h
  obtain ⟨⟨⟨hsource, hdeps⟩, hcompat⟩, hverify⟩ := h
  have hdependencies : (if stored.dependencyIdentities = [] then record.dependencyIdentities
      else stored.dependencyIdentities) = stored.dependencyIdentities := by
    split
    · next hnil =>
      simp only [dependencyEnrichment, hnil, beq_self_eq_true, Bool.true_and, bne_eq_false_iff_eq]
        at hdeps
      rw [hdeps, hnil]
    · rfl
  rw [enrichIdentity, hor _ _ hsource, hor _ _ hcompat, hor _ _ hverify, hdependencies]

/-- A merged record is the stored one with the identities that were added. -/
theorem mergeIdentity_ok (h : mergeIdentity stored incoming committed = .ok (existing, enriched)) :
    identityConflict stored incoming.record incoming.hasEvidence = false ∧
      (existing = stored ∧ enriched = false ∨
        existing = enrichIdentity stored incoming.record ∧ enriched = true ∧
          enrichmentRequested stored incoming.record = true ∧
          (committed = true ∨ enrichmentBound stored incoming = true)) := by
  simp only [mergeIdentity, Result.bind_ok, Result.failIf_ok] at h
  obtain ⟨⟨⟩, hconflict, ⟨⟩, -, h⟩ := h
  refine ⟨by simpa using hconflict, ?_⟩
  split at h
  · next hcan =>
    cases h
    cases hrequested : enrichmentRequested stored incoming.record with
    | false => exact .inl ⟨enrichIdentity_eq_self hrequested, rfl⟩
    | true =>
      refine .inr ⟨rfl, rfl, rfl, ?_⟩
      simpa [hrequested] using hcan
  · cases h
    exact .inl ⟨rfl, rfl⟩

/-- A merge leaves everything but the four identities. -/
theorem mergeIdentity_frame (h : mergeIdentity stored incoming committed = .ok (existing, enriched)) :
    ∃ source dependencies compatibility verification, existing = { stored with
      sourceIdentity := source, dependencyIdentities := dependencies
      openusdCompatibility := compatibility, openusdVerification := verification } := by
  rcases (mergeIdentity_ok h).2 with ⟨rfl, -⟩ | ⟨rfl, -⟩
  · exact ⟨_, _, _, _, rfl⟩
  · exact ⟨_, _, _, _, rfl⟩

theorem enrichedBy_eq (h : mergeIdentity stored incoming committed = .ok (existing, enriched)) :
    enrichedBy stored incoming committed = enriched := by
  rw [enrichedBy, h]

end Identity

/-- A reference with the digest and the size of a sidecar is to that sidecar. -/
theorem eq_of_reference {path digest : Option String} {size : Option Nat} {label file : String}
    {stored : Option EvidenceDigest} {e : EvidenceDigest}
    (h : recordEvidence path digest size label file = .ok stored)
    (hdigest : digest = some e.digest) (hsize : size = some e.size) (hpath : e.path = file) :
    stored = some e := by
  obtain ⟨-, rfl, rfl, hfile⟩ := recordEvidence_ok.mp h
  cases stored with
  | none => cases hdigest
  | some e' =>
    have hfile' := hfile e' rfl
    cases e
    cases e'
    simp_all only [Option.map_some, Option.some.injEq]

/-! ## The program computes the plan -/

namespace ArtifactStore

variable {store : ArtifactStore} {env : Environment StoreOp StoreOp.Reply StoreFault}
  {w s : World} {o : String} {d m : ObjectDir} {pid : Nat} {incoming : Incoming}
  {stored base : ArtifactRecord} {manifest : Bytes} {storedDebug : Option DebugArchive}
  {source : ArtifactSource} {createdUnix : Nat}

section Installed

variable (ho : ¬ isTemporary o) (hw : w.objects o = some d)

include ho hw

theorem spec_materializeDebug
    (htemp : ∀ a, incoming.debug = some a → ¬ Exported store d (debugTemp pid a.archive))
    (hclaim : ∀ a, incoming.debug = some a →
      incoming.dist.read a.archive = .ok (contentOf incoming.dist a.archive) ∧
      checkArchiveClaim store.toCodec a (contentOf incoming.dist a.archive) = .ok ())
    (hpresent : SameExports store d m ∨ ¬ DebugConflict store m incoming) :
    StoreSpec store env w (store.materializeDebug pid incoming o) (w.setDir o (some m))
      fun _ s' => s' = w.setDir o (some (withDebug m pid incoming)) ∧
        ¬ DebugConflict store (withDebug m pid incoming) incoming := by
  unfold materializeDebug withDebug
  cases hdebug : incoming.debug with
  | none =>
    refine Program.Spec.pure ⟨rfl, ?_⟩
    rintro ⟨a, c, ha, -⟩
    rw [hdebug] at ha
    cases ha
  | some a =>
    obtain ⟨hread, hcheck⟩ := hclaim a hdebug
    have hthere : ∀ c, m a.archive = some c →
        checkArchiveClaim store.toCodec a (store.contentBytes c) = .ok () ∨
          SameExports store d m := by
      intro c hc
      rcases hpresent with hsame | hno
      · exact .inr hsame
      · left
        by_contra hfails
        exact hno ⟨a, c, hdebug, hc, hfails⟩
    apply Program.Spec.mono
      (spec_materializeDebugArchive ho hw hread (htemp a hdebug) hcheck hthere)
    · rintro - s' ⟨rfl, c, hc, hok⟩
      refine ⟨rfl, ?_⟩
      rintro ⟨a', c', ha', hc', hfails⟩
      obtain rfl := Option.some.inj (hdebug.symm.trans ha')
      obtain rfl := Option.some.inj (hc.symm.trans hc')
      exact hfails hok
    · exact fun _ h => h

/-- Binding an optional sidecar. -/
theorem spec_attach {storedDigest : Option String} {evidence : Option EvidenceDigest}
    {dist : Directory} {file : String} {check : Bytes → Result Unit}
    (htemp : ∀ e, evidence = some e → ¬ Exported store d (evidenceTemp pid e.path))
    (hdescribes : ∀ e, evidence = some e → Describes store.toCodec dist file check e)
    (hbound : ∀ e c, evidence = some e → m file = some c → storedDigest = some e.digest →
      checkEvidence store.toCodec e (store.contentBytes c) = .ok () ∨ SameExports store d m) :
    StoreSpec store env w (store.attachSidecar pid dist o storedDigest evidence)
      (w.setDir o (some m)) fun attached s' => attached = attaches m storedDigest evidence ∧
        s' = w.setDir o (some (attachTo m pid storedDigest dist evidence)) ∧
        ∀ e, evidence = some e → ∃ c, attachTo m pid storedDigest dist evidence file = some c ∧
          checkEvidence store.toCodec e (store.contentBytes c) = .ok () := by
  cases evidence with
  | none => exact Program.Spec.pure ⟨rfl, rfl, nofun⟩
  | some e =>
    obtain rfl := (hdescribes e rfl).path
    obtain ⟨hread, he, -⟩ := hdescribes e rfl
    apply Program.Spec.mono (spec_attachSidecar ho hw hread (htemp e rfl) he
      fun c hc hd => hbound e c rfl hc hd)
    · rintro attached s' ⟨rfl, hs', hc⟩
      refine ⟨rfl, hs', ?_⟩
      rintro e' he'
      cases he'
      exact hc
    · exact fun _ h => h

omit ho hw in
/-- The debug archive that goes with the manifest on disk. -/
theorem committedDebug_eq {committed : Bool}
    (hpromises : ∃ m, store.parse manifest = some m ∧ manifestDebugArchive m = .ok storedDebug) :
    store.committedDebug incoming manifest committed o =
      .ok (if committed then incoming.debug else storedDebug) := by
  obtain ⟨m, hparse, hdebug⟩ := hpromises
  cases committed with
  | true => rfl
  | false =>
    simp only [committedDebug, Bool.false_eq_true, if_false, Result.bind_ok, Result.okOr_ok]
    exact ⟨m, hparse, hdebug⟩

/-- Committing the incoming manifest with its debug archive. -/
theorem spec_commitManifest
    (htemp : ∀ a, incoming.debug = some a → ¬ Exported store d (debugTemp pid a.archive))
    (hclaim : ∀ a, incoming.debug = some a →
      incoming.dist.read a.archive = .ok (contentOf incoming.dist a.archive) ∧
      checkArchiveClaim store.toCodec a (contentOf incoming.dist a.archive) = .ok ())
    (hpresent : SameExports store d m ∨ ¬ DebugConflict store m incoming) :
    StoreSpec store env w (store.commitManifest pid incoming o) (w.setDir o (some m))
      fun _ s' => s' = w.setDir o (some (Function.update (withDebug m pid incoming) MANIFEST_FILE
          (some (.bytes incoming.manifestBytes)))) ∧
        ¬ DebugConflict store (withDebug m pid incoming) incoming := by
  apply Program.Spec.bind (spec_materializeDebug ho hw htemp hclaim hpresent)
  rintro - _ ⟨rfl, hno⟩
  apply Program.Spec.mono (spec_writeFile _)
  · rintro - s' rfl
    exact ⟨rfl, hno⟩
  · exact fun _ h => h

omit ho hw in
/-- Committing the record with the checksums of the manifest on disk. -/
theorem spec_commitRecord {record : ArtifactRecord} {committed : Bool}
    (hpromises : ∃ m, store.parse manifest = some m ∧ manifestDebugArchive m = .ok storedDebug) :
    StoreSpec store env w (store.commitRecord incoming manifest committed o record)
      (w.setDir o (some m)) fun _ s' => s' = w.setDir o (some
        (Function.update (Function.update m RECORD_FILE (some (.record record)))
          SHA256SUMS (some (.bytes (utf8 (checksumContents record
            (if committed then incoming.debug else storedDebug))))))) := by
  apply Program.Spec.bind (spec_writeFile _)
  rintro - _ rfl
  apply Program.Spec.bind (R := fun debug s' =>
    debug = (if committed then incoming.debug else storedDebug) ∧ s' = _)
    (spec_ofResult (committedDebug_eq hpromises) ⟨rfl, rfl⟩)
  rintro _ _ ⟨rfl, rfl⟩
  exact spec_writeFile _

/-- Repairing the debug archive and the checksums. -/
theorem spec_repairDebug (htemp : ∀ a, incoming.debug = some a →
      ¬ Exported store d (debugTemp pid a.archive))
    (hclaim : ∀ a, incoming.debug = some a →
      incoming.dist.read a.archive = .ok (contentOf incoming.dist a.archive) ∧
      checkArchiveClaim store.toCodec a (contentOf incoming.dist a.archive) = .ok ()) :
    StoreSpec store env w (store.repairDebug pid incoming o stored) (w.setDir o (some d))
      fun _ s' => s' = w.setDir o (some (Function.update (withDebug d pid incoming) SHA256SUMS
          (some (.bytes (utf8 (checksumContents stored incoming.debug)))))) ∧
        ¬ DebugConflict store (withDebug d pid incoming) incoming := by
  apply Program.Spec.bind (spec_materializeDebug ho hw htemp hclaim (.inl (SameExports.refl d)))
  rintro - _ ⟨rfl, hno⟩
  apply Program.Spec.mono (spec_writeFile _)
  · rintro - s' rfl
    exact ⟨rfl, hno⟩
  · exact fun _ h => h

end Installed

/-- What a successful import over a stored digest has computed. -/
structure Merged (store : ArtifactStore) (pid : Nat) (w : World) (o : String) (d : ObjectDir)
    (incoming : Incoming) (stored : ArtifactRecord) (manifest : Content)
    (storedDebug : Option DebugArchive) (existing : ArtifactRecord) (enriched : Bool)
    (plan : MergePlan) (record : ArtifactRecord) (s' : World) : Prop where
  record_file : d RECORD_FILE = some (.record stored)
  manifest_file : d MANIFEST_FILE = some manifest
  promises : ∃ m, store.parse (store.contentBytes manifest) = some m ∧
    manifestDebugArchive m = .ok storedDebug
  identity : mergeIdentity stored incoming
    (store.contentBytes manifest == incoming.manifestBytes) = .ok (existing, enriched)
  planned : plan = mergePlan pid d existing enriched
    (store.contentBytes manifest == incoming.manifestBytes) incoming storedDebug
  recorded : record = plan.record
  state : s' = { w.setDir o (some plan.files) with
    index := some (upsertRecord record (indexed w)) }
  sbom : ∀ e, incoming.sbom = some e → ∃ c, plan.attached SBOM_FILE = some c ∧
    checkEvidence store.toCodec e (store.contentBytes c) = .ok ()
  provenance : ∀ e, incoming.provenance = some e → ∃ c,
    plan.attached PROVENANCE_FILE = some c ∧
    checkEvidence store.toCodec e (store.contentBytes c) = .ok ()
  repaired : store.contentBytes manifest = incoming.manifestBytes →
    ¬ DebugConflict store (withDebug d pid incoming) incoming
  committed : plan.commits → ¬ DebugConflict store (withDebug plan.attached pid incoming) incoming

/-- A bound sidecar is the incoming one. -/
theorem checkEvidence_bound {dist : Directory} {file : String}
    {stored : Option EvidenceDigest} {check : Bytes → Result Unit} {e : EvidenceDigest}
    {c : Content} (hfits : ∀ e, stored = some e → ∀ c, d e.path = some c →
      checkEvidence store.toCodec e (store.contentBytes c) = .ok ())
    (hm : m file = d file ∨ m file = some (.bytes (contentOf dist file)))
    (hdescribes : Describes store.toCodec dist file check e) (hstored : stored = some e)
    (hc : m file = some c) : checkEvidence store.toCodec e (store.contentBytes c) = .ok () := by
  rcases hm with hsame | hput
  · exact hfits e hstored c (hdescribes.path.symm ▸ hsame ▸ hc)
  · obtain rfl := Option.some.inj (hput.symm.trans hc)
    rw [checkEvidence_ok, hdescribes.2.1]
    exact ⟨rfl, rfl⟩

/-- An import over a stored digest computes its plan, or fails in an untouched store. -/
theorem spec_importPresent (ho : ¬ isTemporary o) (hw : w.objects o = some d)
    (hobject : incoming.record.digestHex = o) (hsound : SoundDir store o d)
    (hchecked : incoming.Checked store.toCodec base source createdUnix)
    (hsafe : ∀ stored c, d RECORD_FILE = some (.record stored) → d MANIFEST_FILE = some c →
      MergeSafe store pid d stored (store.contentBytes c) incoming) :
    StoreSpec store env w (store.importPresent pid incoming) w fun outcome s' =>
      ∃ stored manifest storedDebug existing enriched plan, Merged store pid w o d incoming stored
        manifest storedDebug existing enriched plan outcome.record s' := by
  subst hobject
  have hrefl : SameExports store d d := SameExports.refl d
  conv => arg 5; rw [← World.setDir_self hw]
  unfold importPresent
  apply Program.Spec.bind (spec_readRecord hw hrefl)
  rintro _ _ ⟨rfl, stored, hrecord, rfl⟩
  obtain ⟨r, heq, hr⟩ := hsound.record _ hrecord
  obtain rfl : stored = r := by simpa using heq
  obtain ⟨storedSbom, storedProvenance, hevidence, hfits⟩ := hr.evidence
  obtain ⟨hstoredSbom, hstoredProvenance⟩ := evidence_ok.mp hevidence
  rw [migrate_eq_self hr.imported]
  apply Program.Spec.bind (spec_readContent hw fun _ => hrefl)
  rintro _ _ ⟨rfl, manifest, hmanifest, rfl⟩
  obtain ⟨m, storedDebug, hparse, hpromised⟩ := hsound.manifest _ hmanifest
  have hpromises : ∃ m, store.parse (store.contentBytes manifest) = some m ∧
    manifestDebugArchive m = .ok storedDebug := ⟨m, hparse, hpromised⟩
  obtain ⟨htemps, hsbomSize, hprovenanceSize, hsafeDebug⟩ := hsafe stored manifest hrecord hmanifest
  have hdebugTemp : ∀ a, incoming.debug = some a → ¬ Exported store d (debugTemp pid a.archive) :=
    fun a ha => htemps _ (.inr ⟨a, ha, rfl⟩)
  generalize hcommitted : (store.contentBytes manifest == incoming.manifestBytes) = committed
  apply Program.Spec.bind (R := fun merged s' =>
    s' = w.setDir incoming.record.digestHex (some d) ∧
      mergeIdentity stored incoming committed = .ok merged)
    (spec_check (hrefl.untouched hw) fun merged hmerged => ⟨rfl, hmerged⟩)
  rintro ⟨existing, enriched⟩ _ ⟨rfl, hidentity⟩
  obtain ⟨source', dependencies, compatibility, verification, hexisting⟩ :=
    mergeIdentity_frame hidentity
  have hsbomDigest : existing.sbomDigest = stored.sbomDigest := by rw [hexisting]
  have hprovenanceDigest : existing.provenanceDigest = stored.provenanceDigest := by
    rw [hexisting]
  -- the debug archive of the stored manifest
  let plan := mergePlan pid d existing enriched committed incoming storedDebug
  apply Program.Spec.bind (R := fun _ s' =>
    s' = w.setDir incoming.record.digestHex (some plan.start) ∧
      (committed = true → ¬ DebugConflict store (withDebug d pid incoming) incoming))
  · apply spec_when
    · intro hrepairs
      rw [show plan.start = _ from if_pos hrepairs]
      apply Program.Spec.mono (spec_repairDebug ho hw hdebugTemp hchecked.debug_claim)
      · exact fun _ s' ⟨hs', hno⟩ => ⟨hs', fun _ => hno⟩
      · exact fun _ h => h
    · intro hskips
      rw [show plan.start = _ from if_neg (by simp [hskips])]
      refine ⟨rfl, ?_⟩
      rintro rfl ⟨a, c, ha, -⟩
      simp [ha] at hskips
  rintro - _ ⟨rfl, hrepaired⟩
  -- the two sidecars
  have hstart : ∀ file, ¬ isTemporary file → file ≠ SHA256SUMS →
      plan.start file = d file ∨
        plan.start file = some (.bytes (contentOf incoming.dist file)) := by
    intro file htemp hsums
    rcases repairedDir_cases d pid existing committed incoming htemp hsums with hsame | ⟨-, -, hput⟩
    · exact .inl hsame
    · exact .inr hput
  apply Program.Spec.bind (spec_attach ho hw
    (fun e he => htemps _ (.inl ⟨e, .inl he, rfl⟩)) hchecked.sbom
    fun e c he hc hdigest => .inl (checkEvidence_bound (fun e he => hfits e (by simp [he]))
      (hstart _ (by decide) (by decide)) (hchecked.sbom e he)
      (eq_of_reference hstoredSbom (hsbomDigest ▸ hdigest)
        (hsbomSize e he (hsbomDigest ▸ hdigest)) (hchecked.sbom_path e he)) hc))
  rintro _ _ ⟨rfl, rfl, hsbom⟩
  have hprovenanceFile : attachTo plan.start pid existing.sbomDigest incoming.dist incoming.sbom
      PROVENANCE_FILE = plan.start PROVENANCE_FILE :=
    attachTo_of_ne hchecked.sbom_path (by decide) (by decide)
  apply Program.Spec.bind (spec_attach ho hw
    (fun e he => htemps _ (.inl ⟨e, .inr he, rfl⟩)) hchecked.provenance
    fun e c he hc hdigest => .inl (checkEvidence_bound (fun e he => hfits e (by simp [he]))
      (hstart _ (by decide) (by decide)) (hchecked.provenance e he)
      (eq_of_reference hstoredProvenance (hprovenanceDigest ▸ hdigest)
        (hprovenanceSize e he (hprovenanceDigest ▸ hdigest)) (hchecked.provenance_path e he))
      (hprovenanceFile ▸ hc)))
  rintro _ _ ⟨rfl, rfl, hprovenance⟩
  rw [attaches_congr hchecked.provenance_path hprovenanceFile]
  have hfound : ∀ e, incoming.sbom = some e → ∃ c, plan.attached SBOM_FILE = some c ∧
      checkEvidence store.toCodec e (store.contentBytes c) = .ok () := by
    intro e he
    rw [show plan.attached SBOM_FILE = _ from attachSidecars_sbom hchecked]
    exact hsbom e he
  -- the manifest that the new provenance or the new identity belongs to
  apply Program.Spec.bind (R := fun _ s' =>
    s' = w.setDir incoming.record.digestHex (some plan.manifested) ∧
      (plan.commits → ¬ DebugConflict store (withDebug plan.attached pid incoming) incoming))
  · apply spec_when
    · intro (hcommits : plan.commits = true)
      rw [show plan.manifested = _ from if_pos hcommits]
      have hpresent : SameExports store d plan.attached ∨
          ¬ DebugConflict store plan.attached incoming := by
        obtain rfl : committed = false := by
          simpa [plan, mergePlan] using And.right (Bool.and_eq_true_iff.mp hcommits)
        have hattached : plan.attached = attachSidecars d pid stored incoming := by
          simp only [plan, mergePlan, hexisting]
          rfl
        by_cases hsame : SameExports store d plan.attached
        · exact .inl hsame
        · right
          rw [hattached] at hsame ⊢
          apply hsafeDebug (by simpa using hcommitted) hsame
          rw [enrichedBy_eq hidentity, ← hprovenanceDigest]
          exact Bool.or_eq_true_iff.mp (Bool.and_eq_true_iff.mp hcommits).1
      apply Program.Spec.mono
        (spec_commitManifest ho hw hdebugTemp hchecked.debug_claim hpresent)
      · exact fun _ s' ⟨hs', hno⟩ => ⟨hs', fun _ => hno⟩
      · exact fun _ h => h
    · intro (hkeeps : plan.commits = false)
      rw [show plan.manifested = _ from if_neg (ne_of_eq_of_ne hkeeps Bool.false_ne_true)]
      exact ⟨rfl, fun hcommits => absurd hcommits (by simp [hkeeps])⟩
  rintro - _ ⟨rfl, hcommittedDebug⟩
  apply Program.Spec.bind (R := fun _ s' =>
    s' = w.setDir incoming.record.digestHex (some plan.files))
  · apply spec_when
    · intro (hchanged : plan.changed = true)
      have hfiles : plan.files =
          Function.update (Function.update plan.manifested RECORD_FILE (some (.record plan.record)))
            SHA256SUMS (some (.bytes (utf8 (checksumContents plan.record
              (if committed || plan.commits then incoming.debug else storedDebug))))) :=
        if_pos hchanged
      rw [hfiles]
      exact spec_commitRecord hpromises
    · intro (hsame : plan.changed = false)
      have hfiles : plan.files = plan.manifested := if_neg (ne_of_eq_of_ne hsame Bool.false_ne_true)
      rw [hfiles]
  rintro - _ rfl
  have hindex : (w.setDir incoming.record.digestHex (some plan.files)).index = w.index := rfl
  apply Program.Spec.bind (spec_indexUpsert id hindex)
  rintro - _ rfl
  apply Program.Spec.pure
  refine ⟨stored, manifest, storedDebug, existing, enriched, plan, ?_⟩
  exact {
    record_file := hrecord
    manifest_file := hmanifest
    promises := hpromises
    identity := hcommitted ▸ hidentity
    planned := hcommitted ▸ rfl
    recorded := rfl
    state := rfl
    sbom := hfound
    provenance := hprovenance
    repaired := fun hsame => hrepaired (by simpa [hsame] using hcommitted.symm)
    committed := hcommittedDebug }

end ArtifactStore

/-! ## A merged directory is sound -/

section Soundness

open ArtifactStore (Merged)

variable {store : ArtifactStore} {pid : Nat} {w s : World} {o name : String} {d : ObjectDir}
  {incoming : Incoming} {stored existing base record : ArtifactRecord} {manifest : Content}
  {storedDebug : Option DebugArchive} {enriched committed : Bool} {plan : MergePlan}
  {source : ArtifactSource} {createdUnix : Nat}

/-- The incoming sidecars replace the references to the stored ones. -/
theorem ArtifactRecord.withSidecars_eq (r : ArtifactRecord) (e e' : Option EvidenceDigest) :
    (r.withSbom e).withProvenance e' = { r with
      sbom := (e.map (·.path)).or r.sbom
      sbomDigest := (e.map (·.digest)).or r.sbomDigest
      sbomSize := (e.map (·.size)).or r.sbomSize
      provenance := (e'.map (·.path)).or r.provenance
      provenanceDigest := (e'.map (·.digest)).or r.provenanceDigest
      provenanceSize := (e'.map (·.size)).or r.provenanceSize } := by
  cases e <;> cases e' <;> rfl

/-- An incoming sidecar replaces a reference. -/
theorem recordEvidence_or {path digest : Option String} {size : Option Nat}
    {label file : String} {reference evidence : Option EvidenceDigest}
    (h : recordEvidence path digest size label file = .ok reference)
    (hpath : ∀ e, evidence = some e → e.path = file) :
    recordEvidence ((evidence.map (·.path)).or path) ((evidence.map (·.digest)).or digest)
      ((evidence.map (·.size)).or size) label file = .ok (evidence.or reference) := by
  cases evidence with
  | none => exact h
  | some e => exact recordEvidence_ok.mpr ⟨rfl, rfl, rfl, fun _ he => hpath _ he⟩

/-- An incoming sidecar that is bound is the one referred to. -/
theorem or_of_not_attaches {m : ObjectDir} {path digest : Option String} {size : Option Nat}
    {label file : String} {reference evidence : Option EvidenceDigest}
    (h : recordEvidence path digest size label file = .ok reference)
    (hpath : ∀ e, evidence = some e → e.path = file)
    (hsize : ∀ e, evidence = some e → digest = some e.digest → size = some e.size)
    (hbound : attaches m digest evidence = false) : evidence.or reference = reference := by
  cases evidence with
  | none => rfl
  | some e =>
    simp only [attaches, isBound, Bool.not_eq_false', Bool.and_eq_true, decide_eq_true_eq]
      at hbound
    exact (eq_of_reference h hbound.1 (hsize e rfl hbound.1) (hpath e rfl)).symm

namespace ArtifactStore.Merged

variable (h : Merged store pid w o d incoming stored manifest storedDebug existing enriched plan
  record s)

include h

/-- A merge keeps everything of the stored record but its identities and its references. -/
theorem record_frame : record.digest = stored.digest ∧ record.importedBy = stored.importedBy ∧
    record.archive = stored.archive ∧ record.archiveSize = stored.archiveSize ∧
    record.name = stored.name ∧ record.version = stored.version ∧ record.kind = stored.kind ∧
    record.target = stored.target := by
  obtain ⟨source', dependencies, compatibility, verification, rfl⟩ :=
    mergeIdentity_frame h.identity
  rw [h.recorded, h.planned]
  simp only [mergePlan]
  split
  · rw [ArtifactRecord.withSidecars_eq]
    exact ⟨rfl, rfl, rfl, rfl, rfl, rfl, rfl, rfl⟩
  · exact ⟨rfl, rfl, rfl, rfl, rfl, rfl, rfl, rfl⟩

/-- A merged record refers to the incoming sidecars, and to the stored ones where nothing
came in. -/
theorem evidence_eq (hchecked : incoming.Checked store.toCodec base source createdUnix)
    (hsafe : MergeSafe store pid d stored (store.contentBytes manifest) incoming)
    {sbom provenance : Option EvidenceDigest}
    (hstored : ArtifactStore.evidence stored = .ok (sbom, provenance)) :
    ArtifactStore.evidence record =
      .ok (incoming.sbom.or sbom, incoming.provenance.or provenance) := by
  obtain ⟨hsbom, hprovenance⟩ := evidence_ok.mp hstored
  obtain ⟨source', dependencies, compatibility, verification, hexisting⟩ :=
    mergeIdentity_frame h.identity
  rw [evidence_ok, h.recorded, h.planned]
  simp only [mergePlan]
  split
  · rw [ArtifactRecord.withSidecars_eq, hexisting]
    exact ⟨recordEvidence_or hsbom hchecked.sbom_path,
      recordEvidence_or hprovenance hchecked.provenance_path⟩
  · next hunchanged =>
    simp only [Bool.or_eq_true, not_or, Bool.not_eq_true] at hunchanged
    obtain ⟨⟨hsbomBound, hprovenanceBound⟩, -⟩ := hunchanged
    have hsbomDigest : existing.sbomDigest = stored.sbomDigest := by rw [hexisting]
    have hprovenanceDigest : existing.provenanceDigest = stored.provenanceDigest := by
      rw [hexisting]
    rw [hsbomDigest] at hsbomBound
    rw [hprovenanceDigest] at hprovenanceBound
    rw [or_of_not_attaches hsbom hchecked.sbom_path hsafe.sbom hsbomBound,
      or_of_not_attaches hprovenance hchecked.provenance_path hsafe.provenance hprovenanceBound,
      hexisting]
    exact ⟨hsbom, hprovenance⟩

theorem start_eq : plan.start = repairedDir d pid existing
    (store.contentBytes manifest == incoming.manifestBytes) incoming := by
  rw [h.planned]
  rfl

theorem attached_eq : plan.attached = attachSidecars plan.start pid existing incoming := by
  rw [h.planned]
  rfl

theorem manifested_eq : plan.manifested = if plan.commits then
      Function.update (withDebug plan.attached pid incoming) MANIFEST_FILE
        (some (.bytes incoming.manifestBytes))
    else plan.attached := by
  rw [h.planned]
  rfl

theorem files_eq : plan.files = if plan.changed then
      Function.update (Function.update plan.manifested RECORD_FILE (some (.record record)))
        SHA256SUMS (some (.bytes (utf8 (checksumContents record plan.debug))))
    else plan.manifested := by
  rw [h.recorded, h.planned]
  rfl

/-- A merge that changes nothing leaves the stored record and commits nothing. -/
theorem of_unchanged (hchanged : plan.changed = false) :
    record = stored ∧ existing = stored ∧ plan.commits = false ∧ enriched = false := by
  have hrecord := h.recorded
  rw [h.planned] at hchanged hrecord ⊢
  simp only [mergePlan] at hchanged hrecord ⊢
  rw [hchanged, if_neg Bool.false_ne_true] at hrecord
  simp only [Bool.or_eq_false_iff] at hchanged
  obtain ⟨⟨-, hprovenance⟩, rfl⟩ := hchanged
  have hsame : existing = stored := by
    rcases (mergeIdentity_ok h.identity).2 with ⟨heq, -⟩ | ⟨-, hfalse, -⟩
    · exact heq
    · cases hfalse
  exact ⟨hrecord.trans hsame, hsame, by simp [hprovenance], rfl⟩

/-- A file that is there and that no sidecar stands for is not attached anew. -/
theorem attached_of_isSome (hchecked : incoming.Checked store.toCodec base source createdUnix)
    (htemp : ¬ isTemporary name) (hsums : name ≠ SHA256SUMS) (hsbom : name ≠ SBOM_FILE)
    (hprovenance : name ≠ PROVENANCE_FILE) (hsome : (d name).isSome) :
    plan.attached name = d name := by
  rw [h.attached_eq, attachSidecars_of_ne hchecked htemp hsbom hprovenance, h.start_eq]
  rcases repairedDir_cases d pid existing _ incoming htemp hsums with hsame | ⟨hnone, -⟩
  · exact hsame
  · rw [hnone] at hsome
    cases hsome

/-- The record file of a merged directory is the record that was indexed. -/
theorem files_record (hchecked : incoming.Checked store.toCodec base source createdUnix) :
    plan.files RECORD_FILE = some (.record record) := by
  have hattached : plan.attached RECORD_FILE = d RECORD_FILE :=
    h.attached_of_isSome hchecked (by decide) (by decide) (by decide) (by decide)
      (by simp [h.record_file])
  rw [h.files_eq]
  cases hchanged : plan.changed with
  | true => rw [if_pos rfl, Function.update_of_ne (by decide), Function.update_self]
  | false =>
    obtain ⟨hrecord, -, hcommits, -⟩ := h.of_unchanged hchanged
    rw [if_neg Bool.false_ne_true, h.manifested_eq, hcommits, if_neg Bool.false_ne_true,
      hattached, h.record_file, hrecord]

/-- A merge keeps the manifest, or commits the incoming one. -/
theorem files_manifest (hchecked : incoming.Checked store.toCodec base source createdUnix) :
    plan.files MANIFEST_FILE =
      some (if plan.commits then .bytes incoming.manifestBytes else manifest) := by
  have hattached : plan.attached MANIFEST_FILE = some manifest := by
    rw [h.attached_of_isSome hchecked (by decide) (by decide) (by decide) (by decide)
      (by simp [h.manifest_file]), h.manifest_file]
  have hmanifested : plan.manifested MANIFEST_FILE =
      some (if plan.commits then .bytes incoming.manifestBytes else manifest) := by
    rw [h.manifested_eq]
    split
    · exact Function.update_self _ _ _
    · exact hattached
  rw [h.files_eq]
  split
  · rw [Function.update_of_ne (by decide), Function.update_of_ne (by decide), hmanifested]
  · exact hmanifested

/-- A file that the store does not write itself is the attached one, or the debug archive of
the incoming directory where there was none. -/
theorem file_cases (htemp : ¬ isTemporary name) (hrecord : name ≠ RECORD_FILE)
    (hsums : name ≠ SHA256SUMS) (hmanifest : name ≠ MANIFEST_FILE) :
    plan.files name = plan.attached name ∨
      plan.attached name = none ∧ (∃ a, incoming.debug = some a ∧ a.archive = name) ∧
        plan.files name = some (.bytes (contentOf incoming.dist name)) := by
  have hfiles : plan.files name = plan.manifested name := by
    rw [h.files_eq]
    split
    · rw [Function.update_of_ne hsums, Function.update_of_ne hrecord]
    · rfl
  rw [hfiles, h.manifested_eq]
  split
  · rw [Function.update_of_ne hmanifest]
    exact withDebug_cases plan.attached pid incoming htemp
  · exact .inl rfl

/-- A sidecar file that is not in the incoming directory stays as it was. -/
theorem files_of_absent (hchecked : incoming.Checked store.toCodec base source createdUnix)
    (habsent : incoming.dist.exists? name = false) (htemp : ¬ isTemporary name)
    (hrecord : name ≠ RECORD_FILE) (hsums : name ≠ SHA256SUMS) (hmanifest : name ≠ MANIFEST_FILE)
    (hattached : plan.attached name = plan.start name) : plan.files name = d name := by
  have hdebug : ∀ a, incoming.debug = some a → a.archive ≠ name := by
    rintro a ha rfl
    rw [hchecked.debug_exists ha] at habsent
    cases habsent
  rcases h.file_cases htemp hrecord hsums hmanifest with hsame | ⟨-, ⟨a, ha, hname⟩, -⟩
  · rw [hsame, hattached, h.start_eq]
    rcases repairedDir_cases d pid existing _ incoming htemp hsums with
      hkept | ⟨-, ⟨a, ha, hname⟩, -⟩
    · exact hkept
    · exact absurd hname (hdebug a ha)
  · exact absurd hname (hdebug a ha)

/-- An incoming sidecar is there. -/
theorem files_of_attached {e : EvidenceDigest} (htemp : ¬ isTemporary name)
    (hrecord : name ≠ RECORD_FILE) (hsums : name ≠ SHA256SUMS) (hmanifest : name ≠ MANIFEST_FILE)
    (hfound : ∃ c, plan.attached name = some c ∧
      checkEvidence store.toCodec e (store.contentBytes c) = .ok ()) :
    ∃ c, plan.files name = some c ∧
      checkEvidence store.toCodec e (store.contentBytes c) = .ok () := by
  obtain ⟨c, hc, hcheck⟩ := hfound
  rcases h.file_cases htemp hrecord hsums hmanifest with hsame | ⟨hnone, -⟩
  · exact ⟨c, hsame.trans hc, hcheck⟩
  · rw [hc] at hnone
    cases hnone

/-- The sidecars that a merged record refers to are the ones that are there. -/
theorem evidence_fits (hchecked : incoming.Checked store.toCodec base source createdUnix)
    {sbom provenance : Option EvidenceDigest}
    (hstored : ArtifactStore.evidence stored = .ok (sbom, provenance))
    (hfits : ∀ e ∈ sbom.toList ++ provenance.toList, ∀ c, d e.path = some c →
      checkEvidence store.toCodec e (store.contentBytes c) = .ok ())
    {e : EvidenceDigest} {c : Content}
    (he : e ∈ (incoming.sbom.or sbom).toList ++ (incoming.provenance.or provenance).toList)
    (hc : plan.files e.path = some c) :
    checkEvidence store.toCodec e (store.contentBytes c) = .ok () := by
  obtain ⟨hsbom, hprovenance⟩ := evidence_ok.mp hstored
  have hsbomPath := (recordEvidence_ok.mp hsbom).2.2.2
  have hprovenancePath := (recordEvidence_ok.mp hprovenance).2.2.2
  simp only [List.mem_append, Option.mem_toList] at he
  rcases he with he | he
  · rcases Option.or_eq_some_iff.mp he with hin | ⟨hnone, hkept⟩
    · obtain ⟨c', hc', hcheck⟩ := h.files_of_attached (by decide) (by decide) (by decide)
        (by decide) (h.sbom e hin)
      rw [hchecked.sbom_path e hin, hc'] at hc
      cases hc
      exact hcheck
    · apply hfits e (by simp [hkept]) c
      rw [← hc, hsbomPath e hkept]
      refine (h.files_of_absent hchecked (hchecked.sbom_absent hnone) (by decide) (by decide)
        (by decide) (by decide) ?_).symm
      rw [h.attached_eq, attachSidecars_sbom hchecked, hnone]
      rfl
  · rcases Option.or_eq_some_iff.mp he with hin | ⟨hnone, hkept⟩
    · obtain ⟨c', hc', hcheck⟩ := h.files_of_attached (by decide) (by decide) (by decide)
        (by decide) (h.provenance e hin)
      rw [hchecked.provenance_path e hin, hc'] at hc
      cases hc
      exact hcheck
    · apply hfits e (by simp [hkept]) c
      rw [← hc, hprovenancePath e hkept]
      refine (h.files_of_absent hchecked (hchecked.provenance_absent hnone) (by decide)
        (by decide) (by decide) (by decide) ?_).symm
      rw [h.attached_eq, attachSidecars, hnone]
      exact attachTo_of_ne hchecked.sbom_path (by decide) (by decide)

/-- A merged directory is sound. -/
theorem soundDir (hchecked : incoming.Checked store.toCodec base source createdUnix)
    (hsafe : MergeSafe store pid d stored (store.contentBytes manifest) incoming)
    (hsound : SoundDir store o d) : SoundDir store o plan.files where
  record := by
    intro c hc
    rw [h.files_record hchecked] at hc
    cases hc
    obtain ⟨r, heq, hr⟩ := hsound.record _ h.record_file
    obtain rfl : stored = r := by simpa using heq
    obtain ⟨sbom, provenance, hevidence, hfits⟩ := hr.evidence
    obtain ⟨hdigest, himported, -⟩ := h.record_frame
    refine ⟨record, rfl, ?_, hdigest ▸ hr.digest, himported ▸ hr.imported, _, _,
      h.evidence_eq hchecked hsafe hevidence, fun e he c hc => ?_⟩
    · rw [ArtifactRecord.digestHex, hdigest]
      exact hr.object
    · exact h.evidence_fits hchecked hevidence hfits he hc
  manifest := by
    intro c hc
    rw [h.files_manifest hchecked] at hc
    cases hc
    split
    · exact ⟨incoming.manifest, incoming.debug, hchecked.parsed, hchecked.debug⟩
    · obtain ⟨m, hparse, hdebug⟩ := h.promises
      exact ⟨m, storedDebug, hparse, hdebug⟩

end ArtifactStore.Merged

end Soundness

end OpenStrata
