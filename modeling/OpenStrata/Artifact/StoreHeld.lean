import OpenStrata.Artifact.StoreRuns

/-!
# What the store holds whatever happens

Some facts about the store need no care of its callers: a merge that fails half way may leave
sidecars that fit no record, but no call ever overwrites `record.json` or `manifest.json`
except with a record of the same digest and a manifest that was read. So every installed
directory has a record of its own digest, and the index stays in order.

## Main definitions

* `FiledRecord`, `FiledDir`, `Filed`: a record under its digest, a directory and a store of
  such records
* `Held`: a store that has changed inside one directory only, and what this holds
* `StoreOp.Spares`: an operation that touches neither record nor manifest

## Main results

* `ArtifactStore.spec_importPresent_held`: what an import over a stored digest holds
* `ArtifactStore.spec_removal`: what a removal leaves, whole or interrupted
-/

namespace OpenStrata

/-- A record of a well-formed digest, in the directory of that digest. -/
structure FiledRecord (o : String) (r : ArtifactRecord) : Prop where
  object : r.digestHex = o
  digest : isSha256Ref r.digest
  imported : r.importedBy.isEmpty = false

/-- The record of a directory is filed under its digest, and its manifest can be read. -/
structure FiledDir (store : ArtifactStore) (o : String) (d : ObjectDir) : Prop where
  record : ∀ c, d RECORD_FILE = some c → ∃ r, c = .record r ∧ FiledRecord o r
  manifest : ∀ c, d MANIFEST_FILE = some c → ∃ m debug,
    store.parse (store.contentBytes c) = some m ∧ manifestDebugArchive m = .ok debug

/-- Every installed directory is filed, and the index is in strict order of canonical digests
whose directories have a record. -/
structure Filed (store : ArtifactStore) (w : World) : Prop where
  dirs : ∀ o d, ¬ isTemporary o → w.objects o = some d → FiledDir store o d
  sorted : (w.index.getD []).Pairwise (·.digest < ·.digest)
  index : ∀ r ∈ w.index.getD [], isCanonicalSha256 r.digest ∧ r.importedBy.isEmpty = false ∧
    ∃ r', w.file? r.digestHex RECORD_FILE = some (.record r')

section Filed

variable {store : ArtifactStore} {w s : World} {o : String} {d d' : ObjectDir}
  {r record : ArtifactRecord}

theorem isSha256Ref_of_canonical {digest : String} (h : isCanonicalSha256 digest) :
    isSha256Ref digest := by
  unfold isCanonicalSha256 at h
  unfold isSha256Ref
  cases hhex : Text.stripPrefix "sha256:" digest with
  | none => simp [hhex] at h
  | some hex =>
    simp only [hhex, Bool.and_eq_true] at h ⊢
    exact ⟨h.1, Text.all_imp (fun _ => Text.isHexDigit_of_lower) h.2⟩

/-- A digest that was computed is canonical when it is well formed. -/
theorem isCanonicalSha256_sha256Hex {codec : Codec} {bytes : Bytes}
    (h : isSha256Ref (sha256Hex codec bytes)) : isCanonicalSha256 (sha256Hex codec bytes) := by
  rw [isSha256Ref, sha256Hex, Text.stripPrefix_append] at h
  rw [isCanonicalSha256, sha256Hex, Text.stripPrefix_append]
  simp only [Bool.and_eq_true] at h ⊢
  exact ⟨h.1, all_lower_renderHex _⟩

/-- A directory stays filed when record and manifest stay or go. -/
theorem FiledDir.mono (h : FiledDir store o d)
    (hrecord : ∀ c, d' RECORD_FILE = some c → d RECORD_FILE = some c)
    (hmanifest : ∀ c, d' MANIFEST_FILE = some c → d MANIFEST_FILE = some c) :
    FiledDir store o d' :=
  ⟨fun c hc => h.record c (hrecord c hc), fun c hc => h.manifest c (hmanifest c hc)⟩

theorem SoundDir.filed (h : SoundDir store o d) : FiledDir store o d where
  record := by
    intro c hc
    obtain ⟨r, rfl, hr⟩ := h.record c hc
    exact ⟨r, rfl, hr.object, hr.digest, hr.imported⟩
  manifest := h.manifest

theorem filed_empty : Filed store World.empty where
  dirs := by
    intro o d _ hd
    cases hd
  sorted := .nil
  index := by
    intro r hr
    cases hr

/-- The record of an index entry's directory has the digest of the entry. -/
theorem Filed.record_of_index (h : Filed store w) (hr : r ∈ w.index.getD []) :
    ∃ r', w.file? r.digestHex RECORD_FILE = some (.record r') ∧
      FiledRecord r.digestHex r' ∧ r'.digest = r.digest := by
  obtain ⟨hcanonical, -, r', hfile⟩ := h.index r hr
  have hdigest := isSha256Ref_of_canonical hcanonical
  obtain ⟨d, hd, hrecord⟩ := Option.bind_eq_some_iff.mp hfile
  obtain ⟨r'', heq, hfiled⟩ := (h.dirs _ d (not_isTemporary_digestHex hdigest) hd).record _ hrecord
  cases heq
  exact ⟨r', hfile, hfiled, digest_eq_of_digestHex hfiled.digest hdigest hfiled.object⟩

/-- The entries of the index are read as they stand. -/
theorem Filed.indexed_eq (h : Filed store w) : indexed w = w.index.getD [] := by
  rw [indexed, ← List.map_id (w.index.getD []), List.map_map]
  exact List.map_congr_left fun r hr => migrate_eq_self (h.index r hr).2.1

theorem Filed.nodup (h : Filed store w) : ((w.index.getD []).map (·.digest)).Nodup :=
  List.pairwise_map.mpr (h.sorted.imp fun hlt => hlt.ne)

end Filed

/-! ## The index in order -/

section Order

variable {record : ArtifactRecord} {artifacts : List ArtifactRecord} {digest : String}

theorem pairwise_lt_sortBy {l : List ArtifactRecord} (h : (l.map (·.digest)).Nodup) :
    (SortBy.sortBy (·.digest) l).Pairwise (·.digest < ·.digest) := by
  have hnodup : ((SortBy.sortBy (·.digest) l).map (·.digest)).Nodup :=
    ((SortBy.perm_sortBy _ l).map _).nodup_iff.mpr h
  have hle := SortBy.pairwise_sortBy (·.digest) l
  have hne := List.pairwise_map.mp hnodup
  exact (hle.and hne).imp fun ⟨hle, hne⟩ => lt_of_le_of_ne hle hne

theorem pairwise_upsertRecord (h : (artifacts.map (·.digest)).Nodup) :
    (upsertRecord record artifacts).Pairwise (·.digest < ·.digest) := by
  refine pairwise_lt_sortBy ?_
  rw [List.map_append, List.nodup_append]
  refine ⟨(List.filter_sublist.map _).nodup h, by simp, ?_⟩
  intro a ha b hb heq
  obtain ⟨r, hr, rfl⟩ := List.mem_map.mp ha
  obtain rfl : b = record.digest := by simpa using hb
  simpa [heq] using (List.mem_filter.mp hr).2

theorem pairwise_dropDigest (h : (artifacts.map (·.digest)).Nodup) :
    (dropDigest digest artifacts).Pairwise (·.digest < ·.digest) :=
  pairwise_lt_sortBy ((List.filter_sublist.map _).nodup h)

end Order

/-! ## One directory at work -/

/-- Only one directory has changed; it holds this record and a readable manifest. -/
structure Held (store : ArtifactStore) (o : String) (r : ArtifactRecord) (w s : World) :
    Prop where
  index : s.index = w.index
  others : ∀ o', o' ≠ o → s.objects o' = w.objects o'
  record : s.file? o RECORD_FILE = some (.record r)
  manifest : ∃ c m debug, s.file? o MANIFEST_FILE = some c ∧
    store.parse (store.contentBytes c) = some m ∧ manifestDebugArchive m = .ok debug

/-- The two files no operation on other files concerns. -/
def isIdentityFile (name : String) : Prop := name = RECORD_FILE ∨ name = MANIFEST_FILE

instance : DecidablePred isIdentityFile := fun name =>
  inferInstanceAs (Decidable (name = RECORD_FILE ∨ name = MANIFEST_FILE))

/-- An operation inside a directory that changes neither record nor manifest. -/
def StoreOp.Spares (o : String) : StoreOp → Prop
  | .probeFile o' _ | .readFile o' _ => o' = o
  | .copyFile o' name _ | .writeAtomic o' name _ | .removeFile o' name =>
    o' = o ∧ ¬ isIdentityFile name
  | .renameFile o' source target => o' = o ∧ ¬ isIdentityFile source ∧ ¬ isIdentityFile target
  | _ => False

section Held

variable {store : ArtifactStore} {w s : World} {o name : String} {r record : ArtifactRecord}

theorem Held.setFile (h : Held store o r w s) (hname : ¬ isIdentityFile name)
    (content : Option Content) : Held store o r w (s.setFile o name content) := by
  rw [isIdentityFile, not_or] at hname
  unfold World.setFile
  split
  · exact h
  · next d hd =>
    have hfile : ∀ other, other ≠ name →
        (s.setDir o (some (Function.update d name content))).file? o other = s.file? o other := by
      intro other hne
      rw [World.file?_setDir, Function.update_of_ne hne, World.file?_eq hd]
    refine ⟨h.index, fun o' ho' => ?_, ?_, ?_⟩
    · rw [World.objects_setDir_of_ne _ ho']
      exact h.others o' ho'
    · rw [hfile _ (Ne.symm hname.1)]
      exact h.record
    · rw [hfile _ (Ne.symm hname.2)]
      exact h.manifest

/-- A sparing operation holds what the directory holds, whether it faults or not. -/
theorem Held.step (h : Held store o r w s) {op : StoreOp} (hop : op.Spares o)
    (fault : Option StoreFault) : Held store o r w (World.step op fault s).2 := by
  cases op with
  | probeFile | readFile => exact h
  | copyFile =>
    obtain ⟨rfl, hname⟩ := hop
    simp only [World.step_copyFile]
    split
    · exact h
    · split
      · exact h.setFile hname _
      · exact h.setFile hname _
      · exact h
  | renameFile =>
    obtain ⟨rfl, hsource, htarget⟩ := hop
    simp only [World.step_renameFile]
    split
    · exact (h.setFile hsource _).setFile htarget _
    · exact h
  | writeAtomic | removeFile =>
    obtain ⟨rfl, hname⟩ := hop
    simp only [World.step_writeAtomic, World.step_removeFile]
    split
    · exact h
    · exact h.setFile hname _
  | probeDir | createDir | removeDir | renameDir | readIndex | writeIndex => exact hop.elim

/-- The directory is filed when its record is. -/
theorem Held.filedDir (h : Held store o r w s) (hr : FiledRecord o r) {d : ObjectDir}
    (hd : s.objects o = some d) : FiledDir store o d where
  record := by
    intro c hc
    have hrecord := h.record
    rw [World.file?_eq hd, hc] at hrecord
    cases hrecord
    exact ⟨r, rfl, hr⟩
  manifest := by
    intro c hc
    obtain ⟨c', m, debug, hfile, hparsed⟩ := h.manifest
    rw [World.file?_eq hd, hc] at hfile
    cases hfile
    exact ⟨m, debug, hparsed⟩

/-- A store stays filed while one directory changes. -/
theorem Filed.held (hw : Filed store w) (h : Held store o r w s) (hr : FiledRecord o r) :
    Filed store s where
  dirs := by
    intro o' d ho' hd
    by_cases hne : o' = o
    · subst hne
      exact h.filedDir hr hd
    · rw [h.others o' hne] at hd
      exact hw.dirs o' d ho' hd
  sorted := by
    rw [h.index]
    exact hw.sorted
  index := by
    intro r' hr'
    rw [h.index] at hr'
    obtain ⟨hcanonical, himported, r'', hfile⟩ := hw.index r' hr'
    refine ⟨hcanonical, himported, ?_⟩
    by_cases hne : r'.digestHex = o
    · exact ⟨r, hne ▸ h.record⟩
    · refine ⟨r'', ?_⟩
      rw [World.file?, h.others _ hne]
      exact hfile

/-- A store stays filed when the record of a directory is indexed. -/
theorem Filed.upsert (hs : Filed store s) (hrecord : s.file? record.digestHex RECORD_FILE =
    some (.record record)) (hcanonical : isCanonicalSha256 record.digest)
    (himported : record.importedBy.isEmpty = false) :
    Filed store { s with index := some (upsertRecord record (indexed s)) } where
  dirs := hs.dirs
  sorted := by
    rw [hs.indexed_eq]
    exact pairwise_upsertRecord hs.nodup
  index := by
    intro r hr
    have hmem : r ∈ upsertRecord record (indexed s) := hr
    rw [mem_upsertRecord, hs.indexed_eq] at hmem
    rcases hmem with rfl | ⟨hmem, -⟩
    · exact ⟨hcanonical, himported, r, hrecord⟩
    · exact hs.index r hmem

/-- A store stays filed when an entry is dropped, and its directory loses files. -/
theorem Filed.remove (hw : Filed store w) (hr : record ∈ w.index.getD []) {d : ObjectDir}
    (hd : w.objects record.digestHex = some d) {d' : Option ObjectDir}
    (hsub : ∀ m, d' = some m → ∀ name c, m name = some c → d name = some c) :
    Filed store { w.setDir record.digestHex d' with
      index := some (dropDigest record.digest (indexed w)) } where
  dirs := by
    intro o m ho hm
    by_cases hne : o = record.digestHex
    · subst hne
      have hm' : d' = some m := by simpa using hm
      exact (hw.dirs _ d ho hd).mono (hsub m hm' _) (hsub m hm' _)
    · have hm' : w.objects o = some m := by
        rw [← World.objects_setDir_of_ne d' hne]
        exact hm
      exact hw.dirs o m ho hm'
  sorted := by
    rw [hw.indexed_eq]
    exact pairwise_dropDigest hw.nodup
  index := by
    intro r hr'
    have hmem : r ∈ dropDigest record.digest (indexed w) := hr'
    rw [mem_dropDigest, hw.indexed_eq] at hmem
    obtain ⟨hcanonical, himported, r', hfile⟩ := hw.index r hmem.1
    refine ⟨hcanonical, himported, r', ?_⟩
    have hne : r.digestHex ≠ record.digestHex := fun heq =>
      hmem.2 (digest_eq_of_digestHex (isSha256Ref_of_canonical hcanonical)
        (isSha256Ref_of_canonical (hw.index record hr).1) heq)
    show (w.setDir record.digestHex d').file? r.digestHex RECORD_FILE = _
    rw [World.file?, World.objects_setDir_of_ne _ hne]
    exact hfile

theorem Held.file?_setFile (h : Held store o r w s) (content : Option Content) (other : String) :
    (s.setFile o name content).file? o other =
      if other = name then content else s.file? o other := by
  obtain ⟨d, hd, -⟩ := Option.bind_eq_some_iff.mp h.record
  rw [World.setFile_eq hd, World.file?_setDir, World.file?_eq hd, Function.update_apply]

theorem objects_setFile_of_ne {o' : String} (content : Option Content) (hne : o' ≠ o) :
    (s.setFile o name content).objects o' = s.objects o' := by
  unfold World.setFile
  split
  · rfl
  · exact World.objects_setDir_of_ne _ hne

theorem index_setFile (content : Option Content) :
    (s.setFile o name content).index = s.index := by
  unfold World.setFile
  split <;> rfl

/-- A new record is held in place of the old one. -/
theorem Held.setRecord (h : Held store o r w s) (record : ArtifactRecord) :
    Held store o record w (s.setFile o RECORD_FILE (some (.record record))) where
  index := (index_setFile _).trans h.index
  others o' ho' := (objects_setFile_of_ne _ ho').trans (h.others o' ho')
  record := by
    rw [h.file?_setFile, if_pos rfl]
  manifest := by
    obtain ⟨c, m, debug, hfile, hparsed⟩ := h.manifest
    refine ⟨c, m, debug, ?_, hparsed⟩
    rw [h.file?_setFile, if_neg (by decide)]
    exact hfile

/-- A manifest that can be read is held in place of the old one. -/
theorem Held.setManifest (h : Held store o r w s) {content : Bytes} {m : Json}
    {debug : Option DebugArchive} (hparse : store.parse content = some m)
    (hdebug : manifestDebugArchive m = .ok debug) :
    Held store o r w (s.setFile o MANIFEST_FILE (some (.bytes content))) where
  index := (index_setFile _).trans h.index
  others o' ho' := (objects_setFile_of_ne _ ho').trans (h.others o' ho')
  record := by
    rw [h.file?_setFile, if_neg (by decide)]
    exact h.record
  manifest := by
    refine ⟨.bytes content, m, debug, ?_, hparse, hdebug⟩
    rw [h.file?_setFile, if_pos rfl]

/-- What an import over a stored digest may leave behind when it fails: the record it found, or,
after a fault, one of the same digest. -/
def LeftBehind (store : ArtifactStore) (I : World → Prop) (o : String) (stored : ArtifactRecord)
    (w s : World) : Prop :=
  s = w ∨ ∃ r, (r = stored ∨ (∃ t, I t) ∧ r.digest = stored.digest ∧
    r.importedBy = stored.importedBy) ∧ Held store o r w s

/-- What a successful import over a stored digest leaves: a record of the same digest, in its
directory and in the index. -/
def Reindexed (store : ArtifactStore) (o : String) (stored : ArtifactRecord) (w : World)
    (record : ArtifactRecord) (s : World) : Prop :=
  record.digest = stored.digest ∧ record.importedBy = stored.importedBy ∧
    ∃ t, Held store o record w t ∧
      s = { t with index := some (upsertRecord record (indexed w)) }

theorem Held.leftBehind {I : World → Prop} {stored : ArtifactRecord}
    (h : Held store o stored w s) : LeftBehind store I o stored w s :=
  .inr ⟨stored, .inl rfl, h⟩

end Held

/-! ## Imports over a stored digest -/

namespace ArtifactStore

variable {store : ArtifactStore} {env : Environment StoreOp StoreOp.Reply StoreFault}
  {I : World → Prop} {w s : World} {o name temp source : String} {dist : Directory}
  {r stored : ArtifactRecord} {incoming : Incoming} {pid : Nat}

theorem not_identity_debugTemp (archive : String) : ¬ isIdentityFile (debugTemp pid archive) :=
  not_or.mpr ⟨Ne.symm (ne_debugTemp (by decide) pid archive),
    Ne.symm (ne_debugTemp (by decide) pid archive)⟩

theorem not_identity_evidenceTemp (path : String) : ¬ isIdentityFile (evidenceTemp pid path) :=
  not_or.mpr ⟨Ne.symm (ne_evidenceTemp (by decide) pid path),
    Ne.symm (ne_evidenceTemp (by decide) pid path)⟩

/-- A sparing operation and what follows. -/
theorem spares_call {α : Type} (op : StoreOp) (hop : op.Spares o) {f : op.Reply → Action α}
    (hf : ∀ r, (f r).Calls (StoreOp.Spares o)) :
    (Action.call op >>= f).Calls (StoreOp.Spares o) :=
  ⟨hop, hf⟩

theorem spares_readContent : (store.readContent o name).Calls (StoreOp.Spares o) :=
  spares_call _ (by rfl) fun _ => trivial

theorem spares_replaceFrom (htemp : ¬ isIdentityFile temp) (hname : ¬ isIdentityFile name) :
    (store.replaceFrom dist o temp name).Calls (StoreOp.Spares o) := by
  refine Program.Calls.bind ?_ fun _ => ?_
  · exact (calls_ofResult _).bind fun _ => spares_call _ (by exact ⟨rfl, htemp⟩) fun _ => trivial
  · refine spares_call _ (by exact ⟨rfl, htemp, hname⟩) fun renamed => ?_
    cases renamed with
    | true => trivial
    | false => exact spares_call _ (by exact ⟨rfl, htemp⟩) fun _ => trivial

theorem spares_verifyStoredClaim {debug : DebugArchive} :
    (store.verifyStoredClaim o debug).Calls (StoreOp.Spares o) :=
  spares_readContent.bind fun _ => trivial

theorem spares_attachSidecar {storedDigest : Option String} {evidence : Option EvidenceDigest}
    (hpath : ∀ e, evidence = some e → ¬ isIdentityFile e.path) :
    (store.attachSidecar pid dist o storedDigest evidence).Calls (StoreOp.Spares o) := by
  cases evidence with
  | none => trivial
  | some e =>
    have hbound : (probeBound o storedDigest e).Calls (StoreOp.Spares o) := by
      unfold probeBound
      split
      · exact spares_call _ (by rfl) fun _ => trivial
      · trivial
    refine hbound.bind fun _ => (calls_when
      (spares_replaceFrom (not_identity_evidenceTemp _) (hpath e rfl))).bind fun _ => ?_
    refine Program.Calls.bind ?_ fun _ => trivial
    exact spares_readContent.bind fun _ => calls_ofResult _

/-- A sparing program holds what the directory holds. -/
theorem spec_held {α : Type} {p : Action α} (hp : p.Calls (StoreOp.Spares o))
    (h : Held store o r w s) :
    Program.Spec World.step env I (Held store o r w) p s fun _ s' => Held store o r w s' :=
  Program.Spec.of_calls hp (fun _ fault _ hop hs => hs.step hop fault) h

/-- Materialising a debug archive spares record and manifest, whatever its name: they are there
already. -/
theorem spec_materializeDebug_held (h : Held store o r w s) :
    Program.Spec World.step env I (Held store o r w) (store.materializeDebug pid incoming o) s
      fun _ s' => Held store o r w s' := by
  unfold materializeDebug
  cases incoming.debug with
  | none => exact Program.Spec.pure h
  | some debug =>
    apply Program.Spec.bind (R := fun present s' =>
      s = s' ∧ present = (s.file? o debug.archive).isSome)
    · exact Program.Spec.perform fun fault _ => ⟨rfl, rfl⟩
    rintro _ _ ⟨rfl, rfl⟩
    refine Program.Spec.bind (R := fun _ s' => Held store o r w s') ?_
      fun _ s' hs' => spec_held spares_verifyStoredClaim hs'
    by_cases hname : isIdentityFile debug.archive
    · have hpresent : (s.file? o debug.archive).isSome := by
        rcases hname with hrecord | hmanifest
        · rw [hrecord, h.record]
          rfl
        · obtain ⟨c, m, d, hfile, -⟩ := h.manifest
          rw [hmanifest, hfile]
          rfl
      rw [hpresent]
      exact Program.Spec.pure h
    · exact spec_held (calls_when (spares_replaceFrom (not_identity_debugTemp _) hname)) h

/-- A write of a file, or a fault before it. -/
theorem spec_writeFile_held (h : Held store o r w s) (content : Content)
    {Q : Unit → World → Prop} {F : World → Prop}
    (hwritten : Q () (s.setFile o name (some content))) (hfault : (∃ t, I t) → F s) :
    Program.Spec World.step env I F (store.writeFile o name content) s Q := by
  have hsome : (s.objects o).isNone = false := by
    obtain ⟨d, hd, -⟩ := Option.bind_eq_some_iff.mp h.record
    simp [hd]
  apply Program.Spec.bind (R := fun ok s' =>
    (ok = true → Q () s') ∧ (ok = false → F s'))
  · apply Program.Spec.perform
    intro fault hI
    cases fault with
    | none => simpa [World.step_writeAtomic, hsome] using hwritten
    | some f => simpa [World.step_writeAtomic] using hfault ⟨s, hI nofun⟩
  · rintro ok s' ⟨hok, herror⟩
    cases ok with
    | true => exact Program.Spec.done_ok (hok rfl)
    | false => exact Program.Spec.done_error (herror rfl)

/-- Reading the content of a file changes nothing. -/
theorem spec_readContent_same {F : World → Prop} (hs : F s) :
    Program.Spec World.step env I F (store.readContent o name) s fun b s' =>
      s = s' ∧ ∃ c, s.file? o name = some c ∧ b = store.contentBytes c := by
  apply Program.Spec.bind (R := fun content s' =>
    s = s' ∧ ∀ c, content = some c → s.file? o name = some c)
  · apply Program.Spec.perform
    intro fault _
    refine ⟨rfl, fun c hc => ?_⟩
    cases fault with
    | none => exact hc
    | some f => cases hc
  · rintro content _ ⟨rfl, hcontent⟩
    cases content with
    | none => exact Program.Spec.done_error hs
    | some c => exact Program.Spec.done_ok ⟨rfl, c, hcontent c rfl, rfl⟩

/-- Reading the record of a directory changes nothing. -/
theorem spec_readRecord_same {F : World → Prop} (hs : F s) :
    Program.Spec World.step env I F (store.readRecord o) s fun r s' => s = s' ∧
      ∃ stored, s.file? o RECORD_FILE = some (.record stored) ∧
        r = stored.migrateLegacyProducer := by
  apply Program.Spec.bind (R := fun content s' =>
    s = s' ∧ ∀ c, content = some c → s.file? o RECORD_FILE = some c)
  · apply Program.Spec.perform
    intro fault _
    refine ⟨rfl, fun c hc => ?_⟩
    cases fault with
    | none => exact hc
    | some f => cases hc
  · rintro content _ ⟨rfl, hcontent⟩
    cases content with
    | none => exact Program.Spec.done_error hs
    | some c =>
      cases c with
      | bytes b => exact Program.Spec.done_error hs
      | record stored => exact Program.Spec.pure ⟨rfl, stored, hcontent _ rfl, rfl⟩

/-- A step of an import over a stored digest that keeps the stored record. -/
theorem spec_when_held {condition : Bool} {step : Action Unit} (h : Held store o stored w s)
    (hstep : Program.Spec World.step env I (LeftBehind store I o stored w) step s
      fun _ s' => Held store o stored w s') :
    Program.Spec World.step env I (LeftBehind store I o stored w) (Action.when condition step) s
      fun _ s' => Held store o stored w s' := by
  cases condition with
  | true => exact hstep
  | false => exact Program.Spec.pure h

theorem spec_commitManifest_held (h : Held store o stored w s) {debug : Option DebugArchive}
    (hparse : store.parse incoming.manifestBytes = some incoming.manifest)
    (hdebug : manifestDebugArchive incoming.manifest = .ok debug) :
    Program.Spec World.step env I (LeftBehind store I o stored w)
      (store.commitManifest pid incoming o) s fun _ s' => Held store o stored w s' := by
  apply Program.Spec.bind
    ((spec_materializeDebug_held h).mono (fun _ _ h => h) fun _ h => h.leftBehind)
  intro _ s' hs'
  exact spec_writeFile_held hs' _ (hs'.setManifest hparse hdebug) fun _ => hs'.leftBehind

theorem spec_repairDebug_held (h : Held store o stored w s) {existing : ArtifactRecord} :
    Program.Spec World.step env I (LeftBehind store I o stored w)
      (store.repairDebug pid incoming o existing) s fun _ s' => Held store o stored w s' := by
  apply Program.Spec.bind
    ((spec_materializeDebug_held h).mono (fun _ _ h => h) fun _ h => h.leftBehind)
  intro _ s' hs'
  exact spec_writeFile_held hs' _ (hs'.setFile (by decide) _) fun _ => hs'.leftBehind

/-- Committing a record of the same digest; only a fault can come between its two files. -/
theorem spec_commitRecord_held (h : Held store o stored w s) {manifest : Bytes} {m : Json}
    {debug : Option DebugArchive} {committed : Bool} (hparse : store.parse manifest = some m)
    (hdebug : manifestDebugArchive m = .ok debug) (hdigest : r.digest = stored.digest)
    (himported : r.importedBy = stored.importedBy) :
    Program.Spec World.step env I (LeftBehind store I o stored w)
      (store.commitRecord incoming manifest committed o r) s
      fun _ s' => Held store o r w s' := by
  have hrecord := h.setRecord r
  unfold commitRecord
  apply Program.Spec.bind (R := fun _ s' => Held store o r w s')
    (spec_writeFile_held h _ hrecord fun _ => h.leftBehind)
  intro _ s' hs'
  apply Program.Spec.bind (R := fun _ t => s' = t)
  · rw [committedDebug_eq ⟨m, hparse, hdebug⟩]
    exact Program.Spec.done_ok rfl
  rintro _ _ rfl
  exact spec_writeFile_held hs' _ (hs'.setFile (by decide) _)
    fun hI => .inr ⟨r, .inr ⟨hI, hdigest, himported⟩, hs'⟩

/-- An import over a stored digest reindexes a record of that digest, or holds the record it
found. -/
theorem spec_importPresent_held {d : ObjectDir} {base : ArtifactRecord}
    {origin : ArtifactSource} {createdUnix : Nat} (hw : w.objects o = some d)
    (hdir : FiledDir store o d) (hrecord : d RECORD_FILE = some (.record stored))
    (hobject : incoming.record.digestHex = o)
    (hchecked : incoming.Checked store.toCodec base origin createdUnix) :
    Program.Spec World.step env I (LeftBehind store I o stored w)
      (store.importPresent pid incoming) w
      fun outcome s => Reindexed store o stored w outcome.record s := by
  subst hobject
  unfold importPresent
  apply Program.Spec.bind (spec_readRecord_same (.inl rfl))
  rintro _ _ ⟨rfl, stored', hfile, rfl⟩
  rw [World.file?_eq hw, hrecord] at hfile
  cases hfile
  obtain ⟨r, heq, hfiled⟩ := hdir.record _ hrecord
  cases heq
  rw [migrate_eq_self hfiled.imported]
  apply Program.Spec.bind (spec_readContent_same (.inl rfl))
  rintro _ _ ⟨rfl, c, hmanifest, rfl⟩
  obtain ⟨m, debug, hparse, hdebug⟩ := hdir.manifest c (by rwa [World.file?_eq hw] at hmanifest)
  have hheld : Held store incoming.record.digestHex stored w w :=
    ⟨rfl, fun _ _ => rfl, (World.file?_eq hw).trans hrecord, c, m, debug, hmanifest, hparse, hdebug⟩
  generalize hcommitted : (store.contentBytes c == incoming.manifestBytes) = committed
  apply Program.Spec.bind (R := fun merged s => w = s ∧
    mergeIdentity stored incoming committed = .ok merged)
  · cases hmerged : mergeIdentity stored incoming committed with
    | ok merged => exact Program.Spec.done_ok ⟨rfl, rfl⟩
    | error e => exact Program.Spec.done_error (.inl rfl)
  rintro ⟨existing, enriched⟩ _ ⟨rfl, hidentity⟩
  obtain ⟨source', dependencies, compatibility, verification, hexisting⟩ :=
    mergeIdentity_frame hidentity
  apply Program.Spec.bind (spec_when_held hheld (spec_repairDebug_held hheld))
  intro _ s₁ h₁
  -- whatever the sidecars do, they are neither record nor manifest
  have hsidecar : ∀ (s : World) (storedDigest : Option String) (evidence : Option EvidenceDigest),
      Held store incoming.record.digestHex stored w s →
      (∀ e, evidence = some e → ¬ isIdentityFile e.path) →
      Program.Spec World.step env I
        (LeftBehind store I incoming.record.digestHex stored w)
        (store.attachSidecar pid incoming.dist incoming.record.digestHex storedDigest evidence) s
        fun _ s' => Held store incoming.record.digestHex stored w s' := by
    intro s storedDigest evidence hs hpath
    exact (spec_held (spares_attachSidecar hpath) hs).mono (fun _ _ h => h) fun _ h => h.leftBehind
  apply Program.Spec.bind (hsidecar s₁ _ _ h₁ fun e he => by
    rw [hchecked.sbom_path e he]
    decide)
  intro sbom s₂ h₂
  apply Program.Spec.bind (hsidecar s₂ _ _ h₂ fun e he => by
    rw [hchecked.provenance_path e he]
    decide)
  intro provenance s₃ h₃
  apply Program.Spec.bind (spec_when_held h₃
    (spec_commitManifest_held h₃ hchecked.parsed hchecked.debug))
  intro _ s₄ h₄
  dsimp only
  generalize hrecorded : (if (sbom || provenance || enriched) = true then
    (existing.withSbom incoming.sbom).withProvenance incoming.provenance else existing) = record
  have hframe : record.digest = stored.digest ∧ record.importedBy = stored.importedBy := by
    rw [← hrecorded, hexisting]
    split
    · rw [ArtifactRecord.withSidecars_eq]
      exact ⟨rfl, rfl⟩
    · exact ⟨rfl, rfl⟩
  apply Program.Spec.bind (R := fun _ s => Held store incoming.record.digestHex record w s)
  · cases hchanged : sbom || provenance || enriched with
    | true => exact spec_commitRecord_held h₄ hparse hdebug hframe.1 hframe.2
    | false =>
      -- nothing was added, so the record is the stored one
      rw [hchanged, if_neg Bool.false_ne_true] at hrecorded
      have hsame : existing = stored := by
        rcases (mergeIdentity_ok hidentity).2 with ⟨heq, -⟩ | ⟨-, rfl, -⟩
        · exact heq
        · simp at hchanged
      rw [← hrecorded, hsame]
      exact Program.Spec.pure h₄
  intro _ s₅ h₅
  apply Program.Spec.bind (spec_indexUpsert (fun hI =>
    .inr ⟨record, .inr ⟨⟨s₅, hI⟩, hframe.1, hframe.2⟩, h₅⟩) h₅.index)
  rintro - _ rfl
  exact Program.Spec.pure ⟨hframe.1, hframe.2, s₅, h₅, rfl⟩

end ArtifactStore

/-! ## What any call leaves -/

/-- The index and the records it stands for are as before. -/
structure SameIndex (w s : World) : Prop where
  index : s.index = w.index
  records : ∀ r ∈ w.index.getD [],
    s.file? r.digestHex RECORD_FILE = w.file? r.digestHex RECORD_FILE

/-- A record was put into its directory and into the index. -/
structure Indexed (w : World) (record : ArtifactRecord) (s : World) : Prop where
  index : s.index = some (upsertRecord record (indexed w))
  file : s.file? record.digestHex RECORD_FILE = some (.record record)
  others : ∀ r ∈ w.index.getD [], r.digest ≠ record.digest →
    s.file? r.digestHex RECORD_FILE = w.file? r.digestHex RECORD_FILE

/-- A record was taken out of the index. -/
structure Dropped (w : World) (record : ArtifactRecord) (s : World) : Prop where
  resolved : record ∈ w.index.getD []
  index : s.index = some (dropDigest record.digest (indexed w))
  others : ∀ r ∈ w.index.getD [], r.digest ≠ record.digest →
    s.file? r.digestHex RECORD_FILE = w.file? r.digestHex RECORD_FILE

section Outcomes

variable {store : ArtifactStore} {I : World → Prop} {w s : World} {o : String}
  {record stored : ArtifactRecord} {incoming : Incoming} {base : ArtifactRecord}
  {source : ArtifactSource} {createdUnix : Nat}

theorem SameIndex.refl (w : World) : SameIndex w w := ⟨rfl, fun _ _ => rfl⟩

/-- The digest of a checked directory is canonical. -/
theorem isCanonicalSha256_incoming
    (hchecked : incoming.Checked store.toCodec base source createdUnix) :
    isCanonicalSha256 incoming.record.digest := by
  have hdigest := isSha256Ref_incoming hchecked
  have hsame : incoming.record.digest = base.digest := by
    rw [hchecked.record, ArtifactRecord.withSidecars_eq]
  rw [hsame, ← hchecked.archive.2.1] at hdigest ⊢
  exact isCanonicalSha256_sha256Hex hdigest

/-- The directory of another index entry is another one. -/
theorem Filed.digestHex_ne (hw : Filed store w) {r : ArtifactRecord} (hr : r ∈ w.index.getD [])
    (hdigest : isSha256Ref record.digest) (hne : r.digest ≠ record.digest) :
    r.digestHex ≠ record.digestHex := fun heq =>
  hne (digest_eq_of_digestHex (isSha256Ref_of_canonical (hw.index r hr).1) hdigest heq)

/-- An untouched store stays filed when its new directories are sound. -/
theorem Filed.extends (hw : Filed store w) (h : Extends store w s) :
    Filed store s ∧ SameIndex w s := by
  have hrecords : ∀ r ∈ w.index.getD [],
      s.file? r.digestHex RECORD_FILE = w.file? r.digestHex RECORD_FILE := by
    intro r hr
    obtain ⟨hcanonical, -, r', hfile⟩ := hw.index r hr
    obtain ⟨d, hd, -⟩ := Option.bind_eq_some_iff.mp hfile
    obtain ⟨d', hd', hsame⟩ := h.untouched.dirs _ d
      (not_isTemporary_digestHex (isSha256Ref_of_canonical hcanonical)) hd
    rw [World.file?_eq hd, World.file?_eq hd', hsame _ .record]
  refine ⟨⟨fun o d' ho hd' => ?_, ?_, fun r hr => ?_⟩, h.untouched.index, hrecords⟩
  · cases hd : w.objects o with
    | none => exact (h.sound o d' ho hd hd').filed
    | some d =>
      obtain ⟨d₁, hd₁, hsame⟩ := h.untouched.dirs o d ho hd
      obtain rfl := Option.some.inj (hd'.symm.trans hd₁)
      exact (hw.dirs o d ho hd).mono (fun c hc => hsame _ .record ▸ hc)
        fun c hc => hsame _ .manifest ▸ hc
  · rw [h.untouched.index]
    exact hw.sorted
  · rw [h.untouched.index] at hr
    rw [hrecords r hr]
    exact hw.index r hr

/-- An import that failed over a stored digest leaves the store filed; without faults, it leaves
the index and its records. -/
theorem Filed.leftBehind (hw : Filed store w) {d : ObjectDir} (hd : w.objects o = some d)
    (hrecord : d RECORD_FILE = some (.record stored)) (hstored : FiledRecord o stored)
    (h : LeftBehind store I o stored w s) :
    Filed store s ∧ ((∀ t, ¬ I t) → SameIndex w s) := by
  rcases h with rfl | ⟨r, hr, hheld⟩
  · exact ⟨hw, fun _ => SameIndex.refl s⟩
  · have hfiled : FiledRecord o r := by
      rcases hr with rfl | ⟨-, hdigest, himported⟩
      · exact hstored
      · refine ⟨?_, hdigest ▸ hstored.digest, himported ▸ hstored.imported⟩
        rw [ArtifactRecord.digestHex, hdigest]
        exact hstored.object
    refine ⟨hw.held hheld hfiled, fun hI => ⟨hheld.index, fun r' hr' => ?_⟩⟩
    obtain rfl : r = stored := hr.resolve_right fun hother => not_exists.mpr hI hother.1
    by_cases hne : r'.digestHex = o
    · rw [hne, hheld.record, World.file?_eq hd, hrecord]
    · rw [World.file?, World.file?, hheld.others _ hne]

/-- An import over a stored digest that succeeded leaves the store filed. -/
theorem Filed.reindexed (hw : Filed store w) (hstored : FiledRecord o stored)
    (hcanonical : isCanonicalSha256 stored.digest)
    (h : Reindexed store o stored w record s) : Filed store s ∧ Indexed w record s := by
  obtain ⟨hdigest, himported, t, hheld, rfl⟩ := h
  have hobject : record.digestHex = o := by
    rw [ArtifactRecord.digestHex, hdigest]
    exact hstored.object
  have hfiled : FiledRecord o record :=
    ⟨hobject, hdigest ▸ hstored.digest, himported ▸ hstored.imported⟩
  have hindexed : indexed t = indexed w := by rw [indexed, indexed, hheld.index]
  have hrecord : t.file? record.digestHex RECORD_FILE = some (.record record) :=
    hobject ▸ hheld.record
  have ht := (hw.held hheld hfiled).upsert hrecord (hdigest ▸ hcanonical) hfiled.imported
  rw [hindexed] at ht
  refine ⟨ht, rfl, hrecord, fun r hr hne => ?_⟩
  have hother := hheld.others r.digestHex (hobject ▸ hw.digestHex_ne hr hfiled.digest hne)
  show t.file? r.digestHex RECORD_FILE = _
  rw [World.file?, World.file?, hother]

/-- An import of a new digest that succeeded leaves the store filed. -/
theorem Filed.installed (hw : Filed store w) {pid : Nat}
    (hchecked : incoming.Checked store.toCodec base source createdUnix)
    (hnone : w.objects incoming.record.digestHex = none)
    (hs : s = { (w.setDir (ArtifactStore.stagingName incoming.record.digestHex pid) none).setDir
      incoming.record.digestHex (some (stagedDir incoming)) with
        index := some (upsertRecord incoming.record (indexed w)) }) :
    Filed store s ∧ Indexed w incoming.record s := by
  subst hs
  have hdigest := isSha256Ref_incoming hchecked
  have hsound : SoundDir store incoming.record.digestHex (stagedDir incoming) :=
    soundDir_stagedDir hchecked
  have himported : incoming.record.importedBy.isEmpty = false := by
    obtain ⟨r, heq, hr⟩ := hsound.record _ (stagedDir_record hchecked)
    cases heq
    exact hr.imported
  have hextends : Extends store w _ := extends_install
    (ArtifactStore.isTemporary_stagingName incoming.record.digestHex pid) hnone hsound
  obtain ⟨hfiled, hsame⟩ := hw.extends hextends
  have hrecord : (((w.setDir (ArtifactStore.stagingName incoming.record.digestHex pid) none).setDir
      incoming.record.digestHex (some (stagedDir incoming))).file? incoming.record.digestHex
      RECORD_FILE) = _ := World.file?_setDir.trans (stagedDir_record hchecked)
  exact ⟨hfiled.upsert hrecord (isCanonicalSha256_incoming hchecked) himported, rfl, hrecord,
    fun r hr _ => hsame.records r hr⟩

end Outcomes

namespace ArtifactStore

variable {store : ArtifactStore} {env : Environment StoreOp StoreOp.Reply StoreFault}
  {I : World → Prop} {w : World} {pid createdUnix : Nat} {path : DistPath}
  {source : ArtifactSource} {digestRef : String}

/-- Any import leaves the store filed. One that succeeds indexes the record it returns; one that
fails without faults leaves the index and its records. -/
theorem spec_importDist_filed (hw : Filed store w) :
    Program.Spec World.step env I
      (fun s => Filed store s ∧ ((∀ t, ¬ I t) → SameIndex w s))
      (store.importDist pid createdUnix path source) w
      fun outcome s => Filed store s ∧ Indexed w outcome.record s := by
  have hrefl : Filed store w ∧ ((∀ t, ¬ I t) → SameIndex w w) := ⟨hw, fun _ => SameIndex.refl w⟩
  apply Program.Spec.bind (R := fun incoming s => w = s ∧
    readIncoming store.toCodec path source createdUnix = .ok incoming)
  · cases hread : readIncoming store.toCodec path source createdUnix with
    | error e => exact Program.Spec.done_error hrefl
    | ok incoming => exact Program.Spec.done_ok ⟨rfl, rfl⟩
  rintro incoming _ ⟨rfl, hread⟩
  obtain ⟨base, -, hchecked⟩ := readIncoming_ok hread
  have hdigest := isSha256Ref_incoming hchecked
  have hobject := not_isTemporary_digestHex hdigest
  apply Program.Spec.bind (R := fun present s => w = s ∧
    present = (w.file? incoming.record.digestHex RECORD_FILE).isSome)
  · exact Program.Spec.perform fun fault _ => ⟨rfl, rfl⟩
  rintro present _ ⟨rfl, rfl⟩
  split
  · next hpresent =>
    obtain ⟨c, hc⟩ := Option.isSome_iff_exists.mp hpresent
    obtain ⟨d, hd, hrecord⟩ := Option.bind_eq_some_iff.mp hc
    have hdir := hw.dirs _ d hobject hd
    obtain ⟨stored, rfl, hstored⟩ := hdir.record c hrecord
    have hcanonical : isCanonicalSha256 stored.digest := by
      rw [digest_eq_of_digestHex hstored.digest hdigest hstored.object]
      exact isCanonicalSha256_incoming hchecked
    apply Program.Spec.mono (spec_importPresent_held hd hdir hrecord rfl hchecked)
    · exact fun outcome s hs => hw.reindexed hstored hcanonical hs
    · exact fun s hs => hw.leftBehind hd hrecord hstored hs
  · next habsent =>
    apply Program.Spec.mono (spec_importFresh hchecked hobject (by simpa using habsent)
      (soundDir_stagedDir hchecked))
    · rintro outcome s ⟨hrecord, hnone, hs⟩
      rw [hrecord]
      exact hw.installed hchecked hnone hs
    · intro s hs
      obtain ⟨hfiled, hsame⟩ := hw.extends hs
      exact ⟨hfiled, fun _ => hsame⟩

/-- Any removal leaves the store filed. One that succeeds drops the record it resolved; one that
fails without faults leaves the index and its records. -/
theorem spec_remove_filed (hw : Filed store w) :
    Program.Spec World.step env I
      (fun s => Filed store s ∧ ((∀ t, ¬ I t) → SameIndex w s)) (store.remove digestRef) w
      fun record s => Filed store s ∧ Dropped w record s := by
  have hrefl : Filed store w ∧ ((∀ t, ¬ I t) → SameIndex w w) := ⟨hw, fun _ => SameIndex.refl w⟩
  unfold remove
  apply Program.Spec.bind (spec_resolve hrefl)
  rintro record s ⟨rfl, hresolve⟩
  have hmem := mem_of_resolveIn hresolve
  rw [hw.indexed_eq] at hmem
  obtain ⟨r', hfile, hr', hsame⟩ := hw.record_of_index hmem
  obtain ⟨d, hd, -⟩ := Option.bind_eq_some_iff.mp hfile
  apply Program.Spec.bind (spec_readIndex (fun _ => hrefl) rfl)
  rintro _ s ⟨rfl, rfl⟩
  apply Program.Spec.bind (spec_writeIndex (fun _ => hrefl) _)
  rintro - _ rfl
  have hdropped : ∀ d', (∀ m, d' = some m → ∀ name c, m name = some c → d name = some c) →
      Filed store { s.setDir record.digestHex d' with
        index := some (dropDigest record.digest (indexed s)) } ∧
      Dropped s record { s.setDir record.digestHex d' with
        index := some (dropDigest record.digest (indexed s)) } := by
    intro d' hsub
    refine ⟨hw.remove hmem hd hsub, hmem, rfl, fun r hr hne => ?_⟩
    have hother := World.objects_setDir_of_ne (w := s) d'
      (hw.digestHex_ne hr (hsame ▸ hr'.digest) hne)
    show (s.setDir record.digestHex d').file? r.digestHex RECORD_FILE = _
    rw [World.file?, World.file?, hother]
  apply Program.Spec.bind (R := fun removal t => Filed store t ∧ Dropped s record t ∧
    (removal = .failed → ∃ t, I t))
  · apply Program.Spec.perform
    intro fault hI
    cases fault with
    | none =>
      simp only [World.step_removeDir, hd]
      obtain ⟨hfiled, hdrop⟩ := hdropped none fun _ hm => by cases hm
      exact ⟨hfiled, hdrop, fun h => by cases h⟩
    | some f =>
      simp only [World.step_removeDir, hd]
      have hkept := hdropped (World.keepFiles d f.kept) fun m hm name c hc => keepFiles_some hm hc
      exact ⟨hkept.1, hkept.2, fun _ => ⟨_, hI (Option.some_ne_none f)⟩⟩
  · rintro removal t ⟨hfiled, hdrop, hfailed⟩
    cases removal with
    | removed => exact Program.Spec.pure ⟨hfiled, hdrop⟩
    | notFound => exact Program.Spec.pure ⟨hfiled, hdrop⟩
    | failed =>
      obtain ⟨t', ht'⟩ := hfailed rfl
      exact Program.Spec.done_error ⟨hfiled, fun hI => absurd ht' (hI t')⟩

end ArtifactStore

end OpenStrata
