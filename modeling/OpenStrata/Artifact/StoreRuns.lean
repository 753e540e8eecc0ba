import OpenStrata.Artifact.StoreInstall
import OpenStrata.Transport.Trust

/-!
# Runs of the store

A store is used by one call after another, each an import or a removal under its own faults.
An import that cannot fail half way keeps the store sound: it installs a directory, merges
into one, or leaves the store untouched. A removal keeps it sound wherever it is interrupted.

## Main definitions

* `StoreCall`, `StoreRun`: calls, and the stores that allowed calls lead to
* `ImportSafe`: an import cannot fail half way
* `Stored`: what an import has left behind

## Main results

* `ArtifactStore.spec_importDist`: an import stores its artifact, or leaves the store untouched
* `ArtifactStore.spec_remove`: a removal keeps the store sound, whole or interrupted
* `StoreRun.sound`: every store that safe imports and removals lead to is sound
-/

namespace OpenStrata

/-- A call that changes the store. -/
inductive StoreCall
  | importDist (pid createdUnix : Nat) (path : DistPath) (source : ArtifactSource)
  | remove (digestRef : String)

/-- The store after a call under an environment. -/
def StoreCall.run (store : ArtifactStore) (env : Environment StoreOp StoreOp.Reply StoreFault)
    (w : World) : StoreCall → World
  | .importDist pid createdUnix path source =>
    (Program.run World.step env (store.importDist pid createdUnix path source) [] w).state
  | .remove digestRef => (Program.run World.step env (store.remove digestRef) [] w).state

/-- The stores that allowed calls lead to. -/
inductive StoreRun (store : ArtifactStore)
    (Allowed : World → Environment StoreOp StoreOp.Reply StoreFault → StoreCall → Prop) :
    World → Prop
  | empty : StoreRun store Allowed World.empty
  | call {w : World} (h : StoreRun store Allowed w)
      (env : Environment StoreOp StoreOp.Reply StoreFault) (call : StoreCall)
      (hallowed : Allowed w env call) : StoreRun store Allowed (call.run store env w)

/-- An import over a stored digest cannot fail half way. -/
def ImportSafe (store : ArtifactStore) (pid createdUnix : Nat) (path : DistPath)
    (source : ArtifactSource) (w : World) : Prop :=
  ∀ incoming, readIncoming store.toCodec path source createdUnix = .ok incoming →
    ∀ d stored c, w.objects incoming.record.digestHex = some d →
      d RECORD_FILE = some (.record stored) → d MANIFEST_FILE = some c →
      MergeSafe store pid d stored (store.contentBytes c) incoming

/-- What a successful import has left behind: a new directory, or a merged one. -/
inductive Stored (store : ArtifactStore) (pid : Nat) (w : World) (incoming : Incoming)
    (record : ArtifactRecord) (s : World) : Prop
  | installed (hrecord : record = incoming.record)
      (hnone : w.objects incoming.record.digestHex = none)
      (hs : s = { (w.setDir (ArtifactStore.stagingName incoming.record.digestHex pid) none).setDir
        incoming.record.digestHex (some (stagedDir incoming)) with
          index := some (upsertRecord incoming.record (indexed w)) })
  | merged {d : ObjectDir} {stored existing : ArtifactRecord} {manifest : Content}
      {storedDebug : Option DebugArchive} {enriched : Bool} {plan : MergePlan}
      (hd : w.objects incoming.record.digestHex = some d)
      (h : ArtifactStore.Merged store pid w incoming.record.digestHex d incoming stored manifest
        storedDebug existing enriched plan record s)

section Sound

variable {store : ArtifactStore} {w s : World} {o : String} {d : ObjectDir}
  {record r : ArtifactRecord} {artifacts : List ArtifactRecord} {digest : String}

theorem mem_upsertRecord :
    r ∈ upsertRecord record artifacts ↔ r = record ∨ r ∈ artifacts ∧ r.digest ≠ record.digest := by
  simp [upsertRecord, or_comm]

theorem mem_dropDigest :
    r ∈ dropDigest digest artifacts ↔ r ∈ artifacts ∧ r.digest ≠ digest := by
  simp [dropDigest]

/-- The directory of another digest is another one. -/
theorem Sound.digestHex_ne (h : Sound store w) (hr : r ∈ w.index.getD [])
    (hrecord : isSha256Ref record.digest) (hne : r.digest ≠ record.digest) :
    r.digestHex ≠ record.digestHex := by
  obtain ⟨d, -, -, hsound⟩ := h.record_of_index hr
  exact fun heq => hne (digest_eq_of_digestHex hsound.digest hrecord heq)

/-- A store stays sound when one sound directory and its record are stored. -/
theorem Sound.upsert (h : Sound store w) (hrecord : isSha256Ref record.digest)
    (ho : record.digestHex = o) (hdir : SoundDir store o d)
    (hfile : d RECORD_FILE = some (.record record)) (hd : s.objects o = some d)
    (hother : ∀ o', ¬ isTemporary o' → o' ≠ o → s.objects o' = w.objects o')
    (hindex : s.index = some (upsertRecord record (OpenStrata.indexed w))) : Sound store s where
  dirs := by
    intro o' d' ho' hd'
    by_cases hne : o' = o
    · subst hne
      rw [hd] at hd'
      cases hd'
      exact hdir
    · rw [hother o' ho' hne] at hd'
      exact h.dirs o' d' ho' hd'
  index := by
    intro r hr
    rw [hindex, Option.getD_some, mem_upsertRecord, h.indexed] at hr
    rcases hr with rfl | ⟨hr, hne⟩
    · exact ⟨not_isTemporary_digestHex hrecord, d, ho ▸ hd, hfile⟩
    · obtain ⟨htemp, d', hd', hfile'⟩ := h.index r hr
      refine ⟨htemp, d', ?_, hfile'⟩
      rw [hother _ htemp (ho ▸ h.digestHex_ne hr hrecord hne)]
      exact hd'

/-- A store stays sound when an index entry is dropped. -/
theorem Sound.drop (h : Sound store w) :
    Sound store { w with index := some (dropDigest digest (OpenStrata.indexed w)) } where
  dirs := h.dirs
  index := by
    intro r hr
    have hmem : r ∈ dropDigest digest (OpenStrata.indexed w) := hr
    rw [mem_dropDigest, h.indexed] at hmem
    exact h.index r hmem.1

/-- A store stays sound when a directory loses files that no index entry needs. -/
theorem Sound.lose (h : Sound store w) {d' : Option ObjectDir} (hd : w.objects o = some d)
    (hsub : ∀ m, d' = some m → ∀ name c, m name = some c → d name = some c)
    (hindex : ∀ r ∈ w.index.getD [], r.digestHex ≠ o) : Sound store (w.setDir o d') where
  dirs := by
    intro o' m ho' hm
    by_cases hne : o' = o
    · subst hne
      rw [World.objects_setDir] at hm
      exact (h.dirs o' d ho' hd).mono fun name _ c hc => hsub m hm name c hc
    · rw [World.objects_setDir_of_ne _ hne] at hm
      exact h.dirs o' m ho' hm
  index := by
    intro r hr
    obtain ⟨htemp, m, hm, hfile⟩ := h.index r hr
    refine ⟨htemp, m, ?_, hfile⟩
    rw [World.objects_setDir_of_ne _ (hindex r hr)]
    exact hm

theorem Sound.extends (h : Sound store w) (hs : Extends store w s) : Sound store s :=
  h.untouched hs.untouched hs.sound

end Sound

/-! ## Imports -/

namespace ArtifactStore

variable {store : ArtifactStore} {env : Environment StoreOp StoreOp.Reply StoreFault}
  {I : World → Prop} {w s : World} {pid createdUnix : Nat} {path : DistPath}
  {source : ArtifactSource} {digestRef : String} {incoming : Incoming} {base record : ArtifactRecord}

/-- An import stores its artifact, or leaves the store untouched. -/
theorem spec_importDist (hw : Sound store w)
    (hsafe : ImportSafe store pid createdUnix path source w) :
    Program.Spec World.step env (Untouched store w) (Extends store w)
      (store.importDist pid createdUnix path source) w fun outcome s => ∃ incoming,
        readIncoming store.toCodec path source createdUnix = .ok incoming ∧
          Stored store pid w incoming outcome.record s := by
  have hrefl : Extends store w w := ⟨Untouched.refl w, fun o d _ hnone hd => by
    rw [hnone] at hd
    cases hd⟩
  apply Program.Spec.bind (R := fun incoming s => w = s ∧
    readIncoming store.toCodec path source createdUnix = .ok incoming)
  · cases hread : readIncoming store.toCodec path source createdUnix with
    | error e => exact Program.Spec.done_error hrefl
    | ok incoming => exact Program.Spec.done_ok ⟨rfl, rfl⟩
  rintro incoming _ ⟨rfl, hread⟩
  obtain ⟨base, -, hchecked⟩ := readIncoming_ok hread
  have hobject : ¬ isTemporary incoming.record.digestHex :=
    not_isTemporary_digestHex (isSha256Ref_incoming hchecked)
  apply Program.Spec.bind (R := fun present s => w = s ∧
    present = (w.file? incoming.record.digestHex RECORD_FILE).isSome)
  · exact Program.Spec.perform fun fault _ => ⟨rfl, rfl⟩
  rintro present _ ⟨rfl, rfl⟩
  split
  · next hpresent =>
    obtain ⟨c, hc⟩ := Option.isSome_iff_exists.mp hpresent
    obtain ⟨d, hd, -⟩ := Option.bind_eq_some_iff.mp hc
    -- no operation of a merge installs a directory
    have hmerge : StoreSpec store env w (store.importPresent pid incoming) w _ :=
      spec_importPresent hobject hd rfl (hw.dirs _ d hobject hd) hchecked
        fun stored c hrecord hmanifest => hsafe incoming hread d stored c hd hrecord hmanifest
    have hinstalls : Program.Spec World.step env (Untouched store w)
        (fun s => ∀ o, w.objects o = none → s.objects o = none)
        (store.importPresent pid incoming) w _ :=
      Program.Spec.of_calls calls_importPresent
        (fun op fault s hop hs o ho => objects_none_step hop fault (hs o ho)) fun o ho => ho
    apply Program.Spec.mono (hmerge.and hinstalls)
    · rintro outcome s ⟨⟨stored, manifest, storedDebug, existing, enriched, plan, hmerged⟩, -⟩
      exact ⟨incoming, hread, .merged hd hmerged⟩
    · rintro s ⟨huntouched, hnone⟩
      refine ⟨huntouched, fun o d _ hold hd => ?_⟩
      rw [hnone o hold] at hd
      cases hd
  · next habsent =>
    apply Program.Spec.mono (spec_importFresh hchecked hobject (by simpa using habsent)
      (soundDir_stagedDir hchecked))
    · rintro outcome s ⟨hrecord, hnone, hs⟩
      exact ⟨incoming, hread, .installed hrecord hnone hs⟩
    · exact fun _ h => h

/-- What an import has stored keeps the store sound. -/
theorem sound_of_stored (hw : Sound store w)
    (hchecked : incoming.Checked store.toCodec base source createdUnix)
    (hsafe : ∀ d stored c, w.objects incoming.record.digestHex = some d →
      d RECORD_FILE = some (.record stored) → d MANIFEST_FILE = some c →
      MergeSafe store pid d stored (store.contentBytes c) incoming)
    (h : Stored store pid w incoming record s) : Sound store s := by
  have hdigest := isSha256Ref_incoming hchecked
  cases h with
  | installed hrecord hnone hs =>
    subst hs
    refine hw.upsert hdigest rfl (soundDir_stagedDir hchecked) (stagedDir_record hchecked)
      (World.objects_setDir _) (fun o' ho' hne => ?_) rfl
    have hstaging : o' ≠ stagingName incoming.record.digestHex pid := by
      rintro rfl
      exact ho' (isTemporary_stagingName _ _)
    rw [World.objects_setDir_of_ne _ hne, World.objects_setDir_of_ne _ hstaging]
  | merged hd h =>
    have hsound := hw.dirs _ _ (not_isTemporary_digestHex hdigest) hd
    have hdir := h.soundDir hchecked (hsafe _ _ _ hd h.record_file h.manifest_file) hsound
    obtain ⟨r, heq, hr⟩ := hsound.record _ h.record_file
    cases heq
    have hsame := h.record_frame.1
    rw [h.state]
    refine hw.upsert (hsame ▸ hr.digest) ?_ hdir (h.files_record hchecked)
      (World.objects_setDir _) (fun o' _ hne => World.objects_setDir_of_ne _ hne) rfl
    rw [ArtifactRecord.digestHex, hsame]
    exact hr.object

/-! ## Removals -/

/-- A resolved record is an index entry. -/
theorem mem_of_resolveIn {artifacts : List ArtifactRecord}
    (h : resolveIn digestRef artifacts = .ok record) : record ∈ artifacts := by
  simp only [resolveIn, Result.bind_ok] at h
  obtain ⟨needle, -, h⟩ := h
  split at h
  · next one hone =>
    cases h
    have hmem : record ∈ artifacts.filter fun r => Text.startsWith needle r.digestHex := by
      rw [hone]
      exact List.mem_singleton_self _
    exact (List.mem_filter.mp hmem).1
  · cases h
  · cases h

theorem spec_resolve {F : World → Prop} (hfail : F w) :
    Program.Spec World.step env I F (store.resolve digestRef) w fun record s =>
      s = w ∧ resolveIn digestRef (indexed w) = .ok record := by
  apply Program.Spec.bind (R := fun _ s => s = w)
  · cases hneedle : digestNeedle digestRef with
    | error e => exact Program.Spec.done_error hfail
    | ok needle => exact Program.Spec.done_ok rfl
  rintro needle s rfl
  apply Program.Spec.bind (spec_readIndex (fun _ => hfail) rfl)
  rintro _ s ⟨rfl, rfl⟩
  cases hresolve : resolveIn digestRef (indexed s) with
  | error e => exact Program.Spec.done_error hfail
  | ok record => exact Program.Spec.done_ok ⟨rfl, rfl⟩

/-- What a removal keeps of a directory was there. -/
theorem keepFiles_some {d m : ObjectDir} {kept : List String} (h : World.keepFiles d kept = some m)
    {name : String} {c : Content} (hc : m name = some c) : d name = some c := by
  unfold World.keepFiles at h
  split at h
  · cases h
    simp only at hc
    split at hc
    · exact hc
    · cases hc
  · cases h

/-- A removal keeps the store sound, whole or interrupted. -/
theorem spec_remove (hw : Sound store w) :
    Program.Spec World.step env I (Sound store) (store.remove digestRef) w
      fun record s => record ∈ w.index.getD [] ∧ Sound store s ∧
        s = { w.setDir record.digestHex none with
          index := some (dropDigest record.digest (indexed w)) } := by
  unfold remove
  apply Program.Spec.bind (spec_resolve hw)
  rintro record s ⟨rfl, hresolve⟩
  have hmem := mem_of_resolveIn hresolve
  rw [hw.indexed] at hmem
  obtain ⟨d, hd, -, hrecord⟩ := hw.record_of_index hmem
  have hread : Program.Spec World.step env I (Sound store) store.readIndex s _ :=
    spec_readIndex (w := s) (fun _ => hw) rfl
  apply Program.Spec.bind hread
  rintro _ s ⟨rfl, rfl⟩
  have hwrite : Program.Spec World.step env I (Sound store)
    (store.writeIndex (dropDigest record.digest (indexed s))) s _ := spec_writeIndex (fun _ => hw) _
  apply Program.Spec.bind hwrite
  rintro - _ rfl
  have hdropped : Sound store { s with index := some (dropDigest record.digest (indexed s)) } :=
    hw.drop
  apply Program.Spec.bind (R := fun removal t =>
    (removal ≠ .failed → t = { s.setDir record.digestHex none with
      index := some (dropDigest record.digest (indexed s)) }) ∧ Sound store t)
  · apply Program.Spec.perform
    intro fault _
    -- the index has no entry of the directory any more
    have hlose : ∀ d', (∀ m, d' = some m → ∀ name c, m name = some c → d name = some c) →
        Sound store (World.setDir { s with
          index := some (dropDigest record.digest (indexed s)) } record.digestHex d') := by
      intro d' hsub
      refine hdropped.lose hd hsub fun r hr => ?_
      have hr' : r ∈ dropDigest record.digest (indexed s) := hr
      rw [mem_dropDigest, hw.indexed] at hr'
      exact hw.digestHex_ne hr'.1 hrecord.digest hr'.2
    cases fault with
    | none =>
      simp only [World.step_removeDir, hd]
      exact ⟨fun _ => rfl, hlose none nofun⟩
    | some f =>
      simp only [World.step_removeDir, hd]
      refine ⟨fun h => absurd rfl h, hlose _ fun m hm name c hc => ?_⟩
      exact keepFiles_some hm hc
  · rintro removal t ⟨hremoved, hsound⟩
    cases removal with
    | removed => exact Program.Spec.pure ⟨hmem, hsound, hremoved nofun⟩
    | notFound => exact Program.Spec.pure ⟨hmem, hsound, hremoved nofun⟩
    | failed => exact Program.Spec.done_error hsound

end ArtifactStore

/-! ## Runs -/

/-- An import whose faults strike while the store is untouched and that cannot fail half way;
or any removal, interrupted or not. -/
def SafeCall (store : ArtifactStore) (w : World)
    (env : Environment StoreOp StoreOp.Reply StoreFault) : StoreCall → Prop
  | .importDist pid createdUnix path source =>
    ImportSafe store pid createdUnix path source w ∧
      Program.FaultsWithin World.step env (Untouched store w)
        (store.importDist pid createdUnix path source) [] w
  | .remove _ => True

/-- Without faults, an import only has to be safe. -/
theorem safeCall_quiet {store : ArtifactStore} {w : World} {pid createdUnix : Nat}
    {path : DistPath} {source : ArtifactSource}
    (hsafe : ImportSafe store pid createdUnix path source w) :
    SafeCall store w Environment.quiet (.importDist pid createdUnix path source) :=
  ⟨hsafe, Program.faultsWithin_quiet _ _ _⟩

/-- Nothing can go wrong half way in an empty store. -/
theorem importSafe_empty (store : ArtifactStore) (pid createdUnix : Nat) (path : DistPath)
    (source : ArtifactSource) : ImportSafe store pid createdUnix path source World.empty := by
  intro incoming _ d stored c hd
  cases hd

/-- Every store that safe calls lead to is sound. -/
theorem StoreRun.sound {store : ArtifactStore} {w : World}
    (h : StoreRun store (SafeCall store) w) : Sound store w := by
  induction h with
  | empty => exact sound_empty
  | @call w h env call hallowed ih =>
    cases call with
    | importDist pid createdUnix path source =>
      obtain ⟨hsafe, hfaults⟩ := hallowed
      apply (ArtifactStore.spec_importDist ih hsafe).state hfaults
      · rintro outcome s ⟨incoming, hread, hstored⟩
        obtain ⟨base, -, hchecked⟩ := readIncoming_ok hread
        exact ArtifactStore.sound_of_stored ih hchecked (hsafe incoming hread) hstored
      · exact fun s hs => ih.extends hs
    | remove digestRef =>
      have hremove : Program.Spec World.step env (fun _ => True) (Sound store)
        (store.remove digestRef) w _ := ArtifactStore.spec_remove ih
      apply hremove.state (Program.faultsWithin_of_forall (fun _ => trivial) _ _ _)
      · exact fun record s ⟨_, hs, _⟩ => hs
      · exact fun s hs => hs

/-! ## A small store

Producer output of one archive, with the hashes and documents that its files have. -/

namespace Store.Sample

open Transport.Sample (archive archiveHex source)

def digest : String := "sha256:6672c9865e33b6d95529d26430d23b9ed2f3949e0d4c7124c02c6d05f2303b9e"

/-- SHA-256 and the JSON parser on files told apart by their length. -/
def codec (hashes : List (Nat × String)) (documents : List (Nat × Json)) : Codec where
  sha256 bytes := bytesOfHex ((hashes.lookup bytes.length).getD "").toList
  parse bytes := documents.lookup bytes.length

def store (hashes : List (Nat × String)) (documents : List (Nat × Json)) : ArtifactStore :=
  { codec hashes documents with root := "registry", recordJson := fun r => utf8 r.digest }

/-- The manifest fields of the archive, between optional further ones. -/
def manifest (debug producer : List (String × Json)) : Json := .obj <|
  [("archive", .str "demo-1.0.0.tar.zst"), ("archive_digest", .str digest),
    ("archive_size", .int 11), ("build", .obj [("source", source)])] ++ debug ++
  [("files", .arr []), ("name", .str "demo")] ++ producer ++
  [("target", .str "linux-x86_64"), ("total_size", .int 0), ("version", .str "1.0.0")]

/-- The dist directory of a manifest, with further files. -/
def dist (manifest : Json) (files : List (String × Bytes)) : DistPath :=
  .directory (.ofFiles "dist"
    ((MANIFEST_FILE, jsonBytes manifest) :: ("demo-1.0.0.tar.zst", archive) :: files))

/-- An empty directory to export into. -/
def emptyDir : Directory := .ofFiles "out" []

end Store.Sample

end OpenStrata
