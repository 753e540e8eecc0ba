import OpenStrata.Artifact.Store
import OpenStrata.Lib.ProgramSpec

/-!
# Steps inside an installed object directory

An import over a stored digest changes the files of one object directory, one step at a time.
Each step is specified by the files it leaves there, under any faults that strike while the
store still exports what it did before the import.

## Main definitions

* `isTemporary`: the names of directories on their way into place
* `Exported`: the files of a directory that an export copies
* `Untouched`: no exported file of an installed directory and no index entry has changed
* `StoreSpec`: a specification with faults in an untouched store, which failure leaves so

## Main results

* `spec_replaceFrom`, `spec_writeFile`, `spec_readContent`: the steps on one file
* `spec_materializeDebugArchive`, `spec_attachSidecar`: the steps on debug archives and
  sidecars
* `spec_indexUpsert`: the step on the index
-/

namespace OpenStrata

/-- A name for directories on their way into place. -/
def isTemporary (name : String) : Bool := Text.startsWith ".tmp-" name

/-- A file that an export of the directory copies, when the index entry is its record. -/
inductive Exported (store : ArtifactStore) (d : ObjectDir) : String → Prop
  | record : Exported store d RECORD_FILE
  | manifest : Exported store d MANIFEST_FILE
  | sums : Exported store d SHA256SUMS
  | archive {r : ArtifactRecord} (h : d RECORD_FILE = some (.record r)) :
      Exported store d r.archive
  | debug {c : Content} {m : Json} {a : DebugArchive} (h : d MANIFEST_FILE = some c)
      (hm : store.parse (store.contentBytes c) = some m)
      (ha : manifestDebugArchive m = .ok (some a)) : Exported store d a.archive
  | sidecar {r : ArtifactRecord} {sbom provenance : Option EvidenceDigest} {e : EvidenceDigest}
      (h : d RECORD_FILE = some (.record r))
      (hr : ArtifactStore.evidence r = .ok (sbom, provenance))
      (he : e ∈ sbom.toList ++ provenance.toList) : Exported store d e.path

/-- The second directory has the exported files of the first. -/
def SameExports (store : ArtifactStore) (d d' : ObjectDir) : Prop :=
  ∀ name, Exported store d name → d' name = d name

/-- No exported file of an installed directory and no index entry has changed. -/
structure Untouched (store : ArtifactStore) (w w' : World) : Prop where
  index : w'.index = w.index
  dirs : ∀ o d, ¬ isTemporary o → w.objects o = some d →
    ∃ d', w'.objects o = some d' ∧ SameExports store d d'

section Untouched

variable {store : ArtifactStore} {w : World} {o temp : String} {d m : ObjectDir}
  {content : Option Content}

theorem SameExports.refl (d : ObjectDir) : SameExports store d d := fun _ _ => rfl

/-- A file that is not exported may change. -/
theorem SameExports.update (h : SameExports store d m) (htemp : ¬ Exported store d temp) :
    SameExports store d (Function.update m temp content) := by
  intro name hname
  rw [Function.update_of_ne (by rintro rfl; exact htemp hname)]
  exact h name hname

theorem Untouched.refl (w : World) : Untouched store w w :=
  ⟨rfl, fun _ d _ hd => ⟨d, hd, SameExports.refl d⟩⟩

/-- The store is untouched when its one directory has the files that are exported. -/
theorem SameExports.untouched (h : SameExports store d m) (hw : w.objects o = some d) :
    Untouched store w (w.setDir o (some m)) := by
  refine ⟨rfl, fun o' d' _ hd' => ?_⟩
  by_cases ho : o' = o
  · subst ho
    obtain rfl := Option.some.inj (hw.symm.trans hd')
    exact ⟨m, World.objects_setDir _, h⟩
  · exact ⟨d', by rwa [World.objects_setDir_of_ne _ ho], SameExports.refl d'⟩

theorem Untouched.sameExports (h : Untouched store w (w.setDir o (some m)))
    (ho : ¬ isTemporary o) (hw : w.objects o = some d) : SameExports store d m := by
  obtain ⟨d', hd', hsame⟩ := h.dirs o d ho hw
  rw [World.objects_setDir] at hd'
  cases hd'
  exact hsame

end Untouched

/-- The directory after a file was copied under a temporary name and renamed into place. -/
def replaced (m : ObjectDir) (temp name : String) (content : Bytes) : ObjectDir :=
  Function.update (Function.update m temp none) name (some (.bytes content))

/-- A directory with a file put into it where it was missing. -/
def putMissing (m : ObjectDir) (temp name : String) (content : Bytes) : ObjectDir :=
  if (m name).isSome then m else replaced m temp name content

/-- The sidecar is stored, and the record refers to it. -/
def isBound (m : ObjectDir) (storedDigest : Option String) (evidence : EvidenceDigest) : Bool :=
  storedDigest = some evidence.digest && (m evidence.path).isSome

/-- A directory with a sidecar put into it where it was not bound. -/
def putUnbound (m : ObjectDir) (temp : String) (storedDigest : Option String)
    (evidence : EvidenceDigest) (content : Bytes) : ObjectDir :=
  if isBound m storedDigest evidence then m else replaced m temp evidence.path content

theorem replaced_self (m : ObjectDir) (temp name : String) (content : Bytes) :
    replaced m temp name content name = some (.bytes content) :=
  Function.update_self _ _ _

theorem replaced_of_ne {m : ObjectDir} {temp name other : String} {content : Bytes}
    (htemp : other ≠ temp) (hname : other ≠ name) :
    replaced m temp name content other = m other := by
  rw [replaced, Function.update_of_ne hname, Function.update_of_ne htemp]

/-- The records an index reads as. -/
def indexed (w : World) : List ArtifactRecord :=
  (w.index.getD []).map ArtifactRecord.migrateLegacyProducer

namespace ArtifactStore

variable {store : ArtifactStore} {env : Environment StoreOp StoreOp.Reply StoreFault}
  {w s : World} {o : String} {d m : ObjectDir} {dist : Directory} {name temp : String}
  {content : Bytes} {pid : Nat}

/-- Faults strike while the store is untouched, and a failure leaves it so. -/
abbrev StoreSpec {α : Type} (store : ArtifactStore)
    (env : Environment StoreOp StoreOp.Reply StoreFault) (w : World) (p : Action α) (s : World)
    (Q : α → World → Prop) : Prop :=
  Program.Spec World.step env (Untouched store w) (Untouched store w) p s Q

/-! ## Results -/

theorem spec_ofResult {α : Type} {a : α} {r : Result α} {Q : α → World → Prop}
    (hr : r = .ok a) (h : Q a s) : StoreSpec store env w (Action.ofResult r) s Q := by
  subst hr
  exact Program.Spec.done_ok h

/-- A result that may fail, in an untouched store. -/
theorem spec_check {α : Type} {r : Result α} {Q : α → World → Prop}
    (hs : Untouched store w s) (h : ∀ a, r = .ok a → Q a s) :
    StoreSpec store env w (Action.ofResult r) s Q := by
  cases r with
  | ok a => exact Program.Spec.done_ok (h a rfl)
  | error e => exact Program.Spec.done_error hs

theorem spec_orIo {path : String} {ok : Bool} {Q : Unit → World → Prop}
    (hok : ok = true → Q () s) (herror : ok = false → Untouched store w s) :
    StoreSpec store env w (Action.orIo path ok) s Q := by
  cases ok with
  | true => exact Program.Spec.done_ok (hok rfl)
  | false => exact Program.Spec.done_error (herror rfl)

theorem spec_when {condition : Bool} {step : Action Unit} {Q : Unit → World → Prop}
    (htrue : condition = true → StoreSpec store env w step s Q)
    (hfalse : condition = false → Q () s) :
    StoreSpec store env w (Action.when condition step) s Q := by
  cases condition with
  | true => exact htrue rfl
  | false => exact Program.Spec.pure (hfalse rfl)

/-! ## One file -/

section Installed

variable (ho : ¬ isTemporary o) (hw : w.objects o = some d)

include hw

/-- A file is read, or reading fails in an untouched store. -/
theorem spec_readFile (h : m name = none → SameExports store d m) :
    StoreSpec store env w (Action.call (.readFile o name)) (w.setDir o (some m))
      fun content s' => s' = w.setDir o (some m) ∧
        (content = m name ∧ content.isSome ∨ content = none ∧ Untouched store w s') := by
  apply Program.Spec.perform
  intro fault hfault
  simp only [World.step_readFile, World.file?_setDir, true_and]
  cases fault with
  | none =>
    cases hname : m name with
    | none => exact .inr ⟨rfl, (h hname).untouched hw⟩
    | some c => exact .inl ⟨rfl, rfl⟩
  | some f => exact .inr ⟨rfl, hfault nofun⟩

theorem spec_readContent (h : m name = none → SameExports store d m) :
    StoreSpec store env w (store.readContent o name) (w.setDir o (some m))
      fun b s' => s' = w.setDir o (some m) ∧ ∃ c, m name = some c ∧ b = store.contentBytes c := by
  apply Program.Spec.bind (spec_readFile hw h)
  rintro content s ⟨rfl, ⟨hcontent, hsome⟩ | ⟨rfl, huntouched⟩⟩
  · obtain ⟨c, rfl⟩ := Option.isSome_iff_exists.mp hsome
    exact spec_ofResult rfl ⟨rfl, c, hcontent.symm, rfl⟩
  · exact Program.Spec.done_error huntouched

/-- A stored record is read, or reading it fails in an untouched store. -/
theorem spec_readRecord (h : SameExports store d m) :
    StoreSpec store env w (store.readRecord o) (w.setDir o (some m)) fun r s' =>
      s' = w.setDir o (some m) ∧
        ∃ stored, m RECORD_FILE = some (.record stored) ∧ r = stored.migrateLegacyProducer := by
  apply Program.Spec.bind (spec_readFile hw fun _ => h)
  rintro content s ⟨rfl, ⟨hcontent, hsome⟩ | ⟨rfl, huntouched⟩⟩
  · obtain ⟨c, rfl⟩ := Option.isSome_iff_exists.mp hsome
    cases c with
    | bytes b => exact Program.Spec.done_error (h.untouched hw)
    | record stored => exact Program.Spec.pure ⟨rfl, stored, hcontent.symm, rfl⟩
  · exact Program.Spec.done_error huntouched

omit hw in
theorem spec_probeFile :
    StoreSpec store env w (Action.call (.probeFile o name)) (w.setDir o (some m))
      fun present s' => s' = w.setDir o (some m) ∧ present = (m name).isSome := by
  apply Program.Spec.perform
  intro fault hfault
  simp only [World.step_probeFile, World.file?_setDir]
  exact ⟨trivial, trivial⟩

omit hw in
theorem spec_writeFile (content : Content) :
    StoreSpec store env w (store.writeFile o name content) (w.setDir o (some m))
      fun _ s' => s' = w.setDir o (some (Function.update m name (some content))) := by
  apply Program.Spec.bind (R := fun ok s' =>
    (ok = true → s' = w.setDir o (some (Function.update m name (some content)))) ∧
      (ok = false → Untouched store w s'))
  · apply Program.Spec.perform
    intro fault hfault
    cases fault with
    | none => exact ⟨fun _ => by simp [World.step_writeAtomic], by simp [World.step_writeAtomic]⟩
    | some f => exact ⟨nofun, fun _ => hfault nofun⟩
  · rintro ok s' ⟨hok, herror⟩
    exact spec_orIo hok herror

include ho

/-- A copied file is there, under its temporary name. -/
theorem spec_copyFrom (hread : dist.read name = .ok content) (htemp : ¬ Exported store d temp) :
    StoreSpec store env w (copyFrom dist name o temp) (w.setDir o (some m)) fun _ s' =>
      s' = w.setDir o (some (Function.update m temp (some (.bytes content)))) := by
  apply Program.Spec.bind (R := fun b s' => content = b ∧ s' = w.setDir o (some m))
    (spec_ofResult hread ⟨rfl, rfl⟩)
  rintro _ _ ⟨rfl, rfl⟩
  apply Program.Spec.bind (R := fun ok s' =>
    (ok = true → s' = w.setDir o (some (Function.update m temp (some (.bytes content))))) ∧
      (ok = false → Untouched store w s'))
  · apply Program.Spec.perform
    intro fault hfault
    simp only [World.step_copyFile, World.objects_setDir, Option.isNone_some, Bool.false_eq_true,
      if_false, World.setFile_setDir]
    cases fault with
    | none => exact ⟨fun _ => rfl, nofun⟩
    | some f =>
      -- a failed copy leaves what it likes under the temporary name
      have huntouched : Untouched store w (w.setDir o (some m)) := hfault nofun
      rcases f with ⟨leftover, kept⟩
      cases leftover with
      | none => exact ⟨nofun, fun _ => huntouched⟩
      | some b =>
        have hsame := huntouched.sameExports ho hw
        exact ⟨nofun, fun _ => (hsame.update htemp).untouched hw⟩
  · rintro ok s' ⟨hok, herror⟩
    exact spec_orIo hok herror

theorem spec_renameInto (hfile : m temp = some (.bytes content))
    (htemp : ¬ Exported store d temp) :
    StoreSpec store env w (store.renameInto o temp name) (w.setDir o (some m)) fun _ s' =>
      s' = w.setDir o (some (replaced m temp name content)) := by
  apply Program.Spec.bind (R := fun renamed s' =>
    (renamed = true → s' = w.setDir o (some (replaced m temp name content))) ∧
      (renamed = false → s' = w.setDir o (some m) ∧ Untouched store w s'))
  · apply Program.Spec.perform
    intro fault hfault
    cases fault with
    | none => exact ⟨fun _ => by simp [World.step_renameFile, hfile, replaced], by simp [World.step_renameFile, hfile]⟩
    | some f => exact ⟨nofun, fun _ => ⟨rfl, hfault nofun⟩⟩
  · rintro renamed s' ⟨hok, herror⟩
    cases renamed with
    | true => exact Program.Spec.pure (hok rfl)
    | false =>
      obtain ⟨rfl, huntouched⟩ := herror rfl
      apply Program.Spec.bind (R := fun _ s' => Untouched store w s')
      · apply Program.Spec.perform
        intro fault hfault
        simp only [World.step_removeFile, World.setFile_setDir]
        split
        · exact huntouched
        · exact ((huntouched.sameExports ho hw).update htemp).untouched hw
      · intro _ s' hs'
        exact Program.Spec.done_error hs'

/-- Replacing a file through a temporary name. -/
theorem spec_replaceFrom (hread : dist.read name = .ok content)
    (htemp : ¬ Exported store d temp) :
    StoreSpec store env w (store.replaceFrom dist o temp name) (w.setDir o (some m)) fun _ s' =>
      s' = w.setDir o (some (replaced m temp name content)) := by
  apply Program.Spec.bind (spec_copyFrom ho hw hread htemp)
  rintro - _ rfl
  have hfile : Function.update m temp (some (.bytes content)) temp = some (.bytes content) :=
    Function.update_self _ _ _
  apply Program.Spec.mono (spec_renameInto ho hw hfile htemp)
  · rintro - s' rfl
    rw [replaced, replaced, Function.update_idem]
  · exact fun _ h => h

/-! ## Debug archives and sidecars -/

omit ho in
/-- A verification of a stored file passes, or the store is still untouched. -/
theorem spec_verify (check : Bytes → Result Unit) {c : Content} (hc : m name = some c)
    (hcheck : check (store.contentBytes c) = .ok () ∨ SameExports store d m) :
    StoreSpec store env w (do Action.ofResult (check (← store.readContent o name)))
      (w.setDir o (some m)) fun _ s' =>
        s' = w.setDir o (some m) ∧ check (store.contentBytes c) = .ok () := by
  apply Program.Spec.bind (spec_readContent hw fun hnone => by simp [hc] at hnone)
  rintro _ _ ⟨rfl, c', hc', rfl⟩
  obtain rfl := Option.some.inj (hc.symm.trans hc')
  rcases hcheck with hok | hsame
  · exact spec_ofResult hok ⟨rfl, hok⟩
  · exact spec_check (hsame.untouched hw) fun _ hok => ⟨rfl, hok⟩

/-- Materialising a debug archive puts it where it was missing. It passes its claim unless
another file was there already, and then the store is still untouched. -/
theorem spec_materializeDebugArchive {debug : DebugArchive}
    (hread : dist.read debug.archive = .ok content)
    (htemp : ¬ Exported store d (debugTemp pid debug.archive))
    (hclaim : checkArchiveClaim store.toCodec debug content = .ok ())
    (hpresent : ∀ c, m debug.archive = some c →
      checkArchiveClaim store.toCodec debug (store.contentBytes c) = .ok () ∨
        SameExports store d m) :
    StoreSpec store env w (store.materializeDebugArchive pid dist o debug)
      (w.setDir o (some m)) fun _ s' =>
        let m' := putMissing m (debugTemp pid debug.archive) debug.archive content
        s' = w.setDir o (some m') ∧ ∃ c, m' debug.archive = some c ∧
          checkArchiveClaim store.toCodec debug (store.contentBytes c) = .ok () := by
  apply Program.Spec.bind spec_probeFile
  rintro present _ ⟨rfl, rfl⟩
  cases hm : m debug.archive with
  | none =>
    simp only [putMissing, hm, Option.isSome_none, Bool.false_eq_true, if_false]
    apply Program.Spec.bind (spec_replaceFrom ho hw hread htemp)
    rintro - _ rfl
    apply Program.Spec.mono (spec_verify hw (checkArchiveClaim store.toCodec debug)
      (replaced_self _ _ _ _) (.inl hclaim))
    · rintro - s' ⟨rfl, hok⟩
      exact ⟨rfl, _, replaced_self _ _ _ _, hok⟩
    · exact fun _ h => h
  | some c =>
    simp only [putMissing, hm, Option.isSome_some, if_true]
    apply Program.Spec.mono (spec_verify hw (checkArchiveClaim store.toCodec debug) hm
      (hpresent c hm))
    · rintro - s' ⟨rfl, hok⟩
      exact ⟨rfl, c, rfl, hok⟩
    · exact fun _ h => h

omit hw ho in
theorem spec_probeBound {storedDigest : Option String} {evidence : EvidenceDigest} :
    StoreSpec store env w (probeBound o storedDigest evidence) (w.setDir o (some m))
      fun bound s' => s' = w.setDir o (some m) ∧ bound = isBound m storedDigest evidence := by
  unfold probeBound
  by_cases hdigest : storedDigest = some evidence.digest
  · rw [if_pos hdigest]
    apply Program.Spec.mono spec_probeFile
    · rintro present s' ⟨rfl, rfl⟩
      exact ⟨rfl, by simp [isBound, hdigest]⟩
    · exact fun _ h => h
  · rw [if_neg hdigest]
    exact Program.Spec.pure ⟨rfl, by simp [isBound, hdigest]⟩

/-- Binding a sidecar puts it into place unless it was bound. A bound one passes its
verification, or the store is still untouched. -/
theorem spec_attachSidecar {storedDigest : Option String} {evidence : EvidenceDigest}
    (hread : dist.read evidence.path = .ok content)
    (htemp : ¬ Exported store d (evidenceTemp pid evidence.path))
    (hevidence : evidence = EvidenceDigest.ofBytes store.toCodec evidence.path content)
    (hbound : ∀ c, m evidence.path = some c → storedDigest = some evidence.digest →
      checkEvidence store.toCodec evidence (store.contentBytes c) = .ok () ∨
        SameExports store d m) :
    StoreSpec store env w (store.attachSidecar pid dist o storedDigest (some evidence))
      (w.setDir o (some m)) fun attached s' =>
        let m' := putUnbound m (evidenceTemp pid evidence.path) storedDigest evidence content
        attached = !isBound m storedDigest evidence ∧ s' = w.setDir o (some m') ∧
        ∃ c, m' evidence.path = some c ∧
          checkEvidence store.toCodec evidence (store.contentBytes c) = .ok () := by
  apply Program.Spec.bind spec_probeBound
  rintro bound _ ⟨rfl, rfl⟩
  cases hb : isBound m storedDigest evidence with
  | false =>
    simp only [putUnbound, hb, Bool.false_eq_true, if_false]
    have hclaim : checkEvidence store.toCodec evidence content = .ok () := by
      rw [checkEvidence_ok, hevidence]
      exact ⟨rfl, rfl⟩
    apply Program.Spec.bind (spec_replaceFrom ho hw hread htemp)
    rintro - _ rfl
    apply Program.Spec.bind (spec_verify hw (checkEvidence store.toCodec evidence)
      (replaced_self _ _ _ _) (.inl hclaim))
    rintro - _ ⟨rfl, hok⟩
    exact Program.Spec.pure ⟨rfl, rfl, _, replaced_self _ _ _ _, hok⟩
  | true =>
    simp only [putUnbound, hb, if_true]
    simp only [isBound, Bool.and_eq_true, decide_eq_true_eq] at hb
    obtain ⟨c, hc⟩ := Option.isSome_iff_exists.mp hb.2
    apply Program.Spec.bind (spec_verify hw (checkEvidence store.toCodec evidence) hc
      (hbound c hc hb.1))
    rintro - _ ⟨rfl, hok⟩
    exact Program.Spec.pure ⟨rfl, rfl, c, hc, hok⟩

end Installed

/-! ## The index -/

section Index

variable {I F : World → Prop} (hfail : I s → F s)

include hfail

theorem spec_readIndex (hs : s.index = w.index) :
    Program.Spec World.step env I F store.readIndex s fun artifacts s' =>
      s' = s ∧ artifacts = indexed w := by
  apply Program.Spec.bind (R := fun reply s' =>
    s' = s ∧ (reply = some (w.index.getD []) ∨ reply = none ∧ F s))
  · apply Program.Spec.perform
    intro fault hfault
    cases fault with
    | none => exact ⟨rfl, .inl (by simp [World.step_readIndex, hs])⟩
    | some f => exact ⟨rfl, .inr ⟨rfl, hfail (hfault nofun)⟩⟩
  · rintro reply s' ⟨rfl, rfl | ⟨rfl, hF⟩⟩
    · exact Program.Spec.done_ok ⟨rfl, rfl⟩
    · exact Program.Spec.done_error hF

theorem spec_writeIndex (artifacts : List ArtifactRecord) :
    Program.Spec World.step env I F (store.writeIndex artifacts) s
      fun _ s' => s' = { s with index := some artifacts } := by
  apply Program.Spec.bind (R := fun ok s' =>
    (ok = true → s' = { s with index := some artifacts }) ∧ (ok = false → F s'))
  · apply Program.Spec.perform
    intro fault hfault
    cases fault with
    | none => exact ⟨fun _ => rfl, nofun⟩
    | some f => exact ⟨nofun, fun _ => hfail (hfault nofun)⟩
  · rintro ok s' ⟨hok, herror⟩
    cases ok with
    | true => exact Program.Spec.done_ok (hok rfl)
    | false => exact Program.Spec.done_error (herror rfl)

/-- An upsert replaces the record of its digest. -/
theorem spec_indexUpsert {record : ArtifactRecord} (hs : s.index = w.index) :
    Program.Spec World.step env I F (store.indexUpsert record) s
      fun _ s' => s' = { s with index := some (upsertRecord record (indexed w)) } := by
  apply Program.Spec.bind (spec_readIndex hfail hs)
  rintro _ _ ⟨rfl, rfl⟩
  exact spec_writeIndex hfail _

end Index

end ArtifactStore

end OpenStrata
