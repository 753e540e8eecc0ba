import OpenStrata.Artifact.Store

/-!
# The operations a store program may call

An import over a stored digest works inside its object directory and on the index: it changes
no other directory, and neither creates nor removes one.

## Main definitions

* `StoreOp.Inside`: an operation on the files of a directory
* `SameBut`: stores that differ inside one directory

## Main results

* `World.step_inside`: an operation inside a directory leaves everything else
* `ArtifactStore.calls_importPresent`: what an import over a stored digest may call
-/

namespace OpenStrata

/-- An operation on the files of a directory. -/
def StoreOp.Inside (object : String) : StoreOp → Prop
  | .probeFile o _ | .readFile o _ | .copyFile o _ _ | .renameFile o _ _ | .writeAtomic o _ _
  | .removeFile o _ => o = object
  | _ => False

/-- The stores agree on the index, on every directory but one, and on whether that exists. -/
structure SameBut (o : String) (w w' : World) : Prop where
  index : w'.index = w.index
  objects : ∀ o', o' ≠ o → w'.objects o' = w.objects o'
  exists_iff : (w'.objects o).isSome = (w.objects o).isSome

theorem SameBut.refl (o : String) (w : World) : SameBut o w w := ⟨rfl, fun _ _ => rfl, rfl⟩

theorem SameBut.trans {o : String} {w w' w'' : World} (h : SameBut o w w')
    (h' : SameBut o w' w'') : SameBut o w w'' :=
  ⟨h'.index.trans h.index, fun o' ho' => (h'.objects o' ho').trans (h.objects o' ho'),
    h'.exists_iff.trans h.exists_iff⟩

theorem sameBut_setFile (o name : String) (content : Option Content) (w : World) :
    SameBut o w (w.setFile o name content) := by
  unfold World.setFile
  split
  · exact SameBut.refl o w
  · next d hd =>
    exact ⟨rfl, fun o' ho' => World.objects_setDir_of_ne _ ho', by simp [hd]⟩

/-- An operation inside a directory changes no other, nor the index, and neither creates nor
removes the directory. -/
theorem World.step_inside {o : String} {op : StoreOp} (h : op.Inside o)
    (fault : Option StoreFault) (w : World) : SameBut o w (World.step op fault w).2 := by
  cases op with
  | probeFile | readFile => exact SameBut.refl o w
  | copyFile =>
    obtain rfl := h
    simp only [World.step_copyFile]
    split
    · exact SameBut.refl _ w
    · split
      · exact sameBut_setFile _ _ _ w
      · exact sameBut_setFile _ _ _ w
      · exact SameBut.refl _ w
  | renameFile =>
    obtain rfl := h
    simp only [World.step_renameFile]
    split
    · exact (sameBut_setFile _ _ _ w).trans (sameBut_setFile _ _ _ _)
    · exact SameBut.refl _ w
  | writeAtomic | removeFile =>
    obtain rfl := h
    simp only [World.step_writeAtomic, World.step_removeFile]
    split
    · exact SameBut.refl _ w
    · exact sameBut_setFile _ _ _ w
  | probeDir | createDir | removeDir | renameDir | readIndex | writeIndex => exact h.elim

namespace ArtifactStore

variable {store : ArtifactStore} {P : StoreOp → Prop} {o temp name : String} {dist : Directory}
  {incoming : Incoming} {pid : Nat}

theorem calls_ofResult {α : Type} (r : Result α) : (Action.ofResult r).Calls P := trivial

theorem calls_when {condition : Bool} {step : Action Unit} (h : step.Calls P) :
    (Action.when condition step).Calls P := by
  cases condition with
  | true => exact h
  | false => trivial

/-- An operation inside a directory and what follows. -/
theorem calls_inside {α : Type} (op : StoreOp) (hop : op.Inside o) {f : op.Reply → Action α}
    (hf : ∀ r, (f r).Calls (StoreOp.Inside o)) :
    (Action.call op >>= f).Calls (StoreOp.Inside o) :=
  ⟨hop, hf⟩

theorem calls_readContent : (store.readContent o name).Calls (StoreOp.Inside o) :=
  calls_inside _ (by rfl) fun _ => trivial

theorem calls_readRecord : (store.readRecord o).Calls (StoreOp.Inside o) := by
  refine calls_inside _ (by rfl) fun content => ?_
  cases content with
  | none => trivial
  | some c => cases c <;> trivial

theorem calls_writeFile (content : Content) :
    (store.writeFile o name content).Calls (StoreOp.Inside o) :=
  calls_inside _ (by rfl) fun _ => trivial

theorem calls_copyFrom {source : String} :
    (copyFrom dist source o name).Calls (StoreOp.Inside o) :=
  (calls_ofResult _).bind fun _ => calls_inside _ (by rfl) fun _ => trivial

theorem calls_replaceFrom : (store.replaceFrom dist o temp name).Calls (StoreOp.Inside o) := by
  refine calls_copyFrom.bind fun _ => calls_inside _ (by rfl) fun renamed => ?_
  cases renamed with
  | true => trivial
  | false => exact calls_inside _ (by rfl) fun _ => trivial

theorem calls_materializeDebug :
    (store.materializeDebug pid incoming o).Calls (StoreOp.Inside o) := by
  unfold materializeDebug
  cases incoming.debug with
  | none => trivial
  | some a =>
    refine calls_inside _ (by rfl) fun _ => (calls_when calls_replaceFrom).bind fun _ => ?_
    exact calls_readContent.bind fun _ => trivial

theorem calls_attachSidecar {storedDigest : Option String} {evidence : Option EvidenceDigest} :
    (store.attachSidecar pid dist o storedDigest evidence).Calls (StoreOp.Inside o) := by
  cases evidence with
  | none => trivial
  | some e =>
    have hbound : (probeBound o storedDigest e).Calls (StoreOp.Inside o) := by
      unfold probeBound
      split
      · exact calls_inside _ (by rfl) fun _ => trivial
      · trivial
    refine hbound.bind fun _ => (calls_when calls_replaceFrom).bind fun _ => ?_
    refine Program.Calls.bind ?_ fun _ => trivial
    exact calls_readContent.bind fun _ => calls_ofResult _

theorem calls_commitManifest :
    (store.commitManifest pid incoming o).Calls (StoreOp.Inside o) :=
  calls_materializeDebug.bind fun _ => calls_writeFile _

theorem calls_commitRecord {manifest : Bytes} {committed : Bool} {record : ArtifactRecord} :
    (store.commitRecord incoming manifest committed o record).Calls (StoreOp.Inside o) :=
  (calls_writeFile _).bind fun _ => (calls_ofResult _).bind fun _ => calls_writeFile _

theorem calls_repairDebug {existing : ArtifactRecord} :
    (store.repairDebug pid incoming o existing).Calls (StoreOp.Inside o) :=
  calls_materializeDebug.bind fun _ => calls_writeFile _

/-- An operation inside a directory or on the index. -/
def Merging (o : String) (op : StoreOp) : Prop :=
  op.Inside o ∨ op = .readIndex ∨ ∃ artifacts, op = .writeIndex artifacts

theorem calls_indexUpsert {record : ArtifactRecord} :
    (store.indexUpsert record).Calls (Merging o) := by
  refine Program.Calls.bind ⟨.inr (.inl rfl), fun r => ?_⟩ fun _ => ?_
  · exact calls_ofResult _
  · exact ⟨.inr (.inr ⟨_, rfl⟩), fun _ => trivial⟩

/-- An import over a stored digest works inside its directory and on the index. -/
theorem calls_importPresent :
    (store.importPresent pid incoming).Calls (Merging incoming.record.digestHex) := by
  have hinside : ∀ {α : Type} {p : Action α}, p.Calls (StoreOp.Inside incoming.record.digestHex) →
      p.Calls (Merging incoming.record.digestHex) := fun h => h.mono fun _ hop => .inl hop
  refine (hinside calls_readRecord).bind fun stored => ?_
  refine (hinside calls_readContent).bind fun manifest => (calls_ofResult _).bind fun merged => ?_
  refine (calls_when (hinside calls_repairDebug)).bind fun _ => ?_
  refine (hinside calls_attachSidecar).bind fun sbom => ?_
  refine (hinside calls_attachSidecar).bind fun provenance => ?_
  refine (calls_when (hinside calls_commitManifest)).bind fun _ => ?_
  refine (calls_when (hinside calls_commitRecord)).bind fun _ => ?_
  exact calls_indexUpsert.bind fun _ => trivial

/-- An import over a stored digest installs no directory. -/
theorem objects_none_step {o o' : String} {op : StoreOp} (hop : Merging o op)
    (fault : Option StoreFault) {w : World} (h : w.objects o' = none) :
    (World.step op fault w).2.objects o' = none := by
  rcases hop with hinside | rfl | ⟨artifacts, rfl⟩
  · have hsame := World.step_inside hinside fault w
    by_cases ho : o' = o
    · subst ho
      have hsome := hsame.exists_iff
      rw [h, Option.isSome_none] at hsome
      simpa using hsome
    · rw [hsame.objects o' ho, h]
  · exact h
  · simp only [World.step_writeIndex]
    split
    · exact h
    · exact h

end ArtifactStore

end OpenStrata
