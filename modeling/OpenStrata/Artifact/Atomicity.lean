import OpenStrata.Artifact.StoreRuns

/-!
# Failed imports

What an import that failed has left visible. An import over a stored digest replaces the
stored sidecars before it has checked the debug archive that goes with the incoming manifest,
so a conflict there leaves a record that refers to sidecars which are gone. Where that cannot
happen, and no fault strikes between two visible changes, a failed import leaves the index and
every export as they were.

## Main definitions

* `Unchanged`: the index, every resolution and every export are as before

## Main results

* `Untouched.unchanged`: an untouched store resolves and exports what it did
* `importDist_atomic`: a failed import leaves everything unchanged
-/

namespace OpenStrata

/-- The index, what every reference resolves to, and what every export yields, are as
before. -/
structure Unchanged (store : ArtifactStore) (w w' : World) : Prop where
  index : w'.index = w.index
  resolve : ∀ digestRef,
    (Program.run World.step Environment.quiet (store.resolve digestRef) [] w').result =
      (Program.run World.step Environment.quiet (store.resolve digestRef) [] w).result
  «export» : ∀ digestRef dest,
    (Program.run World.step Environment.quiet (store.export digestRef dest) [] w').result =
      (Program.run World.step Environment.quiet (store.export digestRef dest) [] w).result

namespace ArtifactStore

variable {store : ArtifactStore} {w w' : World} {o name digestRef : String} {d d' : ObjectDir}
  {dest : Directory} {names : List String} {written : List (String × Bytes)}

theorem agree_readIndex (h : w'.index = w.index) :
    Program.Agree World.step store.readIndex w w' := by
  apply Program.Agree.bind (Program.Agree.perform rfl (by simp [World.step_readIndex, h]))
  exact fun _ _ => Program.Agree.done _ _ _

theorem agree_resolve (h : w'.index = w.index) :
    Program.Agree World.step (store.resolve digestRef) w w' := by
  apply Program.Agree.bind (Program.Agree.done _ _ _)
  intro _ _
  apply Program.Agree.bind (agree_readIndex h)
  exact fun _ _ => Program.Agree.done _ _ _

theorem agree_readContent (hd : w.objects o = some d) (hd' : w'.objects o = some d')
    (h : d' name = d name) : Program.Agree World.step (store.readContent o name) w w' := by
  apply Program.Agree.bind
    (Program.Agree.perform rfl (by simp [World.step_readFile, World.file?, hd, hd', h]))
  exact fun _ _ => Program.Agree.done _ _ _

theorem agree_exportFiles (hd : w.objects o = some d) (hd' : w'.objects o = some d')
    (h : ∀ name ∈ names, d' name = d name) :
    Program.Agree World.step (store.exportFiles dest o names written) w w' := by
  induction names generalizing written with
  | nil => exact Program.Agree.done _ _ _
  | cons name rest ih =>
    apply Program.Agree.bind (Program.Agree.done _ _ _)
    intro _ _
    apply Program.Agree.bind (agree_readContent hd hd' (h name (List.mem_cons_self ..)))
    exact fun _ _ => ih fun other hother => h other (List.mem_cons_of_mem _ hother)

/-- A content that is read is that of the file. -/
theorem readContent_endsWith {b : Bytes} (hd : w.objects o = some d)
    (h : Program.EndsWith World.step (store.readContent o name) w (.ok b)) :
    ∃ c, d name = some c ∧ b = store.contentBytes c := by
  have hresult := h.result []
  have hrun : (Program.run World.step Environment.quiet (store.readContent o name) [] w).result =
      Result.okOr (.io (store.filePath o name)) ((d name).map store.contentBytes) := by
    simp only [readContent, Action.call, Program.perform_bind, Program.run_call,
      Action.ofResult, Program.run_done, Environment.quiet, World.step, World.file?, hd,
      Option.bind_some, Option.isSome_none, Bool.false_eq_true, if_false]
  rw [hrun, Result.okOr_ok] at hresult
  obtain ⟨c, hc, rfl⟩ := Option.map_eq_some_iff.mp hresult
  exact ⟨c, hc, rfl⟩

/-- A resolved record is an index entry. -/
theorem resolve_endsWith {record : ArtifactRecord} (hw : Sound store w)
    (h : Program.EndsWith World.step (store.resolve digestRef) w (.ok record)) :
    record ∈ w.index.getD [] := by
  obtain ⟨past', hrun⟩ := h []
  have hspec : Program.Spec World.step Environment.quiet (fun _ => True) (fun _ => True)
    (store.resolve digestRef) w _ := spec_resolve trivial
  have hpost := hspec.of_ok (Program.faultsWithin_quiet _ _ _) hrun
  rw [← hw.indexed]
  exact mem_of_resolveIn hpost.2

/-- An untouched store exports what it did. -/
theorem agree_export (hw : Sound store w) (h : Untouched store w w') :
    Program.Agree World.step (store.export digestRef dest) w w' := by
  unfold «export»
  apply Program.Agree.bind (agree_resolve h.index)
  intro record hrecord
  obtain ⟨htemp, d, hd, hfile⟩ := hw.index record (resolve_endsWith hw hrecord)
  obtain ⟨d', hd', hsame⟩ := h.dirs _ d htemp hd
  unfold producerManifest
  rw [Program.bind_assoc]
  apply Program.Agree.bind (agree_readContent hd hd' (hsame _ .manifest))
  intro bytes hbytes
  obtain ⟨c, hc, rfl⟩ := readContent_endsWith hd hbytes
  apply Program.Agree.bind (Program.Agree.done _ _ _)
  intro manifest hmanifest
  apply Program.Agree.bind (Program.Agree.done _ _ _)
  intro debug hdebug
  apply Program.Agree.bind (Program.Agree.done _ _ _)
  rintro ⟨sbom, provenance⟩ hevidence
  -- every name that the export copies is an exported one
  apply Program.Agree.bind (agree_exportFiles hd hd' fun name hname => hsame name ?_)
  · intro written _
    apply Program.Agree.bind (Program.Agree.done _ _ _)
    exact fun _ _ => Program.Agree.done _ _ _
  · have hparse := Result.okOr_ok.mp hmanifest.eq_of_done
    have hpromised := hdebug.eq_of_done
    have hsidecars := hevidence.eq_of_done
    simp only [List.mem_append, List.mem_map, List.mem_cons, List.not_mem_nil, or_false,
      Option.mem_toList] at hname
    rcases hname with (((rfl | ⟨a, rfl, rfl⟩) | ⟨e, he, rfl⟩) | rfl | rfl | rfl)
    · exact .archive hfile
    · exact .debug hc hparse hpromised
    · exact .sidecar hfile hsidecars (by simpa using he)
    · exact .manifest
    · exact .sums
    · exact .record

end ArtifactStore

/-- An untouched store resolves and exports what it did. -/
theorem Untouched.unchanged {store : ArtifactStore} {w w' : World} (h : Untouched store w w')
    (hw : Sound store w) : Unchanged store w w' where
  index := h.index
  resolve := by
    intro digestRef
    have hagree : Program.Agree World.step (store.resolve digestRef) w w' :=
      ArtifactStore.agree_resolve h.index
    obtain ⟨r, hr, hr'⟩ := hagree
    rw [hr.result, hr'.result]
  «export» := by
    intro digestRef dest
    obtain ⟨r, hr, hr'⟩ := ArtifactStore.agree_export hw h
    rw [hr.result, hr'.result]

/-- In every run of safe imports and removals, an import that fails leaves the index, every
resolution and every export unchanged. -/
theorem importDist_atomic {store : ArtifactStore} {w w' : World}
    (hrun : StoreRun store (SafeCall store) w)
    {env : Environment StoreOp StoreOp.Reply StoreFault} {pid createdUnix : Nat}
    {path : DistPath} {source : ArtifactSource}
    (hsafe : SafeCall store w env (.importDist pid createdUnix path source))
    {e : Error} {past : List (Event StoreOp StoreOp.Reply)}
    (hfail : Program.run World.step env (store.importDist pid createdUnix path source) [] w =
      ⟨.error e, past, w'⟩) : Unchanged store w w' := by
  have hsound := hrun.sound
  have hextends := (ArtifactStore.spec_importDist hsound hsafe.1).of_error hsafe.2 hfail
  exact hextends.untouched.unchanged hsound

/-! ## A conflicting debug archive

A package is stored with an SBOM and a debug archive. Another build of it brings a new SBOM, a
provenance statement, and a debug archive of the same name with other content. -/

namespace Atomicity.Sample

open Store.Sample (emptyDir digest)

def debugField (digest : String) (size : Int) : List (String × Json) :=
  [("debug", .obj [("archive", .str "demo-debug.tar.zst"), ("archive_digest", .str digest),
    ("archive_size", .int size), ("files", .arr [])])]

def firstManifest : Json := Store.Sample.manifest
  (debugField "sha256:6b86b273ff34fce19d6b804eff5a3f5747ada4eaa22f1d49c01e52ddb7875b4b" 1) []

def secondManifest : Json := Store.Sample.manifest
  (debugField "sha256:785f3ec7eb32f30b90cd0fcf3657d388b5ff4297f2f9716ff66e9b69c05ddd09" 2)
  [("producer", .str "ost")]

/-- The SBOM of the second build, which also names its document. -/
def secondSbom : Json :=
  match Transport.Sample.sbom with
  | .obj fields => .obj (("name", .str "demo") :: fields)
  | other => other

def store : ArtifactStore := Store.Sample.store
  [(11, Transport.Sample.archiveHex),
    (1, "6b86b273ff34fce19d6b804eff5a3f5747ada4eaa22f1d49c01e52ddb7875b4b"),
    (2, "785f3ec7eb32f30b90cd0fcf3657d388b5ff4297f2f9716ff66e9b69c05ddd09"),
    (161, "361847ebbbf45059a3948cb36787246c137da4557aad02381a50ae2f24f51b30"),
    (175, "9d16d1fa896f2b4a04ed59b888d66e6c17a4d126d4b3eb67efea93e270d03d9a"),
    (382, "2d23b456d4ff3f68f815fd173fc02433dc3ffff912c5637f65afb1986f0fe31e")]
  [(449, firstManifest), (466, secondManifest), (161, Transport.Sample.sbom), (175, secondSbom),
    (382, Transport.Sample.statement)]

def firstDist : DistPath := Store.Sample.dist firstManifest
  [("demo-debug.tar.zst", [0x31]), (SBOM_FILE, jsonBytes Transport.Sample.sbom)]

def secondDist : DistPath := Store.Sample.dist secondManifest
  [("demo-debug.tar.zst", [0x32, 0x32]), (SBOM_FILE, jsonBytes secondSbom),
    (PROVENANCE_FILE, jsonBytes Transport.Sample.statement)]

/-- The first build with another archive under its name. -/
def tamperedDist : DistPath := Store.Sample.dist firstManifest [("demo-debug.tar.zst", [])]

def firstImport : StoreCall := .importDist 1 0 firstDist .imported

/-- The store that holds the first build. -/
def stored : World := firstImport.run store Environment.quiet World.empty

/-- Importing the second build. -/
def secondImport : Program.Outcome StoreOp StoreOp.Reply World Error ImportOutcome :=
  Program.run World.step Environment.quiet (store.importDist 2 0 secondDist .imported) [] stored

/-- An export yields the artifact's files. -/
def exports (w : World) : Bool :=
  (Program.run World.step Environment.quiet (store.export digest emptyDir) [] w).result.toOption.isSome

/-- The second import fails, and the artifact that could be exported no longer can. -/
theorem secondImport_fails : exports stored = true ∧
    secondImport.result.toOption.isSome = false ∧ exports secondImport.state = false := by
  decide +kernel

theorem stored_safe : StoreRun store (SafeCall store) stored :=
  StoreRun.call StoreRun.empty Environment.quiet firstImport
    (safeCall_quiet (importSafe_empty store 1 0 firstDist .imported))

theorem tampered_fails :
    (readIncoming store.toCodec tamperedDist .imported 0).toOption = none := by
  decide +kernel

end Atomicity.Sample

/-- A run without a value ended with an error. -/
theorem Program.Outcome.of_isSome_eq_false {Op : Type} {Reply : Op → Type} {S E α : Type}
    (outcome : Program.Outcome Op Reply S E α) (h : outcome.result.toOption.isSome = false) :
    ∃ e, outcome = ⟨.error e, outcome.past, outcome.state⟩ := by
  obtain ⟨result, past, s⟩ := outcome
  cases result with
  | ok a => cases h
  | error e => exact ⟨e, rfl⟩

open Atomicity.Sample in
/-- A failed import may leave an artifact that can no longer be exported. -/
theorem importDist_not_atomic :
    ∃ w e past w', StoreRun store (fun _ _ _ => True) w ∧
      Program.run World.step Environment.quiet (store.importDist 2 0 secondDist .imported) [] w =
        ⟨.error e, past, w'⟩ ∧ ¬ Unchanged store w w' := by
  obtain ⟨hbefore, hfails, hafter⟩ := secondImport_fails
  obtain ⟨e, hrun⟩ := secondImport.of_isSome_eq_false hfails
  refine ⟨stored, e, secondImport.past, secondImport.state,
    StoreRun.call StoreRun.empty _ firstImport trivial, hrun, ?_⟩
  intro hunchanged
  rw [exports, ← hunchanged.export, ← exports, hafter] at hbefore
  cases hbefore

open Atomicity.Sample in
theorem importDist_atomic_sample :
    ∃ w', Unchanged store stored w' ∧ ∃ e past,
      Program.run World.step Environment.quiet (store.importDist 2 0 tamperedDist .imported) []
        stored = ⟨.error e, past, w'⟩ := by
  have htampered := tampered_fails
  cases hread : readIncoming store.toCodec tamperedDist .imported 0 with
  | ok incoming =>
    rw [hread] at htampered
    cases htampered
  | error e =>
    have hrun : Program.run World.step Environment.quiet
        (store.importDist 2 0 tamperedDist .imported) [] stored = ⟨.error e, [], stored⟩ := by
      unfold ArtifactStore.importDist
      rw [hread]
      rfl
    have hsafe : ImportSafe store 2 0 tamperedDist .imported stored := by
      intro incoming hincoming
      rw [hread] at hincoming
      cases hincoming
    exact ⟨stored, importDist_atomic stored_safe (safeCall_quiet hsafe) hrun, e, [], hrun⟩

end OpenStrata
