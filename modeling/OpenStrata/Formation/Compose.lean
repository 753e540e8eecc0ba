import OpenStrata.Formation.Closure
import OpenStrata.Formation.Sdk
import OpenStrata.Lib.FileTree
import OpenStrata.Lib.ProgramSpec

/-!
# Composing a runtime

Composition resolves a manifest to a lock, assembles the composed runtime in a staging directory
next to its destination, publishes it there by renaming, and then writes the lock. Each step may
fail, and a failure of a step before the publication leaves the destination and the lock as they
were. The lock is written last and in place: when that fails, the published output stays, and so
does what became of the lock.

The resolution of a manifest, the extraction of an artifact and the check of an assembled prefix
are arbitrary programs here, which write where the store or the staging directory is.

## Main definitions

* `RuntimeCompositionLock`, `Composer`: the lock, and what composition is made of
* `materialize`, `compose`: the assembly of a runtime and the whole command
* `LeavesNoTrace`: a failed run changes neither destination, a successful one leaves both in
  agreement
* `LockIsWritten`: the last step does not fail, or fails without a trace

## Main results

* `spec_prepare`: every failure before the last step leaves no trace
* `compose_leavesNoTrace_iff`: a run leaves no trace exactly when the lock is written
-/

namespace OpenStrata.Compose

open FileTree (Location Tree IsTree Op Apart)

/-! ## Locks -/

structure LockedCompositionArtifact where
  manifestDigest : String
  record : ArtifactRecord
  deriving DecidableEq

structure CompositionDependency where
  consumer : String
  capability : String
  provider : String
  digest : String
  deriving DecidableEq

deriving instance DecidableEq for RuntimeCompositionManifest

structure RuntimeCompositionLock where
  schema : String
  manifest : RuntimeCompositionManifest
  resolved : ResolvedRuntimeComposition
  artifacts : List LockedCompositionArtifact
  dependencies : List CompositionDependency
  inventory : List CompositionInventoryEntry
  sdk : Option RuntimeSdkLayout
  runtimeDigest : String
  deriving DecidableEq

def lockMismatch (message : String) : Error :=
  .ofCode "COMPOSITION_LOCK_MISMATCH" .validation message

/-- Two locks that differ in the acquisition of their artifacts at most. -/
def requireSameLock (expected actual : RuntimeCompositionLock) : Result Unit :=
  Result.failIf ({ expected with manifest := expected.manifest.canonical } ≠
      { actual with manifest := actual.manifest.canonical })
    (lockMismatch
      "immutable artifacts, producer metadata or resolved inventory differ from the lock")

/-! ## Programs over files -/

abbrev FileAction := Program Op Op.Reply Error

def ofResult {α : Type} (r : Result α) : FileAction α := .done r

def ioError (p : Location) : Error := .io (Text.join "/" ("" :: p))

/-- The answer of an operation as success or an i/o error. -/
def orIo (p : Location) (ok : Bool) : FileAction Unit :=
  ofResult (Result.failIf (ok = false) (ioError p))

/-- `fs::symlink_metadata`. -/
def status (p : Location) : FileAction (Option FileTree.Node) :=
  Program.perform (Op.status p)

def createDirAll (p : Location) : FileAction Unit :=
  Program.perform (.createDirAll p) >>= orIo p

def copyFile (source target : Location) : FileAction Unit :=
  Program.perform (.copyFile source target) >>= orIo target

def read (p : Location) : FileAction FileTree.Content :=
  Program.perform (.readFile p) >>= fun content => ofResult (Result.okOr (ioError p) content)

/-- `write_json`: the file is written in place. -/
def writeJson (p : Location) (bytes : FileTree.Content) : FileAction Unit := do
  createDirAll p.dropLast
  let ok ← Program.perform (.writeFile p bytes)
  orIo p ok

/-- The steps of a list one after the other. -/
def each {α : Type} (step : α → FileAction Unit) : List α → FileAction Unit
  | [] => pure ()
  | a :: rest => step a >>= fun _ => each step rest

/-- `Utf8Path::join` of a relative path with slashes. -/
def within (root : Location) (relative : String) : Location :=
  root ++ Text.split (· == '/') relative

def LOCK_PATH : String := "metadata/composition.lock.json"

/-- What composition is made of, and where each part of it writes. -/
structure Composer where
  storeRoot : Location
  /-- `RuntimeCompositionManifest::parse`. -/
  parseManifest : FileTree.Content → Result RuntimeCompositionManifest
  /-- The lock of a file, validated. -/
  parseLock : FileTree.Content → Result RuntimeCompositionLock
  validate : RuntimeCompositionLock → Result Unit
  /-- `serde_json::to_string_pretty` and a newline, of a lock and of other metadata. -/
  lockBytes : RuntimeCompositionLock → FileTree.Content
  sdkBytes : RuntimeSdkLayout → FileTree.Content
  producerBytes : Json → FileTree.Content
  attribution : RuntimeCompositionLock → FileTree.Content
  validationReport : RuntimeCompositionLock → FileTree.Content
  /-- Fetch the inputs into the store, resolve them and derive the SDK. -/
  buildLock : (manifest : RuntimeCompositionManifest) → (verifySources sdk : Bool) →
    FileAction RuntimeCompositionLock
  calls_buildLock : ∀ manifest verifySources sdk,
    (buildLock manifest verifySources sdk).Calls (Op.Around storeRoot)
  /-- Extract an artifact of the store into a directory. -/
  extract : (digest : String) → (target : Location) → FileAction Unit
  calls_extract : ∀ digest target, (extract digest target).Calls (Op.Around target)
  /-- The record of a verified artifact and its producer's manifest. -/
  verifiedArtifact : (digest : String) → FileAction (ArtifactRecord × Json)
  calls_verifiedArtifact : ∀ digest, (verifiedArtifact digest).Calls (Op.Around storeRoot)
  /-- Compare an assembled prefix with the lock in it. -/
  verifyPrefix : (root : Location) → FileAction RuntimeCompositionLock
  calls_verifyPrefix : ∀ root, (verifyPrefix root).Calls fun op => ∀ q, ¬op.Reaches q

/-! ## Assembly -/

section Assembly

variable (c : Composer) (lock : RuntimeCompositionLock) (root : Location)

def outputExists (dest : Location) : Error :=
  .ofCode "COMPOSITION_OUTPUT_EXISTS" .validation
    ("destination '" ++ Text.join "/" ("" :: dest) ++ "' already exists")

def sdkInvalid : Error :=
  .ofCode "COMPOSITION_SDK_INVALID" .validation "SDK roots must be regular directories"

/-- `Staging::for_destination`, with the name of the fresh sibling directory. -/
def forDestination (scratch : String) (dest : Location) : FileAction Location := do
  let node ← status dest
  ofResult (Result.failIf node.isSome (outputExists dest))
  createDirAll dest.dropLast
  let ok ← Program.perform (.createDir (dest.dropLast ++ [scratch]))
  orIo (dest.dropLast ++ [scratch]) ok
  return dest.dropLast ++ [scratch]

/-- `Staging::publish`. -/
def publish (dest : Location) : FileAction Unit := do
  let node ← status dest
  ofResult (Result.failIf node.isSome (outputExists dest))
  let ok ← Program.perform (.rename root dest)
  orIo dest ok

def objectDir (record : ArtifactRecord) : Location :=
  c.storeRoot ++
    ["objects", "sha256", (Text.stripPrefix "sha256:" record.digest).getD record.digest]

/-- The payload of a component, and the metadata that is retained beside it. -/
def assembleComponent (component : ResolvedRuntimeComponent) : FileAction Unit := do
  c.extract component.digest (root ++ ["components", component.id])
  let verified ← c.verifiedArtifact component.digest
  let metadata := root ++ ["metadata", "components", component.id]
  writeJson (metadata ++ ["manifest.json"]) (c.producerBytes verified.2)
  each (fun name => copyFile (objectDir c verified.1 ++ [name]) (metadata ++ [name]))
    ([verified.1.sbom, verified.1.provenance].filterMap id)

def sdkRoot (directory : String) : FileAction Unit := do
  let node ← status (within root directory)
  ofResult (Result.failIf (node.isSome ∧ node ≠ some .directory) sdkInvalid)
  createDirAll (within root directory)

/-- A file of the SDK, copied from the component that it comes from. -/
def copySdkFile (entry : SdkFile) : FileAction Unit := do
  createDirAll (within root entry.file.path).dropLast
  copyFile (within root entry.source) (within root entry.file.path)

def linkSdkFile (entry : SdkFile) (target : String) : FileAction Unit := do
  createDirAll (within root entry.file.path).dropLast
  let ok ← Program.perform (.makeLink target (within root entry.file.path))
  orIo (within root entry.file.path) ok

/-- `materialize_sdk`: files before links. -/
def materializeSdk : Option RuntimeSdkLayout → FileAction Unit
  | none => pure ()
  | some sdk => do
    each (sdkRoot root) sdk.roots
    each (copySdkFile root) (sdk.files.filter (·.file.linkTarget.isNone))
    each (fun entry : SdkFile × String => linkSdkFile root entry.1 entry.2)
      (sdk.files.filterMap fun entry => entry.file.linkTarget.map fun target => (entry, target))
    writeJson (within root "metadata/sdk.json") (c.sdkBytes sdk)

/-- Everything that is in the staging directory before it is published. -/
def assemble : FileAction Unit := do
  each (assembleComponent c root) lock.resolved.components
  materializeSdk c root lock.sdk
  writeJson (within root LOCK_PATH) (c.lockBytes lock)
  writeJson (within root "metadata/attribution.json") (c.attribution lock)
  writeJson (within root "metadata/validation.json") (c.validationReport lock)
  let _ ← c.verifyPrefix root

/-- `materialize`; the staging directory is removed however the assembly ends. -/
def materialize (scratch : String) (dest : Location) : FileAction Unit := do
  ofResult (c.validate lock)
  let root ← forDestination scratch dest
  let result ← (assemble c lock root >>= fun _ => publish root dest).attempt
  let _ ← Program.perform (.removeAll root)
  ofResult result

end Assembly

/-! ## The command -/

/-- A call of the command, with its paths as they are resolved. -/
structure Call where
  manifest : Location
  lockPath : Option Location
  locked : Bool
  output : Option Location
  /-- The name of the staging directory, made of the process and the time. -/
  scratch : String

def outputOverlap : Error :=
  .ofCode "COMPOSITION_OUTPUT_OVERLAP" .validation
    "lock file and composed output must use separate paths"

/-- `prospective_path`. -/
def prospectivePath (p : Location) : FileAction Location := do
  let ok ← Program.perform (.resolve p)
  orIo p ok
  return p

/-- A lock that is written and an output do not lie in each other. -/
def checkOverlap (call : Call) : FileAction Unit :=
  match call.lockPath, call.output with
  | some lock, some dest =>
    if call.locked then pure ()
    else do
      let lock ← prospectivePath lock
      let dest ← prospectivePath dest
      ofResult (Result.failIf (dest.isPrefixOf lock ∨ lock.isPrefixOf dest) outputOverlap)
  | _, _ => pure ()

def readLock (c : Composer) (p : Location) : FileAction RuntimeCompositionLock :=
  read p >>= fun bytes => ofResult (c.parseLock bytes)

/-- The lock that a locked composition has to come to. -/
def readPrevious (c : Composer) (call : Call) : FileAction (Option RuntimeCompositionLock) :=
  if call.locked then
    match call.lockPath with
    | none => ofResult (.error (.usage "--locked requires --lock"))
    | some p => readLock c p >>= fun lock => pure (some lock)
  else pure none

def checkManifest (manifest : RuntimeCompositionManifest) :
    Option RuntimeCompositionLock → Result Unit
  | none => .ok ()
  | some previous => Result.failIf (previous.manifest.canonical ≠ manifest.canonical)
      (lockMismatch "manifest differs from the locked composition")

def checkPrevious (lock : RuntimeCompositionLock) : Option RuntimeCompositionLock → Result Unit
  | none => .ok ()
  | some previous => requireSameLock previous lock

/-- Everything before the lock is written. -/
def prepare (c : Composer) (call : Call) : FileAction RuntimeCompositionLock := do
  checkOverlap call
  let source ← read call.manifest
  let manifest ← ofResult (c.parseManifest source)
  let previous ← readPrevious c call
  ofResult (checkManifest manifest previous)
  let lock ← c.buildLock manifest (!call.locked) (previous.all (·.sdk.isSome))
  ofResult (checkPrevious lock previous)
  match call.output with
  | some dest => materialize c lock call.scratch dest
  | none => pure ()
  return lock

/-- The lock file that the command writes. -/
def Call.written (call : Call) : Option Location := if call.locked then none else call.lockPath

/-- `compose`, without the report it prints. -/
def compose (c : Composer) (call : Call) : FileAction RuntimeCompositionLock := do
  let lock ← prepare c call
  match call.written with
  | some p => writeJson p (c.lockBytes lock)
  | none => pure ()
  return lock

/-! ## Traces -/

/-- Below a path, the tree is as it was. -/
def Same (s t : Tree) (x : Location) : Prop := ∀ q, x <+: q → t q = s q

def Call.targets (call : Call) : List Location := call.output.toList ++ call.lockPath.toList

/-- Below the destination and the lock, the tree is as it was. -/
def Kept (call : Call) (s t : Tree) : Prop := ∀ x ∈ call.targets, Same s t x

/-- An operation changes nothing below the destination and the lock. -/
def Harmless (call : Call) (op : Op) : Prop := ∀ x ∈ call.targets, ∀ q, x <+: q → ¬op.Reaches q

section Traces

variable {call : Call} {s t : Tree} {x : Location} {op : Op} {α β : Type} {p : FileAction α}
  {env : Environment Op Op.Reply FileTree.Fault}

theorem Same.refl (s : Tree) (x : Location) : Same s s x := fun _ _ => rfl

/-- A specification under arbitrary faults, in which a failure leaves no trace. -/
abbrev Traceless (call : Call) (env : Environment Op Op.Reply FileTree.Fault) (s : Tree)
    (p : FileAction α) (t : Tree) (Q : α → Tree → Prop) : Prop :=
  Program.Spec FileTree.step env (fun _ => True) (Kept call s) p t Q

theorem kept_step (hop : Harmless call op) {fault : Option FileTree.Fault} (ht : Kept call s t) :
    Kept call s (FileTree.step op fault t).2 := by
  intro x hx q hq
  rw [FileTree.step_of_not_reaches (hop x hx q hq)]
  exact ht x hx q hq

/-- A program of harmless operations leaves no trace at all. -/
theorem traceless_of_calls (hp : p.Calls (Harmless call)) (ht : Kept call s t) :
    Traceless call env s p t fun _ t' => Kept call s t' :=
  Program.Spec.of_calls hp (fun _ _ _ hop => kept_step hop) ht

theorem traceless_ofResult {r : Result α} (ht : Kept call s t) :
    Traceless call env s (ofResult r) t fun a t' => r = .ok a ∧ t' = t := by
  cases r with
  | ok a => exact Program.Spec.done_ok ⟨rfl, rfl⟩
  | error e => exact Program.Spec.done_error ht

theorem harmless_of_around {root : Location} (hroot : ∀ x ∈ call.targets, Apart root x)
    (hop : op.Around root) : Harmless call op :=
  fun x hx _ hq => hop.not_reaches (hroot x hx) hq

theorem harmless_of_not_reaches (hop : ∀ q, ¬op.Reaches q) : Harmless call op :=
  fun _ _ q _ => hop q

/-- What stands at a path that is not reached stays. -/
theorem traceless_keeping {node : Option FileTree.Node}
    (hp : p.Calls fun op => Harmless call op ∧ ¬op.Reaches x) (ht : Kept call s t)
    (hx : t x = node) :
    Traceless call env s p t fun _ t' => Kept call s t' ∧ t' x = node := by
  have hboth : Program.Spec FileTree.step env (fun _ => True)
      (fun t' => Kept call s t' ∧ t' x = node) p t fun _ t' => Kept call s t' ∧ t' x = node := by
    refine Program.Spec.of_calls hp (fun op fault t' hop ht' => ⟨kept_step hop.1 ht'.1, ?_⟩)
      ⟨ht, hx⟩
    rw [FileTree.step_of_not_reaches hop.2]
    exact ht'.2
  exact hboth.mono (fun _ _ h => h) fun _ h => h.1

theorem traceless_orIo {q : Location} {ok : Bool} (ht : Kept call s t) :
    Traceless call env s (orIo q ok) t fun _ t' => ok = true ∧ t' = t :=
  (traceless_ofResult ht).mono (fun _ _ h => ⟨by simpa using (Result.failIf_ok.mp h.1), h.2⟩)
    fun _ h => h

end Traces

/-! ## The operations of the parts -/

section Calls

variable {P : Op → Prop} {root p : Location} {α : Type}

theorem calls_ofResult (r : Result α) : (ofResult r).Calls P := Program.calls_done r

theorem calls_orIo {ok : Bool} : (orIo p ok).Calls P := calls_ofResult _

theorem calls_createDirAll (h : P (.createDirAll p)) : (createDirAll p).Calls P :=
  (Program.calls_perform h).bind fun _ => calls_orIo

theorem calls_copyFile {source : Location} (h : P (.copyFile source p)) :
    (copyFile source p).Calls P :=
  (Program.calls_perform h).bind fun _ => calls_orIo

theorem calls_writeJson {bytes : FileTree.Content} (hdir : P (.createDirAll p.dropLast))
    (h : P (.writeFile p bytes)) : (writeJson p bytes).Calls P :=
  (calls_createDirAll hdir).bind fun _ => (Program.calls_perform h).bind fun _ => calls_orIo

theorem calls_each {step : α → FileAction Unit} {l : List α} (h : ∀ a ∈ l, (step a).Calls P) :
    (each step l).Calls P := by
  induction l with
  | nil => exact Program.calls_pure ()
  | cons a l ih =>
    obtain ⟨ha, hrest⟩ := List.forall_mem_cons.mp h
    exact ha.bind fun _ => ih hrest

theorem prefix_within (root : Location) (relative : String) : root <+: within root relative :=
  List.prefix_append _ _

/-- A file below the root is written around the root. -/
theorem calls_writeJson_around {bytes : FileTree.Content} (hroot : root <+: p) :
    (writeJson p bytes).Calls (Op.Around root) :=
  calls_writeJson (FileTree.around_createDirAll (List.dropLast_prefix p) hroot)
    (FileTree.around_writeFile hroot)

theorem calls_sdkRoot (directory : String) : (sdkRoot root directory).Calls (Op.Around root) :=
  (Program.calls_perform fun _ h => h.elim).bind fun _ => (calls_ofResult _).bind fun _ =>
    calls_createDirAll (FileTree.around_createDirAll List.prefix_rfl (prefix_within root directory))

theorem calls_copySdkFile (entry : SdkFile) : (copySdkFile root entry).Calls (Op.Around root) :=
  (calls_createDirAll (FileTree.around_createDirAll (List.dropLast_prefix _)
    (prefix_within root entry.file.path))).bind fun _ =>
      calls_copyFile (FileTree.around_copyFile (prefix_within root entry.file.path))

theorem calls_linkSdkFile (entry : SdkFile) (target : String) :
    (linkSdkFile root entry target).Calls (Op.Around root) :=
  (calls_createDirAll (FileTree.around_createDirAll (List.dropLast_prefix _)
    (prefix_within root entry.file.path))).bind fun _ =>
      (Program.calls_perform (FileTree.around_makeLink (prefix_within root entry.file.path))).bind
        fun _ => calls_orIo

variable {c : Composer}

theorem calls_materializeSdk (sdk : Option RuntimeSdkLayout) :
    (materializeSdk c root sdk).Calls (Op.Around root) := by
  cases sdk with
  | none => exact Program.calls_pure ()
  | some sdk =>
    exact (calls_each fun directory _ => calls_sdkRoot directory).bind fun _ =>
      (calls_each fun entry _ => calls_copySdkFile entry).bind fun _ =>
        (calls_each fun entry _ => calls_linkSdkFile entry.1 entry.2).bind fun _ =>
          calls_writeJson_around (prefix_within root _)

/-- A component is assembled around the root, and reads the store. -/
theorem calls_assembleComponent (component : ResolvedRuntimeComponent)
    (hroot : ∀ op, op.Around root → P op) (hstore : ∀ op, op.Around c.storeRoot → P op) :
    (assembleComponent c root component).Calls P := by
  have hextract : (c.extract component.digest (root ++ ["components", component.id])).Calls
      (Op.Around root) := by
    refine (c.calls_extract _ _).mono fun op hop q hq => ?_
    rcases hop q hq with h | h
    · exact List.prefix_or_prefix_of_prefix h (List.prefix_append root _)
    · exact .inr ((List.prefix_append root _).trans h)
  refine (hextract.mono hroot).bind fun _ => ((c.calls_verifiedArtifact _).mono hstore).bind
    fun verified => ?_
  refine ((calls_writeJson_around ?_).mono hroot).bind fun _ => calls_each fun name _ =>
    calls_copyFile (hroot _ (FileTree.around_copyFile ?_))
  · rw [List.append_assoc]
    exact List.prefix_append root _
  · rw [List.append_assoc]
    exact List.prefix_append root _

end Calls

/-! ## Assembling and publishing -/

/-- A lock is written where it stands; the last component of its path keeps it from what is made
above it. -/
theorem not_prefix_dropLast {x p : Location} (hlength : p.length ≤ x.length) (hp : p ≠ []) :
    ¬x <+: p.dropLast := by
  intro h
  have hle := h.length_le
  have hpos := List.length_pos_iff.mpr hp
  rw [List.length_dropLast] at hle
  omega

section Specs

variable {c : Composer} {call : Call} {s t : Tree} {root dest : Location}
  {env : Environment Op Op.Reply FileTree.Fault} {lock : RuntimeCompositionLock}

/-- A file that was written has its bytes. -/
theorem spec_writeJson {p : Location} {bytes : FileTree.Content} (hroot : ∀ x ∈ call.targets, Apart root x)
    (hp : root <+: p) (ht : Kept call s t) :
    Traceless call env s (writeJson p bytes) t fun _ t' =>
      Kept call s t' ∧ t' p = some (.file bytes) := by
  have hdir := harmless_of_around hroot
    (FileTree.around_createDirAll (List.dropLast_prefix p) hp)
  have hfile : Harmless call (.writeFile p bytes) :=
    harmless_of_around hroot (FileTree.around_writeFile hp)
  refine (traceless_of_calls (calls_createDirAll hdir) ht).bind fun _ t₁ h₁ => ?_
  refine Program.Spec.bind (R := fun ok t' => Kept call s t' ∧
    (ok = true → t' p = some (.file bytes))) (Program.Spec.perform fun fault _ => ?_)
    fun ok t₂ h₂ => ?_
  · refine ⟨kept_step hfile h₁, fun hok => ?_⟩
    rw [FileTree.step, FileTree.write_eq_of_true hok, FileTree.put_self]
  · refine (traceless_orIo h₂.1).mono (fun _ t₃ h₃ => ?_) fun _ h => h
    obtain ⟨hok, rfl⟩ := h₃
    exact ⟨h₂.1, h₂.2 hok⟩

theorem within_lock (root : Location) :
    within root LOCK_PATH = root ++ ["metadata", "composition.lock.json"] :=
  congrArg (root ++ ·) (by decide)

theorem within_attribution (root : Location) :
    within root "metadata/attribution.json" = root ++ ["metadata", "attribution.json"] :=
  congrArg (root ++ ·) (by decide)

theorem within_validation (root : Location) :
    within root "metadata/validation.json" = root ++ ["metadata", "validation.json"] :=
  congrArg (root ++ ·) (by decide)

/-- Another file of the metadata is written beside the lock. -/
theorem calls_writeJson_beside {name : String} {bytes : FileTree.Content}
    (hname : name ≠ "composition.lock.json") :
    (writeJson (root ++ ["metadata", name]) bytes).Calls
      fun op => op.Around root ∧ ¬op.Reaches (within root LOCK_PATH) := by
  have hp : root <+: root ++ ["metadata", name] := List.prefix_append _ _
  rw [within_lock]
  refine calls_writeJson
    ⟨FileTree.around_createDirAll (List.dropLast_prefix _) hp, ?_⟩
    ⟨FileTree.around_writeFile hp, ?_⟩
  · exact not_prefix_dropLast (by simp) (by simp)
  · intro h
    have h : root ++ ["metadata", "composition.lock.json"] = root ++ ["metadata", name] := h
    simp only [List.append_cancel_left_eq, List.cons.injEq, and_true, true_and] at h
    exact hname h.symm

/-- An assembled prefix has the lock in it. -/
theorem spec_assemble (hroot : ∀ x ∈ call.targets, Apart root x)
    (hstore : ∀ x ∈ call.targets, Apart c.storeRoot x) (ht : Kept call s t) :
    Traceless call env s (assemble c lock root) t fun _ t' =>
      Kept call s t' ∧ t' (within root LOCK_PATH) = some (.file (c.lockBytes lock)) := by
  have hbeside : ∀ {name : String} {bytes : FileTree.Content}, name ≠ "composition.lock.json" →
      (writeJson (root ++ ["metadata", name]) bytes).Calls
        fun op => Harmless call op ∧ ¬op.Reaches (within root LOCK_PATH) :=
    fun hname => (calls_writeJson_beside hname).mono fun op hop =>
      ⟨harmless_of_around hroot hop.1, hop.2⟩
  refine (traceless_of_calls (calls_each fun component _ => calls_assembleComponent component
    (fun op => harmless_of_around hroot) fun op => harmless_of_around hstore) ht).bind
      fun _ t₁ h₁ => ?_
  refine (traceless_of_calls ((calls_materializeSdk lock.sdk).mono
    fun op => harmless_of_around hroot) h₁).bind fun _ t₂ h₂ => ?_
  refine (spec_writeJson hroot (prefix_within root LOCK_PATH) h₂).bind fun _ t₃ h₃ => ?_
  rw [within_attribution, within_validation]
  refine (traceless_keeping (hbeside (by decide)) h₃.1 h₃.2).bind fun _ t₄ h₄ => ?_
  refine (traceless_keeping (hbeside (by decide)) h₄.1 h₄.2).bind fun _ t₅ h₅ => ?_
  refine (traceless_keeping ((c.calls_verifyPrefix root).mono fun op hop =>
    ⟨harmless_of_not_reaches hop, hop _⟩) h₅.1 h₅.2).bind fun _ t₆ h₆ => ?_
  exact Program.Spec.pure h₆

/-- The scratch directory is apart from what it is not a part of. -/
theorem apart_scratch {scratch : String} {x : Location} (hfresh : scratch ∉ x)
    (hx : ¬x <+: dest.dropLast) : Apart (dest.dropLast ++ [scratch]) x := by
  refine ⟨fun h => hfresh (h.subset (by simp)), fun h => ?_⟩
  rcases List.prefix_concat_iff.mp h with rfl | h
  · exact hfresh (by simp)
  · exact hx h

theorem kept_apply {x q : Location} (ht : Kept call s t) (hx : x ∈ call.targets) (hq : x <+: q) :
    t q = s q :=
  ht x hx q hq

/-- A step that goes on where nothing stands at the destination. -/
theorem spec_vacant {α : Type} {rest : FileAction α} {Q : α → Tree → Prop}
    (hdest : dest ∈ call.targets) (ht : Kept call s t)
    (hrest : s dest = none → Traceless call env s rest t Q) :
    Traceless call env s (status dest >>= fun node =>
      ofResult (Result.failIf node.isSome (outputExists dest)) >>= fun _ => rest) t Q := by
  refine Program.Spec.bind (R := fun node t' => node = s dest ∧ t' = t)
    (Program.Spec.perform fun _ _ => ⟨kept_apply ht hdest List.prefix_rfl, rfl⟩)
    fun node t₁ h₁ => ?_
  obtain ⟨rfl, rfl⟩ := h₁
  refine (traceless_ofResult ht).bind fun _ t₂ h₂ => ?_
  obtain ⟨hnone, rfl⟩ := h₂
  exact hrest (by simpa using Result.failIf_ok.mp hnone)

/-- A fresh directory is made next to a destination at which nothing stands. -/
theorem spec_forDestination {scratch : String} (hdest : dest ∈ call.targets)
    (hfresh : ∀ x ∈ call.targets, scratch ∉ x) (hroot : s [] = some .directory)
    (hpart : ∀ x ∈ call.targets, x = dest ∨ Apart x dest) (ht : Kept call s t) :
    Traceless call env s (forDestination scratch dest) t fun root t' =>
      root = dest.dropLast ++ [scratch] ∧ (∀ x ∈ call.targets, Apart root x) ∧ s dest = none ∧
        Kept call s t' := by
  refine spec_vacant hdest ht fun hnone => ?_
  have hne : dest ≠ [] := by
    rintro rfl
    rw [hnone] at hroot
    cases hroot
  have habove : ∀ x ∈ call.targets, ¬x <+: dest.dropLast := by
    intro x hx h
    rcases hpart x hx with rfl | hpart
    · exact not_prefix_dropLast le_rfl hne h
    · exact hpart.1 (h.trans (List.dropLast_prefix dest))
  have hapart : ∀ x ∈ call.targets, Apart (dest.dropLast ++ [scratch]) x :=
    fun x hx => apart_scratch (hfresh x hx) (habove x hx)
  have hdirs : Harmless call (.createDirAll dest.dropLast) :=
    fun x hx q hq hreach => habove x hx (hq.trans hreach)
  refine (traceless_of_calls (calls_createDirAll hdirs) ht).bind fun _ t₃ h₃ => ?_
  refine (traceless_of_calls (Program.calls_perform (harmless_of_around hapart
    (FileTree.around_createDir List.prefix_rfl))) h₃).bind fun ok t₄ h₄ => ?_
  refine (traceless_orIo h₄).bind fun _ t₅ h₅ => ?_
  obtain ⟨-, rfl⟩ := h₅
  exact Program.Spec.pure ⟨rfl, hapart, hnone, h₄⟩

/-- What was published below a destination, where nothing stood before. -/
structure Published (c : Composer) (lock : RuntimeCompositionLock) (s : Tree) (dest : Location)
    (t : Tree) : Prop where
  free : s dest = none
  lock : t (within dest LOCK_PATH) = some (.file (c.lockBytes lock))

/-- A publication moves the staging directory and changes nothing else. -/
theorem spec_publish (hdest : dest ∈ call.targets) (hroot : ∀ x ∈ call.targets, Apart root x)
    (ht : Kept call s t)
    (hlock : t (within root LOCK_PATH) = some (.file (c.lockBytes lock))) :
    Traceless call env s (publish root dest) t fun _ t' => Published c lock s dest t' ∧
      ∀ x ∈ call.targets, Apart x dest → Same s t' x := by
  refine spec_vacant hdest ht fun hnone => ?_
  refine Program.Spec.bind (R := fun ok t' => (ok = true → t' = FileTree.moved root dest t) ∧
    (ok = false → t' = t)) (Program.Spec.perform fun fault _ => ?_) fun ok t₃ h₃ => ?_
  · rw [FileTree.step]
    split_ifs
    · exact ⟨fun _ => rfl, fun h => by cases h⟩
    · exact ⟨fun h => (by cases h), fun _ => rfl⟩
  · cases ok with
    | false =>
      exact (traceless_orIo (h₃.2 rfl ▸ ht)).mono (fun _ _ h => by cases h.1) fun _ h => h
    | true =>
      obtain rfl := h₃.1 rfl
      -- An answer that the directory was moved ends the publication.
      refine Program.Spec.done_ok ⟨⟨hnone, ?_⟩, fun x hx hapart q hq => ?_⟩
      · rw [within, FileTree.moved_target]
        exact hlock
      · have hq₁ : ¬root <+: q := fun h => by
          rcases List.prefix_or_prefix_of_prefix h hq with h | h
          · exact (hroot x hx).1 h
          · exact (hroot x hx).2 h
        have hq₂ : ¬dest <+: q := fun h => by
          rcases List.prefix_or_prefix_of_prefix h hq with h | h
          · exact hapart.2 h
          · exact hapart.1 h
        rw [FileTree.moved_of_not_prefix hq₁ hq₂]
        exact ht x hx q hq

/-- Where the destination is apart from the lock, a runtime is published there or nothing is. -/
theorem spec_materialize {scratch : String} (hdest : dest ∈ call.targets)
    (hfresh : ∀ x ∈ call.targets, scratch ∉ x) (hroot : s [] = some .directory)
    (hstore : ∀ x ∈ call.targets, Apart c.storeRoot x)
    (hpart : ∀ x ∈ call.targets, x = dest ∨ Apart x dest) (ht : Kept call s t) :
    Traceless call env s (materialize c lock scratch dest) t fun _ t' =>
      Published c lock s dest t' ∧ ∀ x ∈ call.targets, Apart x dest → Same s t' x := by
  refine (traceless_ofResult ht).bind fun _ t₁ h₁ => ?_
  obtain ⟨-, rfl⟩ := h₁
  refine (spec_forDestination hdest hfresh hroot hpart ht).bind fun root t₂ h₂ => ?_
  obtain ⟨-, hroot, hnone, ht₂⟩ := h₂
  have hrun : Traceless call env s (assemble c lock root >>= fun _ => publish root dest) t₂
      fun _ t' => Published c lock s dest t' ∧ ∀ x ∈ call.targets, Apart x dest → Same s t' x :=
    (spec_assemble hroot hstore ht₂).bind fun _ t₃ h₃ => spec_publish hdest hroot h₃.1 h₃.2
  -- The staging directory is removed after a success and after a failure.
  have hremoved : ∀ t₃, Traceless call env s (Program.perform (.removeAll root)) t₃
      fun _ t' => ∀ x ∈ call.targets, Same t₃ t' x := fun t₃ =>
    Program.Spec.perform fun fault _ x hx q hq => FileTree.step_of_not_reaches
      (FileTree.around_removeAll.not_reaches (hroot x hx) hq)
  refine hrun.attempt_bind (fun _ t₃ h₃ => (hremoved t₃).bind fun _ t₄ h₄ => ?_)
    fun e t₃ h₃ => (hremoved t₃).bind fun _ t₄ h₄ => ?_
  · obtain ⟨⟨hfree, hlock⟩, hsame⟩ := h₃
    refine Program.Spec.done_ok ⟨⟨hfree, ?_⟩, fun x hx hapart q hq =>
      (h₄ x hx q hq).trans (hsame x hx hapart q hq)⟩
    rw [h₄ dest hdest _ (prefix_within dest LOCK_PATH), hlock]
  · exact Program.Spec.done_error fun x hx q hq => (h₄ x hx q hq).trans (h₃ x hx q hq)

/-- Where the destination and a lock that was read lie in each other, nothing is published. -/
theorem spec_materialize_overlap {scratch : String} {p : Location} {content : FileTree.Content}
    (htree : IsTree s) (hdest : dest ∈ call.targets) (hp : p ∈ call.targets)
    (honly : ∀ x ∈ call.targets, x = dest ∨ x = p) (hfile : s p = some (.file content))
    (hoverlap : ¬Apart p dest) (ht : Kept call s t) :
    Traceless call env s (materialize c lock scratch dest) t fun _ _ => False := by
  refine (traceless_ofResult ht).bind fun _ t₁ h₁ => ?_
  obtain ⟨-, rfl⟩ := h₁
  refine Program.Spec.bind (R := fun _ _ => False) ?_ fun _ _ h => h.elim
  refine spec_vacant hdest ht fun hnone => ?_
  have hne : p ≠ dest := by
    rintro rfl
    rw [hnone] at hfile
    cases hfile
  -- A destination above the lock would be a directory, so the lock is above the destination.
  have hbelow : p <+: dest := by
    by_contra hp'
    have habove : dest <+: p := by
      by_contra hd
      exact hoverlap ⟨hp', hd⟩
    have hdir := htree.above habove hne.symm (by simp [hfile])
    rw [hnone] at hdir
    cases hdir
  have hparent : p <+: dest.dropLast := by
    rcases List.eq_nil_or_concat' dest with rfl | ⟨parent, last, rfl⟩
    · exact absurd (List.prefix_nil.mp hbelow) hne
    · rw [List.dropLast_concat]
      exact (List.prefix_concat_iff.mp hbelow).resolve_left hne
  obtain ⟨before, after, hinits, hbefore⟩ := FileTree.exists_inits hparent
  have hblocked : ∀ limit, (FileTree.makeDirs limit (before ++ p :: after) t₁).1 = false ∧
      ∀ q, p <+: q → (FileTree.makeDirs limit (before ++ p :: after) t₁).2 q = t₁ q :=
    fun _ => FileTree.makeDirs_blocked ((kept_apply ht hp List.prefix_rfl).trans hfile) hbefore
  refine Program.Spec.bind (R := fun _ _ => False) ?_ fun _ _ h => h.elim
  refine Program.Spec.bind (R := fun ok t' => ok = false ∧ Kept call s t')
    (Program.Spec.perform fun fault _ => ?_) fun ok t₄ h₄ => ?_
  · rw [FileTree.step, hinits]
    refine ⟨(hblocked _).1, fun x hx q hq => ?_⟩
    have hpq : p <+: q := by
      rcases honly x hx with rfl | rfl
      · exact hbelow.trans hq
      · exact hq
    rw [(hblocked _).2 q hpq]
    exact ht x hx q hq
  · obtain ⟨rfl, ht₄⟩ := h₄
    exact (traceless_orIo ht₄).mono (fun _ _ h => by cases h.1) fun _ h => h

/-- What a composition has come to before the lock is written. -/
structure Prepared (c : Composer) (call : Call) (s : Tree) (lock : RuntimeCompositionLock)
    (t : Tree) : Prop where
  output : ∀ {dest}, call.output = some dest → Published c lock s dest t
  /-- Nothing has changed where the lock is. -/
  kept : ∀ {p}, call.lockPath = some p → Same s t p
  apart : ∀ {p dest}, call.lockPath = some p → call.output = some dest → Apart p dest
  /-- A locked composition has come to the lock that is there. -/
  previous : call.locked = true → ∃ p content previous, call.lockPath = some p ∧
    s p = some (.file content) ∧ c.parseLock content = .ok previous ∧
      requireSameLock previous lock = .ok ()

theorem calls_read {p : Location} {P : Op → Prop} (h : P (.readFile p)) : (read p).Calls P :=
  (Program.calls_perform h).bind fun _ => calls_ofResult _

theorem harmless_readFile (p : Location) : Harmless call (.readFile p) :=
  harmless_of_not_reaches fun _ h => h

theorem harmless_resolve (p : Location) : Harmless call (.resolve p) :=
  harmless_of_not_reaches fun _ h => h

theorem mem_targets_output (h : call.output = some dest) : dest ∈ call.targets :=
  List.mem_append_left _ (by rw [h]; exact List.mem_singleton_self dest)

theorem mem_targets_lock {p : Location} (h : call.lockPath = some p) : p ∈ call.targets :=
  List.mem_append_right _ (by rw [h]; exact List.mem_singleton_self p)

theorem mem_targets {x : Location} :
    x ∈ call.targets ↔ call.output = some x ∨ call.lockPath = some x := by
  simp [Call.targets]

/-- The paths of an unlocked composition are apart once they are checked. -/
theorem spec_checkOverlap (ht : Kept call s t) :
    Traceless call env s (checkOverlap call) t fun _ t' => Kept call s t' ∧
      (call.locked = false → ∀ p dest, call.lockPath = some p → call.output = some dest →
        Apart p dest) := by
  have hresolved : ∀ {t : Tree} (p : Location), Kept call s t →
      Traceless call env s (prospectivePath p) t fun q t' => q = p ∧ Kept call s t' :=
    fun p ht => (traceless_of_calls (Program.calls_perform (harmless_resolve p)) ht).bind
      fun ok t₁ h₁ => (traceless_orIo h₁).bind fun _ t₂ h₂ => Program.Spec.pure ⟨rfl, h₂.2 ▸ h₁⟩
  rw [checkOverlap]
  split
  · rename_i p dest hp hdest
    split_ifs with hlocked
    · exact Program.Spec.pure ⟨ht, fun h => by simp [hlocked] at h⟩
    · refine (hresolved p ht).bind fun _ t₁ h₁ => ?_
      obtain ⟨rfl, h₁⟩ := h₁
      refine (hresolved dest h₁).bind fun _ t₂ h₂ => ?_
      obtain ⟨rfl, h₂⟩ := h₂
      refine (traceless_ofResult h₂).mono (fun _ t₃ h₃ => ?_) fun _ h => h
      obtain ⟨hok, rfl⟩ := h₃
      refine ⟨h₂, fun _ p' dest' hp' hdest' => ?_⟩
      cases hp.symm.trans hp'
      cases hdest.symm.trans hdest'
      have hboth := Result.failIf_ok.mp hok
      rw [List.isPrefixOf_iff_prefix, List.isPrefixOf_iff_prefix, not_or] at hboth
      exact ⟨hboth.2, hboth.1⟩
  · rename_i hnone
    exact Program.Spec.pure ⟨ht, fun _ p dest hp hdest => (hnone p dest hp hdest).elim⟩

/-- A locked composition has read the lock. -/
theorem spec_readPrevious (ht : Kept call s t) :
    Traceless call env s (readPrevious c call) t fun previous t' => Kept call s t' ∧
      (call.locked = true → ∃ p content lock, call.lockPath = some p ∧
        s p = some (.file content) ∧ c.parseLock content = .ok lock ∧ previous = some lock) := by
  rw [readPrevious]
  split_ifs with hlocked
  · split
    · exact Program.Spec.done_error ht
    · rename_i p hp
      refine Program.Spec.bind (R := fun lock t' => Kept call s t' ∧ ∃ content,
        s p = some (.file content) ∧ c.parseLock content = .ok lock) ?_ fun lock t₁ h₁ => ?_
      · refine Program.Spec.bind (R := fun content t' => t' = t ∧ s p = some (.file content))
          (Program.Spec.bind (R := fun content t' => t' = t ∧
            ∀ bytes, content = some bytes → s p = some (.file bytes))
              (Program.Spec.perform fun fault _ => ⟨rfl, fun bytes h => ?_⟩)
                fun content t₁ h₁ => ?_) fun content t₁ h₁ => ?_
        · rw [← kept_apply ht (mem_targets_lock hp) List.prefix_rfl]
          exact FileTree.step_readFile h
        · obtain ⟨rfl, hbytes⟩ := h₁
          refine (traceless_ofResult ht).mono (fun bytes t₂ h₂ => ?_) fun _ h => h
          obtain ⟨hok, rfl⟩ := h₂
          exact ⟨rfl, hbytes bytes (Result.okOr_ok.mp hok)⟩
        · obtain ⟨rfl, hfile⟩ := h₁
          refine (traceless_ofResult ht).mono (fun lock t₂ h₂ => ?_) fun _ h => h
          obtain ⟨hok, rfl⟩ := h₂
          exact ⟨ht, content, hfile, hok⟩
      · obtain ⟨h₁, content, hfile, hok⟩ := h₁
        exact Program.Spec.pure ⟨h₁, fun _ => ⟨p, content, lock, hp, hfile, hok, rfl⟩⟩
  · exact Program.Spec.pure ⟨ht, fun h => absurd h hlocked⟩

/-- Before the lock is written, a failure leaves no trace. -/
theorem spec_prepare (htree : IsTree s) (hfresh : ∀ x ∈ call.targets, call.scratch ∉ x)
    (hstore : ∀ x ∈ call.targets, Apart c.storeRoot x) :
    Traceless call env s (prepare c call) s (Prepared c call s) := by
  refine (spec_checkOverlap fun x _ => Same.refl s x).bind fun _ t₁ h₁ => ?_
  obtain ⟨h₁, hapart⟩ := h₁
  refine (traceless_of_calls (calls_read (harmless_readFile _)) h₁).bind fun source t₂ h₂ => ?_
  refine (traceless_ofResult h₂).bind fun manifest t₃ h₃ => ?_
  obtain ⟨-, rfl⟩ := h₃
  refine (spec_readPrevious h₂).bind fun previous t₄ h₄ => ?_
  obtain ⟨h₄, hprevious⟩ := h₄
  refine (traceless_ofResult h₄).bind fun _ t₅ h₅ => ?_
  obtain ⟨-, rfl⟩ := h₅
  refine (traceless_of_calls ((c.calls_buildLock _ _ _).mono fun op => harmless_of_around hstore)
    h₄).bind fun lock t₆ h₆ => ?_
  refine (traceless_ofResult h₆).bind fun _ t₇ h₇ => ?_
  obtain ⟨hsame, rfl⟩ := h₇
  have hagrees : call.locked = true → ∃ p content previous, call.lockPath = some p ∧
      s p = some (.file content) ∧ c.parseLock content = .ok previous ∧
        requireSameLock previous lock = .ok () := by
    intro hlocked
    obtain ⟨p, content, old, hp, hfile, hparse, rfl⟩ := hprevious hlocked
    exact ⟨p, content, old, hp, hfile, hparse, hsame⟩
  cases hout : call.output with
  | none =>
    refine Program.Spec.done_ok ?_
    exact {
      output := fun h => by simp [hout] at h
      kept := fun hp => h₆ _ (mem_targets_lock hp)
      apart := fun _ h => by simp [hout] at h
      previous := hagrees }
  | some dest =>
    have hdest := mem_targets_output hout
    by_cases hall : ∀ p, call.lockPath = some p → Apart p dest
    · have hpart : ∀ x ∈ call.targets, x = dest ∨ Apart x dest := fun x hx => by
        rcases mem_targets.mp hx with h | h
        · exact .inl (Option.some.inj (h.symm.trans hout))
        · exact .inr (hall x h)
      refine (spec_materialize hdest hfresh htree.root hstore hpart h₆).bind fun _ t₈ h₈ =>
        Program.Spec.pure ?_
      exact {
        output := fun h => by
          cases hout.symm.trans h
          exact h₈.1
        kept := fun hp => h₈.2 _ (mem_targets_lock hp) (hall _ hp)
        apart := fun hp h => by
          cases hout.symm.trans h
          exact hall _ hp
        previous := hagrees }
    · push Not at hall
      obtain ⟨p, hp, hoverlap⟩ := hall
      cases hlocked : call.locked with
      | false => exact absurd (hapart hlocked p dest hp hout) hoverlap
      | true =>
        obtain ⟨q, content, -, hq, hfile, -⟩ := hprevious hlocked
        cases hp.symm.trans hq
        refine (spec_materialize_overlap htree hdest (mem_targets_lock hp) (fun x hx => ?_) hfile
          hoverlap h₆).bind fun _ _ h => h.elim
        rcases mem_targets.mp hx with h | h
        · exact .inl (Option.some.inj (h.symm.trans hout))
        · exact .inr (Option.some.inj (h.symm.trans hp))

end Specs

/-! ## The last step -/

/-- The file can be written: its directories stand or can be made, nothing but a file stands at
its path, and no fault strikes. -/
def Writes (p : Location) (made struck : Option FileTree.Fault) (t : Tree) : Prop :=
  (FileTree.makeDirs (made.map (·.made)) p.dropLast.inits t).1 = true ∧
    FileTree.isWritable (FileTree.makeDirs (made.map (·.made)) p.dropLast.inits t).2 p = true ∧
      struck = none

/-- The file could be written, and the fault that strikes leaves something else than there was. -/
def Spoils (p : Location) (made struck : Option FileTree.Fault) (t : Tree) : Prop :=
  (FileTree.makeDirs (made.map (·.made)) p.dropLast.inits t).1 = true ∧
    FileTree.isWritable (FileTree.makeDirs (made.map (·.made)) p.dropLast.inits t).2 p = true ∧
      ∃ fault ∈ struck, ∃ left ∈ fault.leftover, t p ≠ some (.file left)

section LastStep

variable {c : Composer} {call : Call} {s t : Tree} {p : Location} {bytes : FileTree.Content}
  {env : Environment Op Op.Reply FileTree.Fault} {past : List (Event Op Op.Reply)}
  {made struck : Option FileTree.Fault}

/-- The fault that strikes when the directories of a file are made. -/
def madeFault (env : Environment Op Op.Reply FileTree.Fault) (past : List (Event Op Op.Reply))
    (p : Location) : Option FileTree.Fault :=
  env past (.createDirAll p.dropLast)

/-- The fault that strikes when the file is written, after its directories were made. -/
def writeFault (env : Environment Op Op.Reply FileTree.Fault) (past : List (Event Op Op.Reply))
    (p : Location) (bytes : FileTree.Content) : Option FileTree.Fault :=
  env (⟨.createDirAll p.dropLast, (true : Bool)⟩ :: past) (.writeFile p bytes)

/-- The directories of a file are above it. -/
theorem makeDirs_parent {limit : Option Nat} (hp : p ≠ []) :
    (FileTree.makeDirs limit p.dropLast.inits t).2 p = t p :=
  FileTree.makeDirs_of_not_mem fun h =>
    not_prefix_dropLast le_rfl hp ((List.mem_inits _ _).mp h)

theorem write_struck (bytes : FileTree.Content) (fault : FileTree.Fault)
    (hwritable : FileTree.isWritable t p = true) :
    (FileTree.write p bytes (some fault) t).1 = false ∧
      ((FileTree.write p bytes (some fault) t).2 p = t p ↔
        ¬∃ left ∈ fault.leftover, t p ≠ some (.file left)) := by
  unfold FileTree.write
  rw [if_pos hwritable]
  refine ⟨rfl, ?_⟩
  cases hleft : fault.leftover with
  | none => simp [hleft]
  | some left => simp [hleft, FileTree.put_self, eq_comm]

theorem run_orIo (ok : Bool) :
    Program.run FileTree.step env (orIo p ok) past t =
      ⟨if ok then .ok () else .error (ioError p), past, t⟩ := by
  cases ok with
  | false => rfl
  | true => rfl

theorem run_createDirAll :
    Program.run FileTree.step env (createDirAll p) past t =
      let dirs := FileTree.makeDirs ((env past (.createDirAll p)).map (·.made)) p.inits t
      ⟨if dirs.1 then .ok () else .error (ioError p), ⟨.createDirAll p, dirs.1⟩ :: past,
        dirs.2⟩ := by
  rw [createDirAll, Program.run_bind, Program.run_perform]
  exact run_orIo _

theorem run_writeFile :
    Program.run FileTree.step env (Program.perform (.writeFile p bytes) >>= orIo p) past t =
      let written := FileTree.write p bytes (env past (.writeFile p bytes)) t
      ⟨if written.1 then .ok () else .error (ioError p), ⟨.writeFile p bytes, written.1⟩ :: past,
        written.2⟩ := by
  rw [Program.run_bind, Program.run_perform]
  exact run_orIo _

/-- A lock is written, or the write fails and has spoiled it or not. -/
theorem run_writeJson (env : Environment Op Op.Reply FileTree.Fault)
    (past : List (Event Op Op.Reply)) (bytes : FileTree.Content) (t : Tree) (hp : p ≠ []) :
    match Program.run FileTree.step env (writeJson p bytes) past t with
    | ⟨.ok _, _, t'⟩ => Writes p (madeFault env past p) (writeFault env past p bytes) t ∧
        t' p = some (.file bytes)
    | ⟨.error _, _, t'⟩ => ¬Writes p (madeFault env past p) (writeFault env past p bytes) t ∧
        (t' p = t p ↔ ¬Spoils p (madeFault env past p) (writeFault env past p bytes) t) := by
  have hsame : (FileTree.makeDirs ((madeFault env past p).map (·.made)) p.dropLast.inits t).2 p =
      t p := makeDirs_parent hp
  unfold Writes Spoils
  rw [writeJson, Program.run_bind, run_createDirAll]
  dsimp only
  rw [show env past (.createDirAll p.dropLast) = madeFault env past p from rfl]
  generalize FileTree.makeDirs ((madeFault env past p).map (·.made)) p.dropLast.inits t = dirs at *
  obtain ⟨ok, t₁⟩ := dirs
  cases ok with
  | false => exact ⟨(nomatch ·.1), iff_of_true hsame (nomatch ·.1)⟩
  | true =>
    -- The directories stand: the write itself decides.
    rw [if_pos rfl]
    dsimp only
    rw [run_writeFile]
    dsimp only
    rw [show env (⟨.createDirAll p.dropLast, true⟩ :: past) (.writeFile p bytes) =
      writeFault env past p bytes from rfl]
    dsimp only at hsame
    by_cases hwritable : FileTree.isWritable t₁ p = true
    · cases hstruck : writeFault env past p bytes with
      | none =>
        have hnone : FileTree.write p bytes none t₁ = (true, FileTree.put t₁ p (.file bytes)) := by
          simp only [FileTree.write, if_pos hwritable]
        rw [hnone]
        exact ⟨⟨rfl, hwritable, rfl⟩, FileTree.put_self⟩
      | some fault =>
        obtain ⟨hfalse, hleft⟩ := write_struck bytes fault hwritable
        rw [hfalse]
        refine ⟨(nomatch ·.2.2), ?_⟩
        rw [hsame] at hleft
        simpa [hwritable] using hleft
    · have hfalse : FileTree.write p bytes (writeFault env past p bytes) t₁ = (false, t₁) := by
        simp only [FileTree.write, if_neg hwritable]
      rw [hfalse]
      exact ⟨fun h => hwritable h.2.1, iff_of_true hsame fun h => hwritable h.2.1⟩

end LastStep

/-! ## The whole command -/

/-- The output and the lock file hold one composition. -/
structure Agrees (c : Composer) (call : Call) (lock : RuntimeCompositionLock) (t : Tree) :
    Prop where
  output : ∀ dest, call.output = some dest →
    t (within dest LOCK_PATH) = some (.file (c.lockBytes lock))
  lock : ∀ p, call.lockPath = some p → ∃ content, t p = some (.file content) ∧
    if call.locked then
      ∃ previous, c.parseLock content = .ok previous ∧ requireSameLock previous lock = .ok ()
    else content = c.lockBytes lock

/-- After a failure the destinations are as they were, and after a success they agree. -/
def LeavesNoTrace (c : Composer) (call : Call) (s : Tree)
    (outcome : Program.Outcome Op Op.Reply Tree Error RuntimeCompositionLock) : Prop :=
  match outcome.result with
  | .ok lock => Agrees c call lock outcome.state
  | .error _ => Kept call s outcome.state

/-- Where a lock is to be written, the write succeeds, or it is all there is to publish and leaves
the lock as it was. -/
def LockIsWritten (c : Composer) (call : Call) (env : Environment Op Op.Reply FileTree.Fault)
    (s : Tree) : Prop :=
  ∀ lock past t p,
    Program.run FileTree.step env (prepare c call) [] s = ⟨.ok lock, past, t⟩ →
      call.written = some p →
        Writes p (madeFault env past p) (writeFault env past p (c.lockBytes lock)) t ∨
          call.output = none ∧
            ¬Spoils p (madeFault env past p) (writeFault env past p (c.lockBytes lock)) t

section Command

variable {c : Composer} {call : Call} {s t : Tree} {p dest : Location}
  {env : Environment Op Op.Reply FileTree.Fault} {past : List (Event Op Op.Reply)}
  {lock : RuntimeCompositionLock}

theorem written_eq_some (h : call.written = some p) :
    call.locked = false ∧ call.lockPath = some p := by
  unfold Call.written at h
  split_ifs at h with hlocked
  exact ⟨by simpa using hlocked, h⟩

theorem written_eq_none (h : call.written = none) (hp : call.lockPath = some p) :
    call.locked = true := by
  unfold Call.written at h
  split_ifs at h with hlocked
  · exact hlocked
  · rw [h] at hp
    cases hp

/-- What is written at a path leaves everything that is apart from it. -/
theorem run_writeJson_apart {bytes : FileTree.Content} {x q : Location} (hx : Apart p x) (hq : x <+: q) :
    (Program.run FileTree.step env (writeJson p bytes) past t).state q = t q := by
  refine Program.run_invariant (I := fun t' : Tree => t' q = t q)
    (calls_writeJson_around List.prefix_rfl) (fun op fault t' hop ht' => ?_) past rfl
  rw [FileTree.step_of_not_reaches (hop.not_reaches hx hq)]
  exact ht'

/-- Below a file that is written nothing changes. -/
theorem run_writeJson_below {bytes : FileTree.Content} {q : Location} (hp : p ≠ []) (hq : p <+: q)
    (hne : q ≠ p) : (Program.run FileTree.step env (writeJson p bytes) past t).state q = t q := by
  refine Program.run_invariant (I := fun t' : Tree => t' q = t q) (P := fun op => ¬op.Reaches q)
    (calls_writeJson ?_ hne) (fun op fault t' hop ht' => ?_) past rfl
  · exact not_prefix_dropLast hq.length_le hp
  · rw [FileTree.step_of_not_reaches hop]
    exact ht'

/-- A failed composition leaves no trace, and a successful one leaves an output and a lock that
agree, exactly when the last step does not fail behind a published output. -/
theorem compose_leavesNoTrace_iff (htree : IsTree s)
    (hfresh : ∀ x ∈ call.targets, call.scratch ∉ x)
    (hstore : ∀ x ∈ call.targets, Apart c.storeRoot x) :
    LeavesNoTrace c call s (Program.run FileTree.step env (compose c call) [] s) ↔
      LockIsWritten c call env s := by
  have hspec : Traceless call env s (prepare c call) s (Prepared c call s) :=
    spec_prepare htree hfresh hstore
  have hfaults : Program.FaultsWithin FileTree.step env (fun _ => True) (prepare c call) [] s :=
    Program.faultsWithin_of_forall (fun _ => trivial) _ _ _
  rw [compose, Program.run_bind]
  rcases hrun : Program.run FileTree.step env (prepare c call) [] s with ⟨result, past, t⟩
  cases result with
  | error e =>
    refine iff_of_true (hspec.of_error hfaults hrun) fun lock past' t' p hok _ => ?_
    rw [hrun] at hok
    cases hok
  | ok lock =>
    have hprepared := hspec.of_ok hfaults hrun
    cases hwritten : call.written with
    | none =>
      refine iff_of_true ⟨fun dest hdest => (hprepared.output hdest).lock, fun p hp => ?_⟩
        fun lock past' t' p _ h => ?_
      · have hlocked := written_eq_none hwritten hp
        obtain ⟨p', content, previous, hp', hfile, hparse, hsame⟩ := hprepared.previous hlocked
        cases hp.symm.trans hp'
        refine ⟨content, (hprepared.kept hp p List.prefix_rfl).trans hfile, ?_⟩
        rw [if_pos hlocked]
        exact ⟨previous, hparse, hsame⟩
      · rw [hwritten] at h
        cases h
    | some p =>
      obtain ⟨hlocked, hp⟩ := written_eq_some hwritten
      have hkept := hprepared.kept hp
      have hne : p ≠ [] := fun h => (hstore p (mem_targets_lock hp)).2 (h ▸ List.nil_prefix)
      have hlast := run_writeJson env past (c.lockBytes lock) t hne
      have hiff : LockIsWritten c call env s ↔
          (Writes p (madeFault env past p) (writeFault env past p (c.lockBytes lock)) t ∨
            call.output = none ∧
              ¬Spoils p (madeFault env past p) (writeFault env past p (c.lockBytes lock)) t) := by
        refine ⟨fun h => h lock past t p hrun hwritten, fun h lock' past' t' p' hok hp' => ?_⟩
        rw [hrun] at hok
        cases hok
        cases hwritten.symm.trans hp'
        exact h
      have hapart : ∀ {dest}, call.output = some dest → ∀ {q}, dest <+: q →
          (Program.run FileTree.step env (writeJson p (c.lockBytes lock)) past t).state q = t q :=
        fun hdest _ hq => run_writeJson_apart (hprepared.apart hp hdest) hq
      have hbelow : ∀ {q}, p <+: q → q ≠ p →
          (Program.run FileTree.step env (writeJson p (c.lockBytes lock)) past t).state q = t q :=
        fun hq hqp => run_writeJson_below hne hq hqp
      rw [hiff]
      dsimp only
      rw [Program.run_bind]
      rcases hwrite : Program.run FileTree.step env (writeJson p (c.lockBytes lock)) past t with
        ⟨result, past', t'⟩
      rw [hwrite] at hlast hapart hbelow
      cases result with
      | ok a =>
        refine iff_of_true ⟨fun dest hdest => ?_, fun p' hp' => ?_⟩ (.inl hlast.1)
        · exact (hapart hdest (prefix_within dest LOCK_PATH)).trans (hprepared.output hdest).lock
        · cases hp.symm.trans hp'
          refine ⟨_, hlast.2, ?_⟩
          simp [hlocked]
      | error e =>
        obtain ⟨hfails, hspoils⟩ := hlast
        change Kept call s t' ↔ _
        constructor
        · intro hkept'
          have hnone : call.output = none := by
            -- What was published is still there, where nothing stood before.
            by_contra hsome
            obtain ⟨dest, hdest⟩ := Option.ne_none_iff_exists'.mp hsome
            obtain ⟨hfree, hfile⟩ := hprepared.output hdest
            have hq := prefix_within dest LOCK_PATH
            have hold : s (within dest LOCK_PATH) = some (.file (c.lockBytes lock)) := by
              rw [← hkept' dest (mem_targets_output hdest) _ hq]
              exact (hapart hdest hq).trans hfile
            have habove := htree.above hq (fun h => by simp [within_lock] at h) (by simp [hold])
            rw [hfree] at habove
            cases habove
          refine .inr ⟨hnone, hspoils.mp ?_⟩
          rw [hkept' p (mem_targets_lock hp) p List.prefix_rfl, hkept p List.prefix_rfl]
        · rintro (hwrites | ⟨hnone, hleft⟩)
          · exact absurd hwrites hfails
          · intro x hx q hq
            obtain rfl : p = x := by
              rcases mem_targets.mp hx with h | h
              · rw [hnone] at h
                cases h
              · exact Option.some.inj (hp.symm.trans h)
            by_cases hqp : q = p
            · rw [hqp, hspoils.mpr hleft, hkept p List.prefix_rfl]
            · exact (hbelow hq hqp).trans (hkept q hq)

end Command

/-! ## A sample -/

namespace Sample

open RuntimeComposition.Sample (artifactA record usd)

def manifestText : FileTree.Content := utf8 "demo.toml"

/-- A composition of one component. -/
def lock : RuntimeCompositionLock where
  schema := "openstrata.runtime-composition-lock/v1alpha1"
  manifest :=
    { RuntimeComposition.Sample.manifest with
      requirements := [⟨"usd", none, none⟩], artifacts := [⟨artifactA, none⟩] }
  resolved :=
    { schema := RESOLVED_COMPOSITION_SCHEMA
      name := "demo"
      target := "linux"
      manifestDigest := artifactA
      compositionDigest := artifactA
      components := [⟨"usd", "library", "1.0", artifactA, "linux"⟩]
      providers := [⟨"usd", "usd", "24.11", artifactA⟩]
      environment := []
      install := []
      conflicts := [] }
  artifacts := [⟨artifactA, record usd artifactA⟩]
  dependencies := []
  inventory := [⟨"usd", artifactA, ⟨"lib", artifactA, 1, none, false⟩⟩]
  sdk := some
    { schema := "openstrata.runtime-sdk/v1alpha1"
      roots := ["bin", "lib"]
      files := []
      environment := ∅
      settings := ∅ }
  runtimeDigest := artifactA

/-- The artifact is in the store, and its payload is one file. -/
def composer : Composer where
  storeRoot := ["store"]
  parseManifest content := Result.okOr (.config "invalid composition manifest")
    (if content = manifestText then some lock.manifest else none)
  parseLock content := Result.okOr (.config "invalid composition lock")
    (if content = utf8 lock.runtimeDigest then some lock else none)
  validate lock := Result.failIf (lock.artifacts = []) (lockMismatch "no artifacts")
  lockBytes lock := utf8 lock.runtimeDigest
  sdkBytes layout := utf8 layout.schema
  producerBytes _ := utf8 "producer"
  attribution lock := utf8 lock.runtimeDigest
  validationReport lock := utf8 lock.runtimeDigest
  buildLock _ _ _ := pure lock
  calls_buildLock _ _ _ := Program.calls_pure _
  extract _ target := do
    createDirAll target
    writeJson (target ++ ["lib"]) [0]
  calls_extract _ _ := (calls_createDirAll
    (FileTree.around_createDirAll List.prefix_rfl List.prefix_rfl)).bind fun _ =>
      calls_writeJson_around (List.prefix_append _ _)
  verifiedArtifact _ := pure (record usd artifactA, .obj [])
  calls_verifiedArtifact _ := Program.calls_pure _
  verifyPrefix _ := pure lock
  calls_verifyPrefix _ := Program.calls_pure _

/-- A manifest, and a directory where the lock is to be written. -/
def tree : Tree := FileTree.ofList
  [([], .directory), (["store"], .directory), (["work"], .directory),
    (["work", "demo.toml"], .file manifestText), (["work", "lock"], .directory)]

def call : Call where
  manifest := ["work", "demo.toml"]
  lockPath := some ["work", "lock"]
  locked := false
  output := some ["work", "out"]
  scratch := ".out.ost-compose"

theorem isTree_tree : IsTree tree := FileTree.isTree_ofList rfl (by decide)

theorem targets_fresh : ∀ x ∈ call.targets, call.scratch ∉ x := by decide

theorem targets_apart : ∀ x ∈ call.targets, Apart composer.storeRoot x := by
  simp [call, composer, Call.targets, Apart]

end Sample

theorem compose_leavesNoTrace_iff_sample :
    LeavesNoTrace Sample.composer Sample.call Sample.tree
        (Program.run FileTree.step Environment.quiet (compose Sample.composer Sample.call) []
          Sample.tree) ↔
      LockIsWritten Sample.composer Sample.call Environment.quiet Sample.tree :=
  compose_leavesNoTrace_iff Sample.isTree_tree Sample.targets_fresh Sample.targets_apart

/-- Where a directory stands at the path of the lock, the command fails and the composed runtime
stays published. -/
theorem directory_at_lock_keeps_output :
    ¬LeavesNoTrace Sample.composer Sample.call Sample.tree
      (Program.run FileTree.step Environment.quiet (compose Sample.composer Sample.call) []
        Sample.tree) := by
  have hfails : (Program.run FileTree.step Environment.quiet (compose Sample.composer Sample.call)
      [] Sample.tree).result = .error (ioError ["work", "lock"]) := by
    rfl
  have hleft : (Program.run FileTree.step Environment.quiet (compose Sample.composer Sample.call)
      [] Sample.tree).state ["work", "out"] = some .directory := by
    rfl
  intro h
  unfold LeavesNoTrace at h
  rw [hfails] at h
  have hsame := h ["work", "out"] (mem_targets_output rfl) ["work", "out"] List.prefix_rfl
  rw [hleft] at hsame
  cases hsame

end OpenStrata.Compose
