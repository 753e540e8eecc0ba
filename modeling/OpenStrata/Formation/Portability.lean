import OpenStrata.Formation.Compatibility
import OpenStrata.Formation.Composed

/-!
# Portable locks

A lock is written on one machine and compared on another. It holds no path of the machine that
wrote it: it is a function of the pinned artifacts and of the operating system, and the operating
system is that of the machine and not that of the pinned runtime.

## Main definitions

* `Machine`: the operating system, the host and the extracted artifacts of a resolution
* `Machine.contents`: what they hold, wherever they are on the machine
* `checkLock`: the comparison before a run
* `Portable`: the lock of one resolution is the lock of another

## Main results

* `lock_eq_iff`: two locks are equal exactly when the contents and the operating systems are
* `portable_iff`: the same for the lock that a run accepts
-/

namespace OpenStrata.Formation

open OpenStrata.Runtime (loaderKey)
open Std (ExtTreeMap)

/-! ## Machines -/

/-- A machine that resolves a Formation. -/
structure Machine where
  os : Os
  host : Option HostRecord
  input : ResolutionInput

def Machine.resolve (codec : Codec) (declared : FormationManifest) (machine : Machine) :
    Result MaterializedFormation :=
  resolveWithHost codec machine.os declared machine.host machine.input

def lockStale (lockPath manifestPath : String) : Error :=
  (Error.ofCode "FORMATION_LOCK_STALE" .validation
    ("'" ++ lockPath ++ "' does not match the current Formation manifest")).withHint
    ("refresh it with \x60ost formation lock " ++ manifestPath ++ "\x60")

def lockDrift : Error :=
  (Error.ofCode "FORMATION_LOCK_DRIFT" .validation
    "resolved artifacts/environment differ from formation.lock").withHint
    "restore the locked artifacts or deliberately refresh the lock"

/-- What a run compares before it starts. -/
def checkLock (lockPath manifestPath : String) (lock : FormationLock)
    (materialized : MaterializedFormation) : Result Unit := do
  Result.failIf (lock.resolution.manifestDigest ≠ materialized.resolved.manifestDigest)
    (lockStale lockPath manifestPath)
  Result.failIf (lock ≠ FormationLock.fromResolved materialized.resolved) lockDrift

/-! ## Contents -/

/-- What an extracted component holds. -/
structure ComponentContents where
  artifact : ResolvedArtifact
  bundles : List ResolvedBundle
  /-- The activated paths relative to the component, under the variables they go to. -/
  groups : List (String × List String)
  deriving DecidableEq

def ComponentInput.contents (os : Os) (component : ComponentInput) : ComponentContents :=
  ⟨ResolvedArtifact.ofRecord component.record, component.bundles.map resolvedBundle,
    component.portableGroups os⟩

/-- What a host holds: its identity, its family and the directories of its executables. -/
structure HostContents where
  id : String
  family : HostFamily
  directories : List String
  deriving DecidableEq

def HostRecord.contents (os : Os) (host : HostRecord) : HostContents :=
  ⟨host.id, host.family, (host.directories os).toList.map Prod.fst⟩

/-- What the artifacts and the host hold, apart from where they are on the machine. -/
structure Contents where
  runtime : ResolvedArtifact
  target : String
  components : List ComponentContents
  host : Option HostContents
  deriving DecidableEq

def Machine.contents (machine : Machine) : Contents where
  runtime := ResolvedArtifact.ofRecord machine.input.runtimeRecord
  target := legacyTarget machine.input.runtimeManifest
  components := machine.input.components.map (ComponentInput.contents machine.os)
  host := machine.host.map (HostRecord.contents machine.os)

/-! ## Portable paths -/

/-- The texts that portable paths start with. -/
def bases (declared : FormationManifest) : List String :=
  "runtime" :: "host" :: declared.components.map fun component => "components/" ++ component.id

/-- A path at or below one of the materialized roots, named by its portable text. -/
def IsPortable (declared : FormationManifest) (path : String) : Prop :=
  ∃ base ∈ bases declared, path = base ∨ ∃ rest, path = base ++ "/" ++ rest

/-- The lock of one resolution stands for another: a run accepts it there, and it names no path
of the machine. -/
structure Portable (declared : FormationManifest) (a b : MaterializedFormation) : Prop where
  equal : FormationLock.fromResolved a.resolved = FormationLock.fromResolved b.resolved
  accepted : ∀ lockPath manifestPath,
    checkLock lockPath manifestPath (FormationLock.fromResolved a.resolved) b = .ok ()
  paths : ∀ entry ∈ (FormationLock.fromResolved a.resolved).resolution.environment,
    ∀ path ∈ entry.paths, IsPortable declared path

/-! ## The lock as a function of the contents -/

/-- What a component adds to the report. -/
def added (entry : ComponentRef × ComponentContents) : List EnvironmentContribution :=
  entry.2.groups.map fun group => contribution group.1 entry.1.id group.2

def HostContents.environment (host : HostContents) : List EnvironmentContribution :=
  [⟨"PATH", "prepend", "host:" ++ host.id, host.directories⟩,
    ⟨host.family.variableName, "set", "host:" ++ host.id, ["host"]⟩]

def formation (codec : Codec) (declared : FormationManifest) (os : Os) (contents : Contents) :
    ResolvedFormation where
  schema := RESOLVED_SCHEMA
  name := declared.formation.name
  manifestDigest := declared.digest codec
  target := contents.target
  runtime := contents.runtime
  host := declared.host
  components := (declared.components.zip contents.components).map fun entry =>
    ⟨entry.1.id, entry.1.kind, entry.2.artifact, entry.2.bundles⟩
  environment := portableRuntimeEnvironment os ++
    (declared.components.zip contents.components).flatMap added ++
      contents.host.elim [] HostContents.environment
  command := declared.command
  conflicts := []

section Function

variable {codec : Codec} {declared : FormationManifest} {machine : Machine}
  {m : MaterializedFormation}

theorem resolve_of_resolveWithHost (h : machine.resolve codec declared = .ok m) :
    ∃ m₀, resolve codec machine.os declared machine.input = .ok m₀ ∧
      m = machine.host.elim m₀ (appendHostEnvironment machine.os m₀) := by
  simp only [Machine.resolve, resolveWithHost, Result.bind_ok] at h
  obtain ⟨⟨⟩, -, m₀, hresolve, heq⟩ := h
  exact ⟨m₀, hresolve, (Except.ok.inj heq).symm⟩

theorem environment_of_host (m₀ : MaterializedFormation) :
    (machine.host.elim m₀ (appendHostEnvironment machine.os m₀)).resolved =
      { m₀.resolved with environment := m₀.resolved.environment ++
          machine.contents.host.elim [] HostContents.environment } := by
  cases hhost : machine.host with
  | none => simp [Machine.contents, hhost]
  | some host => simp [Machine.contents, hhost, appendHostEnvironment, HostRecord.environment,
      HostContents.environment, HostRecord.contents, HostRecord.source]

/-- A resolution depends on the machine through its operating system and its contents. -/
theorem resolved_eq (h : machine.resolve codec declared = .ok m) :
    m.resolved = formation codec declared machine.os machine.contents ∧ declared.Valid ∧
      machine.contents.components.length = declared.components.length := by
  obtain ⟨m₀, hresolve, rfl⟩ := resolve_of_resolveWithHost h
  obtain ⟨rfl, hvalid, hdeclared, -⟩ := resolve_ok hresolve
  have hzip : declared.components.zip machine.contents.components =
      machine.input.components.map fun component =>
        (component.declared, component.contents machine.os) := by
    rw [← hdeclared]
    exact List.zip_map'
  refine ⟨?_, hvalid, ?_⟩
  · rw [environment_of_host, formation, hzip, List.map_map, List.flatMap_map]
    rfl
  · rw [← hdeclared, Machine.contents, List.length_map, List.length_map]

end Function

/-! ## The contents as a function of the lock -/

theorem append_inj_of_source {source : String} {as as' bs bs' : List EnvironmentContribution}
    (ha : ∀ a ∈ as, a.source = source) (ha' : ∀ a ∈ as', a.source = source)
    (hb : ∀ b ∈ bs, b.source ≠ source) (hb' : ∀ b ∈ bs', b.source ≠ source)
    (h : as ++ bs = as' ++ bs') : as = as' ∧ bs = bs' := by
  -- the entries of the source are those of the first part
  have hfirst : ∀ {xs ys : List EnvironmentContribution}, (∀ x ∈ xs, x.source = source) →
      (∀ y ∈ ys, y.source ≠ source) → (xs ++ ys).filter (fun x => x.source = source) = xs := by
    intro xs ys hx hy
    rw [List.filter_append, List.filter_eq_self.mpr (by simpa using hx),
      List.filter_eq_nil_iff.mpr (by simpa using hy), List.append_nil]
  have heq : as = as' := by rw [← hfirst ha hb, h, hfirst ha' hb']
  exact ⟨heq, List.append_cancel_left (heq ▸ h)⟩

section Injective

theorem source_of_mem_added {entry : ComponentRef × ComponentContents}
    {e : EnvironmentContribution} (h : e ∈ added entry) : e.source = entry.1.id := by
  obtain ⟨group, -, rfl⟩ := List.mem_map.mp h
  rfl

theorem source_of_mem_flatMap_added {refs : List ComponentRef} {contents : List ComponentContents}
    {e : EnvironmentContribution} (h : e ∈ (refs.zip contents).flatMap added) :
    e.source ∈ refs.map ComponentRef.id := by
  obtain ⟨entry, hentry, he⟩ := List.mem_flatMap.mp h
  rw [source_of_mem_added he]
  exact List.mem_map_of_mem (List.of_mem_zip hentry).1

theorem groups_of_added {ref : ComponentRef} {c c' : ComponentContents}
    (h : added (ref, c) = added (ref, c')) : c.groups = c'.groups := by
  refine List.map_injective_iff.mpr ?_ h
  rintro ⟨key, paths⟩ ⟨key', paths'⟩ heq
  cases heq
  rfl

/-- The report and the resolved components give the contents back: the sources of contributions
tell the components apart. -/
theorem components_of_lock {refs : List ComponentRef} {cs cs' : List ComponentContents}
    {host host' : List EnvironmentContribution} (hnodup : (refs.map ComponentRef.id).Nodup)
    (hhost : ∀ e ∈ host, e.source ∉ refs.map ComponentRef.id)
    (hhost' : ∀ e ∈ host', e.source ∉ refs.map ComponentRef.id)
    (hlength : cs.length = refs.length) (hlength' : cs'.length = refs.length)
    (hresolved : (refs.zip cs).map (fun entry => (entry.2.artifact, entry.2.bundles)) =
      (refs.zip cs').map fun entry => (entry.2.artifact, entry.2.bundles))
    (h : (refs.zip cs).flatMap added ++ host = (refs.zip cs').flatMap added ++ host') :
    cs = cs' ∧ host = host' := by
  induction refs generalizing cs cs' with
  | nil =>
    rw [List.length_nil, List.length_eq_zero_iff] at hlength hlength'
    exact ⟨hlength.trans hlength'.symm, h⟩
  | cons ref rest ih =>
    obtain ⟨c, cs, rfl⟩ := List.exists_cons_of_length_eq_add_one hlength
    obtain ⟨c', cs', rfl⟩ := List.exists_cons_of_length_eq_add_one hlength'
    obtain ⟨hfresh, hrest⟩ := List.nodup_cons.mp hnodup
    simp only [List.zip_cons_cons, List.map_cons, List.cons.injEq, Prod.mk.injEq] at hresolved
    obtain ⟨⟨hartifact, hbundles⟩, hresolved⟩ := hresolved
    -- entries of later components and of the host have other sources
    have hlater : ∀ {xs : List ComponentContents} {hosts : List EnvironmentContribution},
        (∀ e ∈ hosts, e.source ∉ (ref :: rest).map ComponentRef.id) →
          ∀ e ∈ (rest.zip xs).flatMap added ++ hosts, e.source ≠ ref.id := by
      intro xs hosts hhosts e he heq
      rcases List.mem_append.mp he with he | he
      · exact hfresh (heq ▸ source_of_mem_flatMap_added he)
      · exact hhosts e he (heq ▸ List.mem_cons_self)
    rw [List.zip_cons_cons, List.zip_cons_cons, List.flatMap_cons, List.flatMap_cons,
      List.append_assoc, List.append_assoc] at h
    have hown : ∀ {c : ComponentContents}, ∀ e ∈ added (ref, c), e.source = ref.id :=
      fun e he => source_of_mem_added he
    obtain ⟨hadded, htail⟩ := append_inj_of_source hown hown (hlater hhost) (hlater hhost') h
    obtain ⟨rfl, rfl⟩ := ih hrest (fun e he hmem => hhost e he (List.mem_cons_of_mem _ hmem))
      (fun e he hmem => hhost' e he (List.mem_cons_of_mem _ hmem))
      (Nat.succ.inj hlength) (Nat.succ.inj hlength') hresolved htail
    obtain ⟨artifact, bundles, groups⟩ := c
    obtain ⟨artifact', bundles', groups'⟩ := c'
    obtain rfl : groups = groups' := groups_of_added hadded
    obtain rfl : artifact = artifact' := hartifact
    obtain rfl : bundles = bundles' := hbundles
    exact ⟨rfl, rfl⟩

theorem loaderKey_injective : Function.Injective loaderKey := by
  intro a b h
  cases a <;> cases b <;> first | rfl | exact absurd h (by decide)

theorem variableName_injective : Function.Injective HostFamily.variableName := by
  intro a b h
  cases a <;> cases b <;> first | rfl | exact absurd h (by decide)

theorem host_of_environment {host host' : Option HostContents}
    (h : host.elim [] HostContents.environment = host'.elim [] HostContents.environment) :
    host = host' := by
  cases host with
  | none =>
    cases host' with
    | none => rfl
    | some host' => cases h
  | some host =>
    cases host' with
    | none => cases h
    | some host' =>
      obtain ⟨id, family, directories⟩ := host
      obtain ⟨id', family', directories'⟩ := host'
      simp only [Option.elim_some, HostContents.environment, List.cons.injEq,
        EnvironmentContribution.mk.injEq] at h
      obtain ⟨⟨-, -, hid, rfl⟩, ⟨hfamily, -⟩, -⟩ := h
      obtain rfl := variableName_injective hfamily
      obtain rfl : id = id' := by simpa using hid
      rfl

/-- A host's source is no component's id. -/
theorem source_host {declared : FormationManifest} (hvalid : declared.Valid)
    {host : Option HostContents} {e : EnvironmentContribution}
    (h : e ∈ host.elim [] HostContents.environment) :
    e.source ∉ declared.components.map ComponentRef.id := by
  intro hmem
  obtain ⟨component, hcomponent, heq⟩ := List.mem_map.mp hmem
  have hid := hvalid.ids component hcomponent
  cases host with
  | none => cases h
  | some host =>
    have hsource : e.source = "host:" ++ host.id := by
      simp only [Option.elim_some, HostContents.environment, List.mem_cons, List.not_mem_nil,
        or_false] at h
      rcases h with rfl | rfl <;> rfl
    rw [heq, hsource, isId, Bool.and_eq_true] at hid
    have hcolon := List.all_eq_true.mp hid.2 ':' (by simp)
    exact absurd hcolon (by decide)

/-- Equal formations come from equal operating systems and contents. -/
theorem formation_injective {codec : Codec} {declared : FormationManifest} {os os' : Os}
    {c c' : Contents} (hvalid : declared.Valid)
    (hlength : c.components.length = declared.components.length)
    (hlength' : c'.components.length = declared.components.length)
    (h : formation codec declared os c = formation codec declared os' c') : os = os' ∧ c = c' := by
  simp only [formation, ResolvedFormation.mk.injEq, List.append_assoc] at h
  obtain ⟨-, -, -, htarget, hruntime, -, hcomponents, henvironment, -, -⟩ := h
  obtain ⟨hos, htail⟩ := List.append_inj henvironment rfl
  have hos : os = os' := by
    simp only [portableRuntimeEnvironment, contribution, List.cons.injEq,
      EnvironmentContribution.mk.injEq] at hos
    exact loaderKey_injective hos.2.1.1
  have hresolved : (declared.components.zip c.components).map
        (fun entry => (entry.2.artifact, entry.2.bundles)) =
      (declared.components.zip c'.components).map
        fun entry => (entry.2.artifact, entry.2.bundles) := by
    have := congrArg (List.map fun component : ResolvedComponent =>
      (component.artifact, component.bundles)) hcomponents
    simpa [List.map_map, Function.comp_def] using this
  obtain ⟨hcs, hhost⟩ := components_of_lock hvalid.distinct (fun _ => source_host hvalid)
    (fun _ => source_host hvalid) hlength hlength' hresolved htail
  obtain ⟨runtime, target, components, host⟩ := c
  obtain ⟨runtime', target', components', host'⟩ := c'
  obtain rfl : components = components' := hcs
  obtain rfl := host_of_environment hhost
  obtain rfl : target = target' := htarget
  obtain rfl : runtime = runtime' := hruntime
  exact ⟨hos, rfl⟩

end Injective

/-! ## Portable paths -/

section Paths

variable {codec : Codec} {declared : FormationManifest} {machine : Machine}
  {m : MaterializedFormation}

/-- The paths of a component continue its portable directory. -/
theorem isPortable_of_contributions {component : ComponentInput} {os : Os}
    {e : EnvironmentContribution} {path : String} (hvalid : declared.Valid)
    (hdeclared : component.declared ∈ declared.components)
    (he : e ∈ component.contributions os) (hpath : path ∈ e.paths) : IsPortable declared path := by
  obtain ⟨group, hgroup, rfl⟩ := List.mem_map.mp he
  obtain ⟨group, -, rfl⟩ := List.mem_map.mp hgroup
  obtain ⟨relative, -, rfl⟩ := List.mem_map.mp (List.mem_eraseDups.mp hpath)
  rw [renderedPath_eq (hvalid.ids _ hdeclared)]
  have hbase : "components/" ++ component.declared.id ∈ bases declared :=
    List.mem_cons_of_mem _ (List.mem_cons_of_mem _ (List.mem_map_of_mem hdeclared))
  refine ⟨_, hbase, (below_eq relative).imp (fun h => by rw [h, String.append_empty]) ?_⟩
  rintro ⟨rest, hrest⟩
  exact ⟨rest, by rw [hrest, ← String.append_assoc]⟩

theorem isPortable_of_runtime {os : Os} {e : EnvironmentContribution} {path : String}
    (he : e ∈ portableRuntimeEnvironment os) (hpath : path ∈ e.paths) :
    IsPortable declared path := by
  refine ⟨"runtime", List.mem_cons_self, ?_⟩
  simp only [portableRuntimeEnvironment, contribution, List.mem_cons, List.not_mem_nil,
    or_false] at he
  rcases he with rfl | rfl | rfl | rfl | rfl <;> obtain rfl := List.mem_singleton.mp hpath
  · exact .inr ⟨"bin", rfl⟩
  · exact .inr ⟨"lib", rfl⟩
  · exact .inr ⟨"lib/python", rfl⟩
  · exact .inl rfl
  · exact .inr ⟨"plugin/usd", rfl⟩

/-- The portable texts of a host's directories. -/
theorem mem_directories {os : Os} {host : HostRecord} {key : String}
    (h : key ∈ (host.directories os).toList.map Prod.fst) : ∃ rest, key = "host/" ++ rest := by
  rw [ExtTreeMap.map_fst_toList_eq_keys, ExtTreeMap.mem_keys] at h
  have hfold : ∀ (executables : List (String × String)) (known : ExtTreeMap String String),
      (∀ key ∈ known, ∃ rest, key = "host/" ++ rest) →
        ∀ key ∈ executables.foldl (fun directories executable =>
          directories.insert ("host/" ++ Path.slashed (HostRecord.directory executable.2))
            (Path.slashed (Path.join os host.root (HostRecord.directory executable.2)))) known,
          ∃ rest, key = "host/" ++ rest := by
    intro executables
    induction executables with
    | nil => exact fun _ hknown => hknown
    | cons executable rest ih =>
      intro known hknown
      refine ih _ fun key hkey => ?_
      rcases ExtTreeMap.mem_insert.mp hkey with heq | hkey
      · exact ⟨_, (compare_eq_iff_eq.mp heq).symm⟩
      · exact hknown key hkey
  refine hfold host.executables ∅ (fun key hkey => ?_) key h
  exact absurd hkey ExtTreeMap.not_mem_empty

theorem isPortable_of_host {e : EnvironmentContribution} {path : String}
    (he : e ∈ machine.contents.host.elim [] HostContents.environment) (hpath : path ∈ e.paths) :
    IsPortable declared path := by
  refine ⟨"host", List.mem_cons_of_mem _ List.mem_cons_self, ?_⟩
  cases hhost : machine.host with
  | none => simp [Machine.contents, hhost] at he
  | some host =>
    simp only [Machine.contents, hhost, Option.map_some, Option.elim_some,
      HostContents.environment, List.mem_cons, List.not_mem_nil, or_false] at he
    rcases he with rfl | rfl
    · obtain ⟨rest, rfl⟩ := mem_directories hpath
      exact .inr ⟨rest, by rw [← String.toList_inj]; simp⟩
    · exact .inl (List.mem_singleton.mp hpath)

/-- The report names no path of the machine. -/
theorem isPortable_of_resolve (h : machine.resolve codec declared = .ok m) :
    ∀ e ∈ m.resolved.environment, ∀ path ∈ e.paths, IsPortable declared path := by
  obtain ⟨m₀, hresolve, rfl⟩ := resolve_of_resolveWithHost h
  obtain ⟨rfl, hvalid, hdeclared, -⟩ := resolve_ok hresolve
  intro e he path hpath
  rw [environment_of_host] at he
  rcases List.mem_append.mp he with he | he
  · rcases List.mem_append.mp he with he | he
    · exact isPortable_of_runtime he hpath
    · obtain ⟨component, hcomponent, he⟩ := List.mem_flatMap.mp he
      have : component.declared ∈ declared.components :=
        hdeclared ▸ List.mem_map_of_mem hcomponent
      exact isPortable_of_contributions hvalid this he hpath
  · exact isPortable_of_host he hpath

end Paths

/-! ## Two machines -/

section Machines

variable {codec : Codec} {declared : FormationManifest} {a b : Machine}
  {ma mb : MaterializedFormation}

/-- Two locks are equal exactly when the operating systems and the contents are. -/
theorem lock_eq_iff (ha : a.resolve codec declared = .ok ma)
    (hb : b.resolve codec declared = .ok mb) :
    FormationLock.fromResolved ma.resolved = FormationLock.fromResolved mb.resolved ↔
      a.os = b.os ∧ a.contents = b.contents := by
  obtain ⟨hma, hvalid, hlength⟩ := resolved_eq ha
  obtain ⟨hmb, -, hlength'⟩ := resolved_eq hb
  rw [hma, hmb]
  constructor
  · intro h
    exact formation_injective hvalid hlength hlength' (FormationLock.mk.inj h).2
  · rintro ⟨hos, hcontents⟩
    rw [hos, hcontents]

/-- The lock of one machine stands for the other exactly when they run one operating system and
hold the same contents. -/
theorem portable_iff (ha : a.resolve codec declared = .ok ma)
    (hb : b.resolve codec declared = .ok mb) :
    Portable declared ma mb ↔ a.os = b.os ∧ a.contents = b.contents := by
  rw [← lock_eq_iff ha hb]
  constructor
  · exact Portable.equal
  · intro hequal
    refine ⟨hequal, fun lockPath manifestPath => ?_, isPortable_of_resolve ha⟩
    have hdigest : ma.resolved.manifestDigest = mb.resolved.manifestDigest :=
      congrArg (·.resolution.manifestDigest) hequal
    exact Result.bind_ok.mpr ⟨⟨⟩, Result.failIf_ok.mpr (not_not.mpr hdigest),
      Result.failIf_ok.mpr (not_not.mpr hequal)⟩

end Machines

/-- Without a host, a machine resolves as its input does. -/
theorem resolve_of_host {codec : Codec} {declared : FormationManifest} {machine : Machine}
    (hhost : machine.host = none) :
    machine.resolve codec declared = resolve codec machine.os declared machine.input := by
  rw [Machine.resolve, resolveWithHost, hhost]
  cases resolve codec machine.os declared machine.input with
  | error e => rfl
  | ok m => rfl

namespace Sample

def linux (root : String) : Machine := ⟨.linux, none, input root none⟩

def windows : Machine := ⟨.windows, none, input "C:\\ost\\f\\0123456789abcdef" none⟩

theorem resolves_linux :
    ((linux "/home/ost/f/0123456789abcdef").resolve codec declared).toOption.isSome ∧
      ((linux "/srv/ost/f/fedcba9876543210").resolve codec declared).toOption.isSome := by
  rw [resolve_of_host rfl, resolve_of_host rfl]
  exact ⟨resolves_of rfl rfl rfl (by decide), resolves_of rfl rfl rfl (by decide)⟩

theorem resolves_windows : (windows.resolve codec declared).toOption.isSome := by
  rw [resolve_of_host rfl]
  exact resolves_of rfl rfl rfl (by decide)

end Sample

/-- Two stores of one operating system. -/
theorem portable_iff_sample : ∃ ma mb,
    (Sample.linux "/home/ost/f/0123456789abcdef").resolve Sample.codec Sample.declared = .ok ma ∧
    (Sample.linux "/srv/ost/f/fedcba9876543210").resolve Sample.codec Sample.declared = .ok mb ∧
    Portable Sample.declared ma mb := by
  obtain ⟨ma, ha⟩ := Result.exists_ok Sample.resolves_linux.1
  obtain ⟨mb, hb⟩ := Result.exists_ok Sample.resolves_linux.2
  have hcontents : (Sample.linux "/home/ost/f/0123456789abcdef").contents =
      (Sample.linux "/srv/ost/f/fedcba9876543210").contents := by
    decide +kernel
  exact ⟨ma, mb, ha, hb, (portable_iff ha hb).mpr ⟨rfl, hcontents⟩⟩

/-- The same artifacts give other locks on Linux than on Windows. -/
theorem portable_fails : ¬ ∀ (codec : Codec) (declared : FormationManifest) (a b : Machine)
    (ma mb : MaterializedFormation), a.host = b.host →
    a.input.runtimeRecord = b.input.runtimeRecord →
    a.input.runtimeManifest = b.input.runtimeManifest →
    a.input.components.map ComponentInput.record = b.input.components.map ComponentInput.record →
    a.resolve codec declared = .ok ma → b.resolve codec declared = .ok mb →
    Portable declared ma mb := by
  intro hall
  obtain ⟨ma, ha⟩ := Result.exists_ok Sample.resolves_linux.1
  obtain ⟨mb, hb⟩ := Result.exists_ok Sample.resolves_windows
  have hequal := (hall Sample.codec Sample.declared
    (Sample.linux "/home/ost/f/0123456789abcdef") Sample.windows ma mb rfl rfl rfl rfl ha hb).equal
  have hos : Os.linux = Os.windows := ((lock_eq_iff ha hb).mp hequal).1
  cases hos

end OpenStrata.Formation
