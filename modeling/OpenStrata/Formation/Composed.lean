import OpenStrata.Formation.Resolve

/-!
# What a resolution composes

A resolution, once its checks have passed, as a function of what the checks leave: the fields of
the records, the bundles, and the activated paths.

## Main definitions

* `ComponentInput.vars`, `ComponentInput.contributions`: what a component adds to the environment
* `composed`: the resolution of an input

## Main results

* `resolve_ok`: a successful resolution is the composed one, and every activated path lies under
  the root of its component
-/

namespace OpenStrata.Formation

open OpenStrata.Plugin (LoadedBundle RuntimeContext)
open OpenStrata.Runtime (EnvVar RuntimeManifest)

/-! ## Contributions -/

/-- The portable texts of paths under a root, each once. -/
def portablePaths (os : Os) (id root : String) (paths : List String) : List String :=
  ((paths.filterMap (Path.stripPrefix os root)).map (renderedPath id)).eraseDups

def resolvedBundle (bundle : LoadedBundle) : ResolvedBundle :=
  ⟨bundle.plugin.name, bundle.plugin.version, bundle.plugin.kind.asStr⟩

namespace ComponentInput

/-- The groups of activated paths that are not empty. -/
def groups (os : Os) (component : ComponentInput) : List (String × List String) :=
  (activationGroups os component.activation).filter fun group => !group.2.isEmpty

def vars (os : Os) (component : ComponentInput) : List EnvVar :=
  (component.groups os).flatMap fun group => groupVars group.1 group.2

/-- The portable texts of the activated paths under the variables they go to. -/
def portableGroups (os : Os) (component : ComponentInput) : List (String × List String) :=
  (component.groups os).map fun group =>
    (group.1, portablePaths os component.declared.id component.root group.2)

def contributions (os : Os) (component : ComponentInput) : List EnvironmentContribution :=
  (component.portableGroups os).map fun group =>
    contribution group.1 component.declared.id group.2

def resolved (component : ComponentInput) : ResolvedComponent :=
  ⟨component.declared.id, component.declared.kind, ResolvedArtifact.ofRecord component.record,
    component.bundles.map resolvedBundle⟩

/-- Every activated path lies under the component's root. -/
def Contained (os : Os) (component : ComponentInput) : Prop :=
  ∀ group ∈ component.groups os, ∀ path ∈ group.2,
    ∃ relative, Path.stripPrefix os component.root path = some relative

end ComponentInput

/-- The resolution of an input that passes the checks. -/
def composed (codec : Codec) (os : Os) (declared : FormationManifest) (input : ResolutionInput) :
    MaterializedFormation where
  resolved := {
    schema := RESOLVED_SCHEMA
    name := declared.formation.name
    manifestDigest := declared.digest codec
    target := legacyTarget input.runtimeManifest
    runtime := ResolvedArtifact.ofRecord input.runtimeRecord
    host := declared.host
    components := input.components.map ComponentInput.resolved
    environment := portableRuntimeEnvironment os ++
      input.components.flatMap (ComponentInput.contributions os)
    command := declared.command
    conflicts := [] }
  env := ⟨(runtimeEnv os input).sep,
    (runtimeEnv os input).vars ++ input.components.flatMap (ComponentInput.vars os)⟩

/-! ## Portable texts -/

theorem rdropWhile_append_of_last {α : Type} {p : α → Bool} {as : List α}
    (h : ∀ a ∈ as.getLast?, p a = false) (bs : List α) :
    (as ++ bs).rdropWhile p = as ++ bs.rdropWhile p := by
  induction bs using List.reverseRecOn with
  | nil =>
    rw [List.append_nil, List.rdropWhile_nil, List.append_nil]
    refine List.rdropWhile_eq_self_iff.mpr fun hne => ?_
    simpa using h _ (List.getLast?_eq_some_getLast hne)
  | append_singleton bs b ih =>
    rw [← List.append_assoc]
    by_cases hb : p b
    · rw [List.rdropWhile_concat_pos _ _ _ hb, List.rdropWhile_concat_pos _ _ _ hb, ih]
    · rw [List.rdropWhile_concat_neg _ _ _ hb, List.rdropWhile_concat_neg _ _ _ hb,
        List.append_assoc]

/-- What a portable text has after the component's directory. -/
def below (relative : String) : String :=
  String.ofList (('/' :: relative.toList).rdropWhile (· == '/'))

/-- Only the slashes after the component's directory are trimmed: ids contain none. -/
theorem renderedPath_eq {id : String} (h : isId id) (relative : String) :
    renderedPath id relative = "components/" ++ id ++ below relative := by
  obtain ⟨hne, hall⟩ := (Bool.and_eq_true _ _).mp h
  have hlast : ∀ c ∈ ("components/" ++ id).toList.getLast?, (c == '/') = false := by
    intro c hc
    have hid : id.toList ≠ [] := by simpa using hne
    rw [String.toList_append, List.getLast?_append_of_ne_nil _ hid] at hc
    have := List.all_eq_true.mp hall c (List.mem_of_mem_getLast? hc)
    by_contra hslash
    obtain rfl : c = '/' := by simpa using hslash
    exact absurd this (by decide)
  rw [← String.toList_inj, renderedPath, String.toList_ofList, String.toList_append,
    String.toList_append, List.append_assoc, rdropWhile_append_of_last hlast]
  simp [below]

/-- Nothing, or a slash with what follows. -/
theorem below_eq (relative : String) : below relative = "" ∨ ∃ rest, below relative = "/" ++ rest := by
  have hleads := List.rdropWhile_prefix (· == '/') ('/' :: relative.toList)
  unfold below
  cases h : ('/' :: relative.toList).rdropWhile (· == '/') with
  | nil => exact .inl rfl
  | cons c rest =>
    rw [h] at hleads
    obtain ⟨rfl, -⟩ := List.cons_prefix_cons.mp hleads
    exact .inr ⟨String.ofList rest, by rw [← String.toList_inj]; simp⟩

/-! ## One component -/

section Component

variable {os : Os} {expected : ComponentRef} {component : ComponentInput} {root : String}
  {context : RuntimeContext} {runtime : RuntimeManifest}

theorem mapM_portablePath {paths portable : List String}
    (h : paths.mapM (portablePath os expected root) = .ok portable) :
    portable = (paths.filterMap (Path.stripPrefix os root)).map (renderedPath expected.id) ∧
      ∀ path ∈ paths, ∃ relative, Path.stripPrefix os root path = some relative := by
  induction paths generalizing portable with
  | nil =>
    obtain rfl := Except.ok.inj h
    exact ⟨rfl, nofun⟩
  | cons path rest ih =>
    rw [List.mapM_cons] at h
    obtain ⟨rendered, hrendered, h⟩ := Result.bind_ok.mp h
    obtain ⟨portable', hrest, h⟩ := Result.bind_ok.mp h
    obtain rfl := Except.ok.inj h
    obtain ⟨rfl, hall⟩ := ih hrest
    cases hstrip : Path.stripPrefix os root path with
    | none =>
      rw [portablePath, hstrip] at hrendered
      cases hrendered
    | some relative =>
      rw [portablePath, hstrip] at hrendered
      obtain rfl := Except.ok.inj hrendered
      exact ⟨by rw [List.filterMap_cons_some hstrip, List.map_cons],
        List.forall_mem_cons.mpr ⟨⟨relative, hstrip⟩, hall⟩⟩

/-- One group adds nothing when it is empty. -/
theorem appendGroup_ok {group : String × List String}
    {added : List EnvVar × List EnvironmentContribution}
    (h : appendGroup os expected root group = .ok added) :
    (group.2.isEmpty = true ∧ added = ([], [])) ∨ (group.2.isEmpty = false ∧
      added = (groupVars group.1 group.2,
        [contribution group.1 expected.id (portablePaths os expected.id root group.2)]) ∧
      ∀ path ∈ group.2, ∃ relative, Path.stripPrefix os root path = some relative) := by
  unfold appendGroup at h
  by_cases hempty : group.2.isEmpty
  · rw [if_pos hempty] at h
    exact .inl ⟨hempty, (Except.ok.inj h).symm⟩
  · rw [if_neg hempty] at h
    obtain ⟨portable, hportable, h⟩ := Result.bind_ok.mp h
    obtain rfl := Except.ok.inj h
    obtain ⟨rfl, hall⟩ := mapM_portablePath hportable
    exact .inr ⟨by simpa using hempty, rfl, hall⟩

/-- The groups in order: those that are not empty are added. -/
theorem mapM_appendGroup {groups : List (String × List String)}
    {added : List (List EnvVar × List EnvironmentContribution)}
    (h : groups.mapM (appendGroup os expected root) = .ok added) :
    added.flatMap Prod.fst = ((groups.filter fun group => !group.2.isEmpty).flatMap fun group =>
        groupVars group.1 group.2) ∧
      added.flatMap Prod.snd = ((groups.filter fun group => !group.2.isEmpty).map fun group =>
        contribution group.1 expected.id (portablePaths os expected.id root group.2)) ∧
      ∀ group ∈ groups.filter (fun group => !group.2.isEmpty), ∀ path ∈ group.2,
        ∃ relative, Path.stripPrefix os root path = some relative := by
  induction groups generalizing added with
  | nil =>
    obtain rfl := Except.ok.inj h
    exact ⟨rfl, rfl, nofun⟩
  | cons group rest ih =>
    rw [List.mapM_cons] at h
    obtain ⟨first, hfirst, h⟩ := Result.bind_ok.mp h
    obtain ⟨added', hrest, h⟩ := Result.bind_ok.mp h
    obtain rfl := Except.ok.inj h
    obtain ⟨hvars, hcontributions, hall⟩ := ih hrest
    rcases appendGroup_ok hfirst with ⟨hempty, rfl⟩ | ⟨hfull, rfl, hpaths⟩
    · rw [List.filter_cons_of_neg (by simp [hempty])]
      exact ⟨hvars, hcontributions, hall⟩
    · rw [List.filter_cons_of_pos (by simp [hfull])]
      refine ⟨?_, ?_, List.forall_mem_cons.mpr ⟨hpaths, hall⟩⟩
      · rw [List.flatMap_cons, List.flatMap_cons, hvars]
      · rw [List.flatMap_cons, List.map_cons, hcontributions]
        rfl

theorem resolveBundles_snd {id : String} {bundles : List LoadedBundle} :
    ∀ {versions versions' : BundleVersions} {resolved : List ResolvedBundle},
      resolveBundles id context runtime versions bundles = .ok (versions', resolved) →
        resolved = bundles.map resolvedBundle := by
  induction bundles with
  | nil =>
    intro versions versions' resolved h
    cases h
    rfl
  | cons bundle rest ih =>
    intro versions versions' resolved h
    simp only [resolveBundles, Result.bind_ok] at h
    obtain ⟨⟨⟩, -, ⟨⟩, -, ⟨versions₁, resolved₁⟩, hrest, heq⟩ := h
    cases heq
    rw [List.map_cons, ← ih hrest]
    rfl

/-- A step adds what its component contributes. -/
theorem resolveComponent_eq {s s' : Composed}
    (h : resolveComponent os context runtime s expected component = .ok s') :
    component.declared = expected ∧ component.Contained os ∧
      s'.vars = s.vars ++ component.vars os ∧
      s'.environment = s.environment ++ component.contributions os ∧
      s'.components = s.components ++ [component.resolved] := by
  simp only [resolveComponent, Result.bind_ok] at h
  obtain ⟨⟨⟩, hchecked, ⟨versions, bundles⟩, hbundles, ⟨vars, environment⟩, hactivation, heq⟩ := h
  obtain rfl := Except.ok.inj heq
  simp only [checkComponent, Result.bind_ok, Result.failIf_ok, not_not] at hchecked
  obtain ⟨⟨⟩, hdeclared, -⟩ := hchecked
  obtain ⟨groups, hgroups, heq⟩ := Result.bind_ok.mp hactivation
  cases heq
  obtain ⟨hvars, hcontributions, hall⟩ := mapM_appendGroup hgroups
  refine ⟨hdeclared, hall, ?_, ?_, ?_⟩
  · rw [hvars]
    rfl
  · rw [hcontributions, ComponentInput.contributions, ComponentInput.portableGroups, List.map_map,
      hdeclared]
    rfl
  · rw [resolveBundles_snd hbundles, ComponentInput.resolved, hdeclared]

end Component

/-! ## All components -/

section Run

variable {codec : Codec} {os : Os} {declared : FormationManifest} {input : ResolutionInput}
  {context : RuntimeContext} {runtime : RuntimeManifest} {m : MaterializedFormation}

/-- A run adds what its components contribute, in order. -/
theorem resolveComponents_eq {components : List (ComponentRef × ComponentInput)} :
    ∀ {s s' : Composed}, resolveComponents os context runtime s components = .ok s' →
      (∀ entry ∈ components, entry.2.declared = entry.1 ∧ entry.2.Contained os) ∧
        s'.vars = s.vars ++ (components.map Prod.snd).flatMap (ComponentInput.vars os) ∧
        s'.environment = s.environment ++
          (components.map Prod.snd).flatMap (ComponentInput.contributions os) ∧
        s'.components = s.components ++ (components.map Prod.snd).map ComponentInput.resolved := by
  induction components with
  | nil =>
    intro s s' h
    rw [resolveComponents] at h
    obtain rfl := Except.ok.inj h
    refine ⟨fun entry hentry => ?_, by simp, by simp, by simp⟩
    cases hentry
  | cons entry rest ih =>
    intro s s' h
    obtain ⟨expected, component⟩ := entry
    obtain ⟨s₁, hstep, hrest⟩ := Result.bind_ok.mp h
    obtain ⟨hdeclared, hcontained, hvars, henvironment, hcomponents⟩ := resolveComponent_eq hstep
    obtain ⟨hall, hvars', henvironment', hcomponents'⟩ := ih hrest
    refine ⟨List.forall_mem_cons.mpr ⟨⟨hdeclared, hcontained⟩, hall⟩, ?_, ?_, ?_⟩
    · rw [hvars', hvars, List.map_cons, List.flatMap_cons, List.append_assoc]
    · rw [henvironment', henvironment, List.map_cons, List.flatMap_cons, List.append_assoc]
    · rw [hcomponents', hcomponents, List.map_cons, List.map_cons, List.append_assoc]
      rfl

/-- A successful resolution is the composed one; the components are the declared ones in order,
and every activated path lies under its root. -/
theorem resolve_ok (h : resolve codec os declared input = .ok m) :
    m = composed codec os declared input ∧ declared.Valid ∧
      input.components.map ComponentInput.declared = declared.components ∧
      ∀ component ∈ input.components, component.Contained os := by
  simp only [resolve, Result.bind_ok, Result.failIf_ok, not_not] at h
  obtain ⟨⟨⟩, hvalid, ⟨⟩, -, ⟨⟩, hlength, s, hcomponents, heq⟩ := h
  obtain rfl := Except.ok.inj heq
  obtain ⟨hall, hvars, henvironment, hresolved⟩ := resolveComponents_eq hcomponents
  have hzip : (declared.components.zip input.components).map Prod.snd = input.components :=
    List.map_snd_zip hlength.le
  rw [hzip] at hvars henvironment hresolved
  refine ⟨?_, FormationManifest.valid_of_validate hvalid, ?_, ?_⟩
  · rw [composed, hvars, henvironment, hresolved]
    rfl
  · calc input.components.map ComponentInput.declared
        = ((declared.components.zip input.components).map Prod.snd).map
            ComponentInput.declared := by rw [hzip]
      _ = (declared.components.zip input.components).map Prod.fst := by
          rw [List.map_map]
          exact List.map_congr_left fun entry hentry => (hall entry hentry).1
      _ = declared.components := List.map_fst_zip hlength.ge
  · intro component hcomponent
    rw [← hzip] at hcomponent
    obtain ⟨entry, hentry, rfl⟩ := List.mem_map.mp hcomponent
    exact (hall entry hentry).2

end Run

end OpenStrata.Formation
