import OpenStrata.Formation.Replay

/-!
# When the report is the launched environment

Where entries can be told apart, the condition under which the replayed report agrees with the
launched environment is also necessary.

## Main definitions

* `Separate`: list separators and backslashes stand only where they separate, and no root lies
  below another

## Main results

* `faithful_of_agrees`: agreement makes the report faithful
* `agrees_iff`: both directions
-/

namespace OpenStrata.Formation

open Path (Plain Trimmed components parts slashed)
open OpenStrata.Runtime (EnvOp EnvSet EnvVar Layout listSeparator loaderKey pathValue searchPath
  searchStep)
open SearchPath (Same)

/-! ## Entries that can be told apart -/

/-- No entry is empty or cut by a list separator, backslashes stand only where they separate, and no root
lies below another. -/
structure Separate (machine : Machine) (m : MaterializedFormation) : Prop where
  whole : ∀ v ∈ m.env.vars, v.op.value ≠ ""
  launched : ∀ v ∈ m.env.vars, listSeparator machine.os ∉ v.op.value.toList
  reported : ∀ v ∈ (replay machine.os (roots machine.host machine.input)
    m.resolved.environment).vars, listSeparator machine.os ∉ v.op.value.toList
  roots : ∀ entry ∈ roots machine.host machine.input, Plain machine.os entry.2
  paths : ∀ component ∈ machine.input.components, ∀ group ∈ component.groups machine.os,
    ∀ path ∈ group.2, Plain machine.os path
  apart : ∀ entry ∈ Formation.roots machine.host machine.input,
    ∀ entry' ∈ Formation.roots machine.host machine.input,
      components machine.os entry.2 <+: components machine.os entry'.2 → entry = entry'

/-! ## Search paths -/

section SearchPaths

variable {key entry : String}

theorem mem_searchPath {vars : List EnvVar} : ∀ {entries : List String},
    entry ∈ vars.foldl (searchStep key) entries →
      entry ∈ entries ∨ ∃ v ∈ vars, v.key = key ∧ v.op.value = entry := by
  induction vars with
  | nil => exact fun h => .inl h
  | cons v vars ih =>
    intro entries h
    rcases ih h with h | ⟨v', hv', hkey⟩
    · unfold searchStep at h
      split at h
      · rename_i hkey
        obtain ⟨k, op⟩ := v
        cases op with
        | set value =>
          exact .inr ⟨_, List.mem_cons_self, hkey, (List.mem_singleton.mp h).symm⟩
        | prepend value =>
          rcases List.mem_cons.mp h with rfl | h
          · exact .inr ⟨_, List.mem_cons_self, hkey, rfl⟩
          · exact .inl h
      · exact .inl h
    · exact .inr ⟨v', List.mem_cons_of_mem _ hv', hkey⟩

/-- What is prepended stays, where the variable is not set. -/
theorem mem_searchPath_of_prepend {vars : List EnvVar}
    (hset : ∀ v ∈ vars, v.key = key → ∃ value, v.op = .prepend value) :
    ∀ {entries : List String},
      (entry ∈ entries ∨ ∃ v ∈ vars, v.key = key ∧ v.op.value = entry) →
        entry ∈ vars.foldl (searchStep key) entries := by
  induction vars with
  | nil =>
    rintro entries (h | ⟨v, hv, -⟩)
    · exact h
    · cases hv
  | cons v vars ih =>
    intro entries h
    obtain ⟨hv, hvars⟩ := List.forall_mem_cons.mp hset
    refine ih hvars ?_
    rcases h with h | ⟨v', hv', hkey, hvalue⟩
    · left
      unfold searchStep
      split
      · rename_i hkey
        obtain ⟨value, hop⟩ := hv hkey
        rw [hop]
        exact List.mem_cons_of_mem _ h
      · exact h
    · rcases List.mem_cons.mp hv' with rfl | hmem
      · left
        obtain ⟨value, hop⟩ := hv hkey
        rw [searchStep, if_pos hkey, hop]
        rw [hop] at hvalue
        exact hvalue ▸ List.mem_cons_self
      · exact .inr ⟨v', hmem, hkey, hvalue⟩

/-- Values with the same entries have the same search paths, where no entry is cut. -/
theorem mem_iff_of_sameValue {sep : Char} {entries entries' : List String}
    (hwhole : ∀ entry ∈ entries, sep ∉ entry.toList)
    (hwhole' : ∀ entry ∈ entries', sep ∉ entry.toList)
    (h : SameValue sep (pathValue sep entries) (pathValue sep entries')) :
    entry ∈ entries ↔ entry ∈ entries' := by
  have hflat : ∀ {l : List String}, (∀ entry ∈ l, sep ∉ entry.toList) →
      l.flatMap (Text.split (· == sep)) = l := by
    intro l hl
    induction l with
    | nil => rfl
    | cons entry l ih =>
      obtain ⟨hentry, hl⟩ := List.forall_mem_cons.mp hl
      rw [List.flatMap_cons, ih hl, Text.split_of_not_mem fun c hc => ?_]
      · rfl
      · by_contra hsep
        obtain rfl : c = sep := by simpa using hsep
        exact hentry hc
  rw [SameValue, pathValue, pathValue] at h
  by_cases hnil : entries = []
  · by_cases hnil' : entries' = []
    · rw [hnil, hnil']
    · rw [if_pos hnil, if_neg hnil'] at h
      cases h
  · by_cases hnil' : entries' = []
    · rw [if_neg hnil, if_pos hnil'] at h
      cases h
    · rw [if_neg hnil, if_neg hnil', entriesOf, entriesOf, Option.map_some, Option.map_some,
        split_join_entries hnil, split_join_entries hnil', hflat hwhole, hflat hwhole'] at h
      exact Same.mem_iff (Option.some.inj h)

end SearchPaths

/-! ## Paths under roots -/

section UnderRoot

variable {os : Os} {root path path' relative tail : String}

/-- Whatever is joined to a root, its components come first. -/
theorem components_underRoot (hroot : Plain os root) :
    components os root <+: components os (underRoot os root tail) := by
  unfold underRoot
  split
  · rw [Path.components_slashed hroot]
  · by_cases hos : os = .windows
    · subst hos
      have hplain : Plain .windows (Path.join .windows root (String.ofList (tail.toList.drop 1))) :=
        fun h => absurd rfl h
      rw [Path.components_slashed hplain, Path.components_join]
      exact List.prefix_append _ _
    · -- slashes leave the root as it is
      have hjoin : slashed (Path.join os root (String.ofList (tail.toList.drop 1))) =
          Path.join os root (slashed (String.ofList (tail.toList.drop 1))) := by
        unfold Path.join
        split <;> simp only [Path.slashed_append, Path.slashed_eq_self (hroot hos)]
        cases os with
        | windows => exact absurd rfl hos
        | linux => rfl
        | macos => rfl
      rw [hjoin, Path.components_join]
      exact List.prefix_append _ _

theorem backslash_notMem_join {rest : List String} (h : ∀ part ∈ rest, '\\' ∉ part.toList) :
    '\\' ∉ (Text.join "/" rest).toList := by
  induction rest with
  | nil => exact List.not_mem_nil
  | cons part rest ih =>
    obtain ⟨hpart, hrest⟩ := List.forall_mem_cons.mp h
    cases rest with
    | nil => exact hpart
    | cons next rest =>
      have hslash : ("/" : String).toList = ['/'] := rfl
      rw [Text.join, String.toList_append, String.toList_append, hslash, List.mem_append,
        List.mem_append, not_or, not_or]
      · exact ⟨⟨hpart, by decide⟩, ih hrest⟩
      · rintro ⟨⟩

/-- A relative path has nothing to trim. -/
theorem below_join {rest : List String} (hne : rest ≠ []) (h : Trimmed os rest) :
    below (Text.join "/" rest) = "/" ++ Text.join "/" rest := by
  obtain rfl | ⟨init, last, rfl⟩ := List.eq_nil_or_concat rest
  · exact absurd rfl hne
  rw [List.concat_eq_append] at h ⊢
  have hlast : last.toList ≠ [] := by
    have hcomponent := h.last last (by simp)
    intro hnil
    obtain rfl : last = "" := String.toList_eq_nil_iff.mp hnil
    exact absurd hcomponent (by decide)
  have hsplit : ∃ before, (Text.join "/" (init ++ [last])).toList = before ++ last.toList := by
    cases init with
    | nil => exact ⟨[], rfl⟩
    | cons part init =>
      rw [Text.join_append (List.cons_ne_nil _ _) (List.cons_ne_nil _ _), String.toList_append]
      exact ⟨_, rfl⟩
  obtain ⟨before, hbefore⟩ := hsplit
  have hself : ('/' :: (Text.join "/" (init ++ [last])).toList).rdropWhile (· == '/') =
      '/' :: (Text.join "/" (init ++ [last])).toList := by
    rw [List.rdropWhile_eq_self_iff, hbefore, ← List.cons_append]
    intro hne
    rw [List.getLast_append_of_ne_nil _ hlast]
    intro hslash
    have := h.whole last (by simp) _ (List.getLast_mem hlast)
    rw [beq_iff_eq.mp hslash, Path.isSeparator_slash] at this
    cases this
  rw [below, hself, ← String.toList_inj]
  simp

/-- What a path adds to its root: the join of trimmed parts without backslashes. -/
theorem stripPrefix_spec (hplain : Plain os path)
    (h : Path.stripPrefix os root path = some relative) :
    ∃ rest, Path.stripParts (parts os path) (components os root) = some rest ∧ Trimmed os rest ∧
      '\\' ∉ relative.toList ∧ relative = Text.join "/" rest := by
  rw [Path.stripPrefix] at h
  split_ifs at h with hrooted
  obtain ⟨rest, hrest, rfl⟩ := Option.map_eq_some_iff.mp h
  have htrimmed : Trimmed os rest :=
    Path.trimmed_of_stripParts (fun part hpart => Text.not_mem_of_mem_split hpart) hrest
  have hjoin : '\\' ∉ (Text.join "/" rest).toList := by
    refine backslash_notMem_join fun part hpart hmem => ?_
    by_cases hos : os = .windows
    · subst hos
      exact absurd (htrimmed.whole part hpart '\\' hmem) (by decide)
    · obtain ⟨cs, hcs, rfl⟩ := List.mem_map.mp (Path.mem_of_stripParts hrest part hpart)
      rw [String.toList_ofList] at hmem
      exact hplain hos (Text.mem_of_mem_splitOnP hcs hmem)
  rw [Path.slashed_eq_self hjoin]
  exact ⟨rest, hrest, htrimmed, hjoin, rfl⟩

theorem plain_join (hroot : Plain os root) (h : '\\' ∉ relative.toList) :
    Plain os (Path.join os root relative) := by
  intro hos
  have hseparator : '\\' ∉ (Path.separator os).toList := by
    cases os with
    | windows => exact absurd rfl hos
    | linux => decide
    | macos => decide
  unfold Path.join
  split
  · rw [String.toList_append, List.mem_append, not_or]
    exact ⟨hroot hos, h⟩
  · rw [String.toList_append, String.toList_append, List.mem_append, List.mem_append, not_or, not_or]
    exact ⟨⟨hroot hos, hseparator⟩, h⟩

/-- A path that is the placed text of another path is written out. -/
theorem written_of_placed (hroot : Plain os root) (hpath : Plain os path)
    (hpath' : Plain os path') (hrelative : Path.stripPrefix os root path' = some relative)
    (h : slashed path = underRoot os root (below relative)) : Written os root path := by
  intro other hother
  obtain ⟨rest, -, htrimmed, hbackslash, rfl⟩ := stripPrefix_spec hpath' hrelative
  obtain ⟨rest', hrest', -, -, rfl⟩ := stripPrefix_spec hpath hother
  -- both are what the path adds to the root
  suffices hrest : Path.stripParts (parts os path) (components os root) = some rest by
    rw [h, Option.some.inj (hrest.symm.trans hrest')]
  rw [← Path.parts_slashed hpath, h]
  by_cases hnil : rest = []
  · subst hnil
    have hbelow : below (Text.join "/" []) = "" := rfl
    rw [hbelow, underRoot, if_pos rfl, Path.parts_slashed hroot]
    exact Path.stripParts_root
  · rw [below_join hnil htrimmed, underRoot_slash,
      Path.parts_slashed (plain_join hroot hbackslash)]
    exact Path.stripParts_join hnil htrimmed

end UnderRoot

/-! ## Where entries come from -/

section Sources

variable {codec : Codec} {os : Os} {declared : FormationManifest} {host : Option HostRecord}
  {input : ResolutionInput} {component : ComponentInput} {machine : Machine}
  {m : MaterializedFormation} {v : EnvVar}

/-- A reported change: of the runtime, of a component or of the host. -/
inductive Reported (os : Os) (host : Option HostRecord) (input : ResolutionInput) (v : EnvVar) :
    Prop
  | runtime (tail : String) (value : v.op.value = underRoot os input.runtimeRoot tail)
      (python : v.key = "PYTHONPATH" → tail = "/lib/python")
  | component (component : ComponentInput) (mem : component ∈ input.components)
      (group : String × List String) (hgroup : group ∈ component.groups os) (path : String)
      (hpath : path ∈ group.2) (relative : String)
      (strip : Path.stripPrefix os component.root path = some relative)
      (value : v.op.value = underRoot os component.root (below relative))
  | host (record : HostRecord) (mem : record ∈ host) (tail : String)
      (value : v.op.value = underRoot os record.root tail)

theorem reported_runtime (hvalid : declared.Valid)
    (hdeclared : input.components.map ComponentInput.declared = declared.components)
    (hv : v ∈ (portableRuntimeEnvironment os).flatMap (replayed os (roots host input))) :
    Reported os host input v := by
  have hmem : ("runtime", input.runtimeRoot) ∈ roots host input :=
    List.mem_append_left _ List.mem_cons_self
  obtain ⟨entry, hentry, hv⟩ := List.mem_flatMap.mp hv
  have hprepend : ∀ key path tail, path = "runtime" ++ tail →
      (tail = "" ∨ ∃ rest, tail = "/" ++ rest) →
      (key = "PYTHONPATH" → tail = "/lib/python") →
      v ∈ replayed os (roots host input) (contribution key "runtime" [path]) →
        Reported os host input v := by
    rintro key path tail rfl htail hpython hv
    have heq : replayed os (roots host input) (contribution key "runtime" ["runtime" ++ tail]) =
        [⟨key, .prepend (place os (roots host input) ("runtime" ++ tail))⟩] :=
      if_neg (show ¬ "prepend" = "set" by decide)
    rw [heq] at hv
    obtain rfl := List.mem_singleton.mp hv
    exact .runtime tail (place_eq hvalid hdeclared hmem htail) hpython
  simp only [portableRuntimeEnvironment, List.mem_cons, List.not_mem_nil, or_false] at hentry
  rcases hentry with rfl | rfl | rfl | rfl | rfl
  · exact hprepend _ _ "/bin" (by decide) (.inr ⟨"bin", rfl⟩) (fun h => absurd h (by decide)) hv
  · exact hprepend _ _ "/lib" (by decide) (.inr ⟨"lib", rfl⟩)
      (fun h => by cases os <;> exact absurd h (by decide)) hv
  · exact hprepend _ _ "/lib/python" (by decide) (.inr ⟨"lib/python", rfl⟩) (fun _ => rfl) hv
  · exact hprepend _ _ "" (by decide) (.inl rfl) (fun h => absurd h (by decide)) hv
  · exact hprepend _ _ "/plugin/usd" (by decide) (.inr ⟨"plugin/usd", rfl⟩)
      (fun h => absurd h (by decide)) hv

theorem reported_component (hvalid : declared.Valid)
    (hdeclared : input.components.map ComponentInput.declared = declared.components)
    (hmem : component ∈ input.components)
    (hv : v ∈ (component.contributions os).flatMap (replayed os (roots host input))) :
    Reported os host input v := by
  obtain ⟨entry, hentry, hv⟩ := List.mem_flatMap.mp hv
  obtain ⟨portable, hportable, rfl⟩ := List.mem_map.mp hentry
  obtain ⟨group, hgroup, rfl⟩ := List.mem_map.mp hportable
  have hreplayed : replayed os (roots host input) (contribution group.1 component.declared.id
        (portablePaths os component.declared.id component.root group.2)) =
      (portablePaths os component.declared.id component.root group.2).reverse.map fun path =>
        ⟨group.1, .prepend (place os (roots host input) path)⟩ :=
    if_neg (show ¬ "prepend" = "set" by decide)
  rw [hreplayed] at hv
  obtain ⟨rendered, hrendered, rfl⟩ := List.mem_map.mp hv
  obtain ⟨relative, hrelative, rfl⟩ :=
    List.mem_map.mp (List.mem_eraseDups.mp (List.mem_reverse.mp hrendered))
  obtain ⟨path, hpath, hstrip⟩ := List.mem_filterMap.mp hrelative
  have hroot : ("components/" ++ component.declared.id, component.root) ∈ roots host input :=
    List.mem_append_left _ (List.mem_cons_of_mem _ (List.mem_map.mpr ⟨component, hmem, rfl⟩))
  have hid : isId component.declared.id := hvalid.ids _ (hdeclared ▸ List.mem_map_of_mem hmem)
  refine .component component hmem group hgroup path hpath relative hstrip ?_
  show place os (roots host input) (renderedPath component.declared.id relative) = _
  rw [renderedPath_eq hid, place_eq hvalid hdeclared hroot (below_eq relative)]

theorem reported_host {record : HostRecord} (hvalid : declared.Valid)
    (hdeclared : input.components.map ComponentInput.declared = declared.components)
    (hv : v ∈ (record.environment os).flatMap (replayed os (roots (some record) input))) :
    Reported os (some record) input v := by
  rw [replayed_host hvalid hdeclared] at hv
  obtain ⟨tail, htail⟩ := value_of_host hv
  exact .host record rfl tail htail

/-- Every change of the replayed report is one of these. -/
theorem reported_of_resolve (h : machine.resolve codec declared = .ok m)
    (hv : v ∈ (replay machine.os (roots machine.host machine.input)
      m.resolved.environment).vars) : Reported machine.os machine.host machine.input v := by
  obtain ⟨m₀, hresolve, rfl⟩ := resolve_of_resolveWithHost h
  obtain ⟨rfl, hvalid, hdeclared, -⟩ := resolve_ok hresolve
  rw [environment_of_record, replay, composed, List.flatMap_append, List.flatMap_append,
    List.mem_append, List.mem_append] at hv
  rcases hv with (hv | hv) | hv
  · exact reported_runtime hvalid hdeclared hv
  · rw [List.flatMap_assoc] at hv
    obtain ⟨component, hmem, hv⟩ := List.mem_flatMap.mp hv
    exact reported_component hvalid hdeclared hmem hv
  · cases hhost : machine.host with
    | none =>
      rw [hhost] at hv
      cases hv
    | some record =>
      rw [hhost, Option.elim_some] at hv
      exact reported_host hvalid hdeclared hv

/-! ## Launched changes -/

/-- The variables that paths are activated under. -/
def activated (os : Os) : List String := ["PXR_PLUGINPATH_NAME", loaderKey os, "PYTHONPATH", "PATH"]

theorem key_of_mem_groups {group : String × List String} (h : group ∈ component.groups os) :
    group.1 ∈ activated os := by
  have hmem := (List.mem_filter.mp h).1
  simp only [activationGroups, List.mem_cons, List.not_mem_nil, or_false] at hmem
  rcases hmem with rfl | rfl | rfl | rfl <;> simp [activated]

/-- Only the host's own variable is set. -/
theorem prepend_of_activated (h : machine.resolve codec declared = .ok m) (hv : v ∈ m.env.vars)
    (hkey : v.key ∈ activated machine.os) : ∃ value, v.op = .prepend value := by
  obtain ⟨m₀, hresolve, rfl⟩ := resolve_of_resolveWithHost h
  obtain ⟨rfl, -, -, -⟩ := resolve_ok hresolve
  rw [env_of_host, composed, List.mem_append, List.mem_append] at hv
  rcases hv with (hv | hv) | hv
  · simp only [runtimeEnv, EnvSet.forUsdInstall, List.mem_cons, List.not_mem_nil, or_false] at hv
    rcases hv with rfl | rfl | rfl | rfl | rfl <;> exact ⟨_, rfl⟩
  · obtain ⟨component, -, hv⟩ := List.mem_flatMap.mp hv
    obtain ⟨group, -, hv⟩ := List.mem_flatMap.mp hv
    obtain ⟨path, -, rfl⟩ := List.mem_map.mp hv
    exact ⟨_, rfl⟩
  · cases hhost : machine.host with
    | none =>
      rw [hhost] at hv
      cases hv
    | some record =>
      rw [hhost, Option.elim_some] at hv
      rcases List.mem_append.mp hv with hv | hv
      · obtain ⟨path, -, rfl⟩ := List.mem_map.mp hv
        exact ⟨_, rfl⟩
      · obtain rfl := List.mem_singleton.mp hv
        have hne : ∀ family : HostFamily, family.variableName ∉ activated machine.os := by
          intro family
          cases family <;> cases machine.os <;> decide
        exact absurd hkey (hne _)

theorem launched_python (h : machine.resolve codec declared = .ok m) :
    (⟨"PYTHONPATH", .prepend (slashed (Path.join machine.os machine.input.runtimeRoot
      machine.input.runtimeLayout.usdPythonDir))⟩ : EnvVar) ∈ m.env.vars := by
  obtain ⟨m₀, hresolve, rfl⟩ := resolve_of_resolveWithHost h
  obtain ⟨rfl, -, -, -⟩ := resolve_ok hresolve
  rw [env_of_host, composed]
  refine List.mem_append_left _ (List.mem_append_left _ ?_)
  simp [runtimeEnv, EnvSet.forUsdInstall]

theorem launched_path (h : machine.resolve codec declared = .ok m)
    (hmem : component ∈ machine.input.components) {group : String × List String}
    (hgroup : group ∈ component.groups machine.os) {path : String} (hpath : path ∈ group.2) :
    (⟨group.1, .prepend (slashed path)⟩ : EnvVar) ∈ m.env.vars ∧
      ∃ relative, Path.stripPrefix machine.os component.root path = some relative := by
  obtain ⟨m₀, hresolve, rfl⟩ := resolve_of_resolveWithHost h
  obtain ⟨rfl, -, -, hcontained⟩ := resolve_ok hresolve
  refine ⟨?_, hcontained component hmem group hgroup path hpath⟩
  rw [env_of_host, composed]
  refine List.mem_append_left _ (List.mem_append_right _ ?_)
  refine List.mem_flatMap.mpr ⟨component, hmem, List.mem_flatMap.mpr ⟨group, hgroup, ?_⟩⟩
  exact List.mem_map.mpr ⟨path, List.mem_reverse.mpr hpath, rfl⟩

end Sources

/-! ## Both directions -/

section Exact

variable {codec : Codec} {declared : FormationManifest} {machine : Machine}
  {m : MaterializedFormation}

theorem value_ne_empty_of_reported (hcanonical : Canonical machine) {v : EnvVar}
    (h : Reported machine.os machine.host machine.input v) : v.op.value ≠ "" := by
  cases h with
  | runtime tail value => exact value ▸ underRoot_ne_empty hcanonical.runtime
  | component component mem _ _ _ _ _ _ value =>
    exact value ▸ underRoot_ne_empty (hcanonical.components component mem)
  | host record mem tail value => exact value ▸ underRoot_ne_empty (hcanonical.host record mem)

/-- With agreement, what is launched is reported. -/
theorem reported_of_agrees (h : machine.resolve codec declared = .ok m)
    (hcanonical : Canonical machine) (hseparate : Separate machine m) (hagrees : Agrees machine m)
    {v : EnvVar} (hv : v ∈ m.env.vars) (hkey : v.key ∈ activated machine.os) :
    ∃ v', v'.key = v.key ∧ v'.op.value = v.op.value ∧
      Reported machine.os machine.host machine.input v' := by
  have hreported : ∀ v ∈ (replay machine.os (roots machine.host machine.input)
      m.resolved.environment).vars, v.op.value ≠ "" := fun v hv =>
    value_ne_empty_of_reported hcanonical (reported_of_resolve h hv)
  have hsame := hagrees v.key
  rw [EnvSet.lookup_resolveOver _ hreported, EnvSet.lookup_resolveOver _ hseparate.whole,
    sep_of_resolve h] at hsame
  have hlaunched : v.op.value ∈ searchPath m.env.vars v.key :=
    mem_searchPath_of_prepend (fun v' hv' hk => prepend_of_activated h hv' (hk ▸ hkey))
      (.inr ⟨v, hv, rfl, rfl⟩)
  -- entries of both search paths are values of changes, so they are whole
  have hwhole : ∀ vars : List EnvVar, (∀ v ∈ vars, listSeparator machine.os ∉ v.op.value.toList) →
      ∀ entry ∈ searchPath vars v.key, listSeparator machine.os ∉ entry.toList := by
    intro vars hvars entry hentry
    rcases mem_searchPath hentry with hnil | ⟨v', hv', -, rfl⟩
    · cases hnil
    · exact hvars v' hv'
  have hmem := (mem_iff_of_sameValue (hwhole _ hseparate.reported) (hwhole _ hseparate.launched)
    hsame).mpr hlaunched
  rcases mem_searchPath hmem with hnil | ⟨v', hv', hk, hvalue⟩
  · cases hnil
  · exact ⟨v', hk, hvalue, reported_of_resolve h hv'⟩

/-- Entries under two roots are two. -/
theorem root_eq (hseparate : Separate machine m) {entry entry' : String × String}
    (hmem : entry ∈ roots machine.host machine.input)
    (hmem' : entry' ∈ roots machine.host machine.input) {text : String}
    (hleads : components machine.os entry.2 <+: components machine.os text)
    (hleads' : components machine.os entry'.2 <+: components machine.os text) :
    entry = entry' := by
  rcases List.prefix_or_prefix_of_prefix hleads hleads' with hle | hle
  · exact hseparate.apart _ hmem _ hmem' hle
  · exact (hseparate.apart _ hmem' _ hmem hle).symm

theorem slashed_join_injective {os : Os} {root a b : String}
    (h : slashed (Path.join os root a) = slashed (Path.join os root b)) : slashed a = slashed b := by
  unfold Path.join at h
  split at h
  all_goals
    simp only [Path.slashed_append] at h
    exact (String.append_right_inj _).mp h

/-- Only one of the directories that are tried reads as the reported one. -/
theorem usdPythonDir_eq {layout : Layout} (h : slashed layout.usdPythonDir = "lib/python") :
    layout.usdPythonDir = "lib/python" := by
  have hsite : ∀ name, slashed (Layout.sitePackages name) ≠ "lib/python" := by
    intro name heq
    have hlength := congrArg (fun text => text.toList.length) heq
    simp [Layout.sitePackages, slashed, Text.replaceChar] at hlength
  unfold Layout.usdPythonDir Layout.usdPythonDirFor at h ⊢
  cases hfind : ["lib/python", "lib/site-packages", "Lib/site-packages"].find? fun candidate =>
      layout.isDir (candidate ++ "/pxr") with
  | some candidate =>
    rw [hfind] at h
    have hmem := List.mem_of_find?_eq_some hfind
    simp only [List.mem_cons, List.not_mem_nil, or_false] at hmem
    rcases hmem with rfl | rfl | rfl
    · rfl
    · exact absurd (show slashed "lib/site-packages" = "lib/python" from h) (by decide)
    · exact absurd (show slashed "Lib/site-packages" = "lib/python" from h) (by decide)
  | none =>
    rw [hfind] at h
    cases hhead : layout.versionedPython.head? with
    | none => simp
    | some name =>
      simp only [Option.bind_none, hhead, Option.map_some, Option.getD_some] at h
      exact absurd h (hsite name)

/-- Agreement makes the report faithful. -/
theorem faithful_of_agrees (h : machine.resolve codec declared = .ok m)
    (hcanonical : Canonical machine) (hseparate : Separate machine m)
    (hagrees : Agrees machine m) : Faithful machine.os machine.input := by
  have hruntime : ("runtime", machine.input.runtimeRoot) ∈ roots machine.host machine.input :=
    List.mem_append_left _ List.mem_cons_self
  have hcomponent : ∀ component ∈ machine.input.components,
      ("components/" ++ component.declared.id, component.root) ∈
        roots machine.host machine.input := fun component hmem =>
    List.mem_append_left _ (List.mem_cons_of_mem _ (List.mem_map.mpr ⟨component, hmem, rfl⟩))
  have hhost : ∀ record ∈ machine.host, ("host", record.root) ∈
      roots machine.host machine.input := fun record hmem =>
    List.mem_append_right _ (List.mem_map.mpr ⟨record, Option.mem_toList.mpr hmem, rfl⟩)
  have hhead : ∀ id name, "components/".toList.head? ≠ name.toList.head? →
      "components/" ++ id ≠ name := by
    rintro id name hne rfl
    exact hne (by simp)
  constructor
  · obtain ⟨v', hkey, hvalue, hreported⟩ := reported_of_agrees h hcanonical hseparate hagrees
      (launched_python h) (by simp [activated])
    have hpython : v'.op.value = underRoot machine.os machine.input.runtimeRoot
        ("/" ++ machine.input.runtimeLayout.usdPythonDir) := hvalue.trans (underRoot_slash _ _).symm
    have hleads : components machine.os machine.input.runtimeRoot <+:
        components machine.os v'.op.value :=
      hpython ▸ components_underRoot (hseparate.roots _ hruntime)
    cases hreported with
    | runtime tail value python =>
      apply usdPythonDir_eq
      rw [hpython, python hkey, underRoot_slash] at value
      have hlib : underRoot machine.os machine.input.runtimeRoot ("/" ++ "lib/python") = _ :=
        underRoot_slash _ _
      exact slashed_join_injective (value.trans hlib)
    | component component mem group _ path _ relative _ value =>
      have heq := root_eq hseparate hruntime (hcomponent component mem) hleads
        (value ▸ components_underRoot (hseparate.roots _ (hcomponent component mem)))
      exact absurd (Prod.mk.inj heq).1.symm (hhead _ _ (by decide))
    | host record mem tail value =>
      have heq := root_eq hseparate hruntime (hhost record mem) hleads
        (value ▸ components_underRoot (hseparate.roots _ (hhost record mem)))
      exact absurd (Prod.mk.inj heq).1 (by decide)
  · intro component hmem group hgroup path hpath
    obtain ⟨hlaunched, relative, hrelative⟩ := launched_path h hmem hgroup hpath
    obtain ⟨v', -, hvalue, hreported⟩ := reported_of_agrees h hcanonical hseparate hagrees
      hlaunched (key_of_mem_groups hgroup)
    have hplain := hseparate.paths component hmem group hgroup path hpath
    have hleads : components machine.os component.root <+: components machine.os v'.op.value := by
      rw [hvalue, components]
      show _ <+: (parts machine.os (slashed path)).filter Path.isComponent
      rw [Path.parts_slashed hplain]
      exact Path.prefix_of_stripPrefix hrelative
    cases hreported with
    | runtime tail value python =>
      have heq := root_eq hseparate (hcomponent component hmem) hruntime hleads
        (value ▸ components_underRoot (hseparate.roots _ hruntime))
      exact absurd (Prod.mk.inj heq).1 (hhead _ _ (by decide))
    | component component' mem group' hgroup' path' hpath' relative' strip value =>
      have heq := root_eq hseparate (hcomponent component hmem) (hcomponent component' mem) hleads
        (value ▸ components_underRoot (hseparate.roots _ (hcomponent component' mem)))
      rw [← (Prod.mk.inj heq).2] at strip value
      exact written_of_placed (hseparate.roots _ (hcomponent component hmem)) hplain
        (hseparate.paths component' mem group' hgroup' path' hpath') strip
        (hvalue.symm.trans value)
    | host record mem tail value =>
      have heq := root_eq hseparate (hcomponent component hmem) (hhost record mem) hleads
        (value ▸ components_underRoot (hseparate.roots _ (hhost record mem)))
      exact absurd (Prod.mk.inj heq).1 (hhead _ _ (by decide))

/-- The report is the launched environment where it is faithful, and only there where entries can
be told apart. -/
theorem agrees_iff (h : machine.resolve codec declared = .ok m) (hcanonical : Canonical machine) :
    (Faithful machine.os machine.input → Agrees machine m) ∧
      (Separate machine m → Agrees machine m → Faithful machine.os machine.input) :=
  ⟨agrees_of_faithful h hcanonical, faithful_of_agrees h hcanonical⟩

end Exact

namespace Sample

/-- A tree with the Python package in a versioned directory, as a package manager puts it. -/
def versioned : Layout where
  isDir path := path == "lib/python3.13/site-packages/pxr"
  isFile _ := false
  entries path := if path = "lib" then ["python3.13"] else []

def staged : Machine := linux "/f"

/-- The staged artifacts, with another tree under the runtime's root. -/
def relayed : Machine := { staged with input := { staged.input with runtimeLayout := versioned } }

theorem resolves_staged : (staged.resolve codec declared).toOption.isSome := by
  rw [resolve_of_host rfl]
  exact resolves_of rfl rfl rfl (by decide)

theorem resolves_relayed : (relayed.resolve codec declared).toOption.isSome := by
  rw [resolve_of_host rfl]
  exact resolves_of rfl rfl rfl (by decide)

theorem canonical_staged : Canonical staged where
  runtime := by decide
  components := List.forall_mem_singleton.mpr (by decide)
  host := nofun

theorem faithful_staged : Faithful staged.os staged.input where
  python := by decide
  written := by
    intro component hcomponent group hgroup path hpath relative hrelative
    obtain rfl := List.mem_singleton.mp hcomponent
    obtain rfl : group = ("PXR_PLUGINPATH_NAME", ["/f/components/studio-renderer/plugin"]) :=
      List.mem_singleton.mp hgroup
    obtain rfl := List.mem_singleton.mp hpath
    have hstrip : Path.stripPrefix .linux "/f/components/studio-renderer"
        "/f/components/studio-renderer/plugin" = some "plugin" := by decide
    obtain rfl := Option.some.inj (hstrip.symm.trans hrelative)
    show slashed "/f/components/studio-renderer/plugin" =
      underRoot .linux "/f/components/studio-renderer" (below "plugin")
    decide

end Sample

/-- A runtime with its Python package under `lib/python`. -/
theorem agrees_iff_sample : ∃ m, Sample.staged.resolve Sample.codec Sample.declared = .ok m ∧
    Agrees Sample.staged m := by
  obtain ⟨m, hm⟩ := Result.exists_ok Sample.resolves_staged
  exact ⟨m, hm, (agrees_iff hm Sample.canonical_staged).1 Sample.faithful_staged⟩

/-- A runtime with its Python package in a versioned directory: the report names `lib/python`. -/
theorem agrees_fails : ¬ ∀ (codec : Codec) (declared : FormationManifest) (machine : Machine)
    (m : MaterializedFormation), Canonical machine → machine.resolve codec declared = .ok m →
    Agrees machine m := by
  intro hall
  obtain ⟨m, hm⟩ := Result.exists_ok Sample.resolves_relayed
  have hcanonical : Canonical Sample.relayed := ⟨Sample.canonical_staged.runtime,
    Sample.canonical_staged.components, Sample.canonical_staged.host⟩
  have hagrees := hall Sample.codec Sample.declared Sample.relayed m hcanonical hm "PYTHONPATH"
  have hdiffers : ((Sample.relayed.resolve Sample.codec Sample.declared).toOption.map fun m =>
      decide (entriesOf ':' (((replay .linux (roots none Sample.relayed.input)
        m.resolved.environment).resolveOver []).lookup "PYTHONPATH") =
      entriesOf ':' ((m.env.resolveOver []).lookup "PYTHONPATH"))) = some false := by
    have hresolve := @resolve_eq_map Sample.codec .linux Sample.declared Sample.relayed.input
      Sample.validate_declared Sample.checkRuntime_record rfl
    rw [resolve_of_host rfl]
    refine Eq.trans (congrArg (fun r => (Except.toOption r).map _) hresolve) ?_
    decide
  rw [hm] at hdiffers
  simp only [Except.toOption, Option.map_some, Option.some.injEq,
    decide_eq_false_iff_not] at hdiffers
  exact hdiffers hagrees

end OpenStrata.Formation
