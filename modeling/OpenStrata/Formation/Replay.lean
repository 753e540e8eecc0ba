import OpenStrata.Formation.Portability

/-!
# Replaying the report of an environment

The portable report of a Formation, with its paths placed under the materialized roots and applied
in order to an empty environment, against the environment that is launched. They agree, up to
repeated entries, where the runtime's Python package is in the directory that the report names and
every activated path is written as its root with what it adds to it.

## Main definitions

* `place`: a portable path under the materialized roots
* `replay`: the changes that a report stands for
* `SameValue`: search paths that differ by repeated entries
* `Faithful`: the condition

## Main results

* `place_eq`: a portable path is placed under the root of its base
* `agrees_of_faithful`: the replayed report gives the launched environment
-/

namespace OpenStrata.Formation

open Path (slashed)
open OpenStrata.Runtime (EnvOp EnvSet EnvVar listSeparator loaderKey pathValue searchPath searchStep)
open SearchPath (Same)
open Std (ExtTreeMap)

/-! ## Replaying -/

/-- The materialized roots by the texts that portable paths start with. -/
def roots (host : Option HostRecord) (input : ResolutionInput) : List (String × String) :=
  ("runtime", input.runtimeRoot) ::
    (input.components.map fun component =>
      ("components/" ++ component.declared.id, component.root)) ++
    host.toList.map fun host => ("host", host.root)

/-- What a path has after its base: nothing, or a slash with more. -/
def tailOf (base path : String) : Option String :=
  (Text.stripPrefix base path).filter fun tail => tail == "" || Text.startsWith "/" tail

/-- A root with the tail of a portable path. -/
def underRoot (os : Os) (root tail : String) : String :=
  if tail = "" then slashed root
  else slashed (Path.join os root (String.ofList (tail.toList.drop 1)))

def place (os : Os) (roots : List (String × String)) (path : String) : String :=
  (roots.findSome? fun entry => (tailOf entry.1 path).map (underRoot os entry.2)).getD path

/-- The changes that an entry of the report stands for. -/
def replayed (os : Os) (roots : List (String × String)) (entry : EnvironmentContribution) :
    List EnvVar :=
  if entry.operation = "set" then
    entry.paths.map fun path => ⟨entry.key, .set (place os roots path)⟩
  else entry.paths.reverse.map fun path => ⟨entry.key, .prepend (place os roots path)⟩

def replay (os : Os) (roots : List (String × String)) (environment : List EnvironmentContribution) :
    EnvSet :=
  ⟨listSeparator os, environment.flatMap (replayed os roots)⟩

/-- The entries of a value, each where it stands first. -/
def entriesOf (sep : Char) (value : Option String) : Option (List String) :=
  value.map fun text => (Text.split (· == sep) text).eraseDups

/-- Two values that differ by repeated later entries at most. -/
def SameValue (sep : Char) (a b : Option String) : Prop := entriesOf sep a = entriesOf sep b

/-- The report gives every variable the value it is launched with. -/
def Agrees (machine : Machine) (m : MaterializedFormation) : Prop :=
  ∀ key, SameValue (listSeparator machine.os)
    (((replay machine.os (roots machine.host machine.input) m.resolved.environment).resolveOver
      []).lookup key)
    ((m.env.resolveOver []).lookup key)

/-! ## The condition -/

/-- An activated path is written as its root with what it adds to it: no dot before that and no
separator after it. -/
def Written (os : Os) (root path : String) : Prop :=
  ∀ relative, Path.stripPrefix os root path = some relative →
    slashed path = underRoot os root (below relative)

structure Faithful (os : Os) (input : ResolutionInput) : Prop where
  /-- The Python package is where the report says. -/
  python : input.runtimeLayout.usdPythonDir = "lib/python"
  written : ∀ component ∈ input.components, ∀ group ∈ component.groups os, ∀ path ∈ group.2,
    Written os component.root path

/-- Canonical paths are absolute, so no root is empty. -/
structure Canonical (machine : Machine) : Prop where
  runtime : machine.input.runtimeRoot ≠ ""
  components : ∀ component ∈ machine.input.components, component.root ≠ ""
  host : ∀ host ∈ machine.host, host.root ≠ ""

/-! ## Placing -/

section Place

variable {os : Os} {declared : FormationManifest} {host : Option HostRecord}
  {input : ResolutionInput}

theorem tailOf_eq_some {base path tail : String} :
    tailOf base path = some tail ↔ path = base ++ tail ∧ (tail = "" ∨ ∃ rest, tail = "/" ++ rest) := by
  rw [tailOf, Option.filter_eq_some_iff, Text.stripPrefix_eq_some, Bool.or_eq_true,
    Text.startsWith_iff]
  simp

theorem segments_prefix_of_tailOf {base path tail : String} (h : tailOf base path = some tail) :
    Text.segments base <+: Text.segments path := by
  obtain ⟨rfl, htail⟩ := tailOf_eq_some.mp h
  refine Text.segments_prefix_iff.mpr (htail.imp (fun h => by rw [h, String.append_empty]) ?_)
  rintro ⟨rest, rfl⟩
  exact ⟨rest, by rw [String.append_assoc]⟩

theorem slash_notMem_id {id : String} (h : isId id) : '/' ∉ id.toList := by
  intro hmem
  have hall := List.all_eq_true.mp ((Bool.and_eq_true _ _).mp h).2 '/' hmem
  exact absurd hall (by decide)

/-- The segments of a base: one for the runtime and the host, two for a component. -/
theorem segments_base {base : String} (hvalid : declared.Valid) (h : base ∈ bases declared) :
    Text.segments base = ["runtime"] ∨ Text.segments base = ["host"] ∨
      ∃ id, Text.segments base = ["components", id] := by
  rcases List.mem_cons.mp h with rfl | h
  · exact .inl rfl
  rcases List.mem_cons.mp h with rfl | h
  · exact .inr (.inl rfl)
  obtain ⟨component, hcomponent, rfl⟩ := List.mem_map.mp h
  refine .inr (.inr ⟨component.id, ?_⟩)
  have hid := Text.segments_of_slash_not_mem (slash_notMem_id (hvalid.ids _ hcomponent))
  have hfirst : Text.segments "components" = ["components"] := rfl
  calc Text.segments ("components/" ++ component.id)
      = Text.segments ("components" ++ "/" ++ component.id) := rfl
    _ = ["components", component.id] := by
        rw [Text.segments_append_slash, hfirst, hid]
        rfl

theorem base_eq_of_isPrefix {base base' : String} (hvalid : declared.Valid)
    (h : base ∈ bases declared) (h' : base' ∈ bases declared)
    (hleads : Text.segments base <+: Text.segments base') : base = base' := by
  apply Text.segments_injective
  rcases segments_base hvalid h with heq | heq | ⟨id, heq⟩ <;>
    rcases segments_base hvalid h' with heq' | heq' | ⟨id', heq'⟩ <;>
    rw [heq, heq'] at hleads ⊢ <;> simp_all

/-- Only one base has a tail in a path. -/
theorem base_unique {base base' path tail tail' : String} (hvalid : declared.Valid)
    (h : base ∈ bases declared) (h' : base' ∈ bases declared)
    (htail : tailOf base path = some tail) (htail' : tailOf base' path = some tail') :
    base = base' := by
  have hp := segments_prefix_of_tailOf htail
  have hp' := segments_prefix_of_tailOf htail'
  rcases List.prefix_or_prefix_of_prefix hp hp' with hleads | hleads
  · exact base_eq_of_isPrefix hvalid h h' hleads
  · exact (base_eq_of_isPrefix hvalid h' h hleads).symm

theorem keys_roots (hdeclared : input.components.map ComponentInput.declared = declared.components) :
    ∀ entry ∈ roots host input, entry.1 ∈ bases declared := by
  intro entry hentry
  rcases List.mem_append.mp hentry with hentry | hentry
  · rcases List.mem_cons.mp hentry with rfl | hentry
    · exact List.mem_cons_self
    · obtain ⟨component, hcomponent, rfl⟩ := List.mem_map.mp hentry
      have : component.declared ∈ declared.components :=
        hdeclared ▸ List.mem_map_of_mem hcomponent
      exact List.mem_cons_of_mem _ (List.mem_cons_of_mem _ (List.mem_map_of_mem this))
  · obtain ⟨host, -, rfl⟩ := List.mem_map.mp hentry
    exact List.mem_cons_of_mem _ List.mem_cons_self

theorem component_base_injective {a b : String} (h : "components/" ++ a = "components/" ++ b) :
    a = b := by
  rw [← String.toList_inj, String.toList_append, String.toList_append] at h
  exact String.toList_inj.mp (List.append_cancel_left h)

/-- Each base has one root. -/
theorem nodup_keys_roots (hvalid : declared.Valid)
    (hdeclared : input.components.map ComponentInput.declared = declared.components) :
    ((roots host input).map Prod.fst).Nodup := by
  have hids : (input.components.map fun component => component.declared.id) =
      declared.components.map ComponentRef.id := by
    rw [← hdeclared, List.map_map]
    rfl
  have hmiddle : (input.components.map fun component =>
      "components/" ++ component.declared.id).Nodup := by
    have := hvalid.distinct
    rw [← hids] at this
    have hmap := this.map fun a b => component_base_injective
    rwa [List.map_map] at hmap
  have hne : ∀ (name : String), "components/".toList.head? ≠ name.toList.head? →
      ∀ component ∈ input.components, "components/" ++ component.declared.id ≠ name := by
    rintro name hhead component - rfl
    exact hhead (by simp)
  rw [roots, List.map_append, List.map_cons, List.map_map, List.map_map, List.cons_append,
    List.nodup_cons, List.nodup_append]
  refine ⟨?_, hmiddle, ?_, ?_⟩
  · rw [List.mem_append, not_or]
    constructor
    · intro hmem
      obtain ⟨component, hcomponent, heq⟩ := List.mem_map.mp hmem
      exact hne "runtime" (by decide) component hcomponent heq
    · intro hmem
      obtain ⟨host, -, heq⟩ := List.mem_map.mp hmem
      have : "host" = "runtime" := heq
      exact absurd this (by decide)
  · cases host with
    | none => exact List.nodup_nil
    | some host => exact List.nodup_singleton _
  · intro a ha b hb heq
    obtain ⟨component, hcomponent, rfl⟩ := List.mem_map.mp ha
    obtain ⟨host, -, rfl⟩ := List.mem_map.mp hb
    exact hne "host" (by decide) component hcomponent heq

/-- A portable path is placed under the root of its base. -/
theorem place_eq (hvalid : declared.Valid)
    (hdeclared : input.components.map ComponentInput.declared = declared.components)
    {base root tail : String} (hmem : (base, root) ∈ roots host input)
    (htail : tail = "" ∨ ∃ rest, tail = "/" ++ rest) :
    place os (roots host input) (base ++ tail) = underRoot os root tail := by
  have hself : tailOf base (base ++ tail) = some tail := tailOf_eq_some.mpr ⟨rfl, htail⟩
  have hkeys : ∀ entry ∈ roots host input, entry.1 ∈ bases declared := keys_roots hdeclared
  rw [place]
  cases hfind : (roots host input).findSome? fun entry =>
      (tailOf entry.1 (base ++ tail)).map (underRoot os entry.2) with
  | none =>
    have := List.findSome?_eq_none_iff.mp hfind _ hmem
    simp [hself] at this
  | some placed =>
    obtain ⟨⟨base', root'⟩, hmem', hplaced⟩ := List.exists_of_findSome?_eq_some hfind
    obtain ⟨tail', htail', rfl⟩ := Option.map_eq_some_iff.mp hplaced
    obtain rfl := base_unique hvalid (hkeys _ hmem) (hkeys _ hmem') hself htail'
    obtain rfl : tail = tail' := Option.some.inj (hself.symm.trans htail')
    have hentry := List.inj_on_of_nodup_map (nodup_keys_roots hvalid hdeclared) hmem hmem' rfl
    rw [Option.getD_some, (Prod.mk.inj hentry).2]

end Place

/-! ## Search paths -/

section SearchPaths

variable {sep : Char} {key : String}

theorem split_join_entries {entries : List String} (h : entries ≠ []) :
    Text.split (· == sep) (Text.join sep.toString entries) =
      entries.flatMap (Text.split (· == sep)) := by
  induction entries with
  | nil => exact absurd rfl h
  | cons entry rest ih =>
    cases rest with
    | nil => simp [Text.join]
    | cons next rest =>
      have hsep : sep.toString.toList = [sep] := by simp [Char.toString]
      rw [Text.join, Text.split_append_char (p := (· == sep)) (beq_self_eq_true sep) hsep,
        ih (List.cons_ne_nil _ _), ← List.flatMap_cons]
      rintro ⟨⟩

/-- Search paths that differ by repeated entries give values that do. -/
theorem sameValue_of_same {entries entries' : List String} (h : Same entries entries') :
    SameValue sep (pathValue sep entries) (pathValue sep entries') := by
  have hnil : entries = [] ↔ entries' = [] := by
    rw [List.eq_nil_iff_forall_not_mem, List.eq_nil_iff_forall_not_mem]
    exact forall_congr' fun entry => not_congr h.mem_iff
  rw [SameValue, pathValue, pathValue]
  by_cases hempty : entries = []
  · rw [if_pos hempty, if_pos (hnil.mp hempty)]
  · rw [if_neg hempty, if_neg (mt hnil.mpr hempty), entriesOf, entriesOf, Option.map_some,
      Option.map_some, split_join_entries hempty, split_join_entries (mt hnil.mpr hempty)]
    exact congrArg some (h.flatMap _)

theorem same_searchStep {entries entries' : List String} (h : Same entries entries') (v : EnvVar) :
    Same (searchStep key entries v) (searchStep key entries' v) := by
  unfold searchStep
  split
  · cases v.op with
    | set value => exact Same.refl _
    | prepend value => exact (Same.refl [value]).append h
  · exact h

theorem same_foldl_searchStep {vars : List EnvVar} :
    ∀ {entries entries' : List String}, Same entries entries' →
      Same (vars.foldl (searchStep key) entries)
        (vars.foldl (searchStep key) entries') := by
  induction vars with
  | nil => exact fun h => h
  | cons v vars ih => exact fun h => ih (same_searchStep h v)

/-- Paths that are prepended from the last stand in front in their order. -/
theorem foldl_searchStep_prepend {k : String} (f : String → String) (paths : List String) :
    ∀ entries : List String,
      (paths.reverse.map fun path => (⟨k, .prepend (f path)⟩ : EnvVar)).foldl
        (searchStep key) entries = (if k = key then paths.map f else []) ++ entries := by
  induction paths with
  | nil => exact fun entries => by simp
  | cons path rest ih =>
    intro entries
    rw [List.reverse_cons, List.map_append, List.foldl_append, ih]
    by_cases h : k = key
    · simp [searchStep, h]
    · simp [searchStep, h]

end SearchPaths

/-! ## Following changes -/

/-- The value of a change is a path under one of the roots. -/
def Placed (os : Os) (roots : List (String × String)) (v : EnvVar) : Prop :=
  ∃ entry ∈ roots, ∃ tail, v.op.value = underRoot os entry.2 tail

/-- Changes that come to the same as others, up to repeated entries. -/
structure Follows (os : Os) (roots : List (String × String)) (vars vars' : List EnvVar) :
    Prop where
  same : ∀ (key : String) {entries entries' : List String}, Same entries entries' →
    Same (vars.foldl (searchStep key) entries) (vars'.foldl (searchStep key) entries')
  placed : ∀ v ∈ vars, Placed os roots v
  placed' : ∀ v ∈ vars', Placed os roots v

namespace Follows

variable {os : Os} {rs : List (String × String)} {vars vars' more more' : List EnvVar}

theorem refl (h : ∀ v ∈ vars, Placed os rs v) : Follows os rs vars vars :=
  ⟨fun _ _ _ hsame => same_foldl_searchStep hsame, h, h⟩

theorem append (h : Follows os rs vars vars') (hmore : Follows os rs more more') :
    Follows os rs (vars ++ more) (vars' ++ more') where
  same key _ _ hsame := by
    rw [List.foldl_append, List.foldl_append]
    exact hmore.same key (h.same key hsame)
  placed v hv := (List.mem_append.mp hv).elim (h.placed v) (hmore.placed v)
  placed' v hv := (List.mem_append.mp hv).elim (h.placed' v) (hmore.placed' v)

theorem flatMap {ι : Type} {f g : ι → List EnvVar} {l : List ι}
    (h : ∀ i ∈ l, Follows os rs (f i) (g i)) : Follows os rs (l.flatMap f) (l.flatMap g) := by
  induction l with
  | nil => exact refl nofun
  | cons i l ih =>
    obtain ⟨hi, hl⟩ := List.forall_mem_cons.mp h
    rw [List.flatMap_cons, List.flatMap_cons]
    exact hi.append (ih hl)

end Follows

/-! ## Parts of the environment -/

section Parts

variable {codec : Codec} {os : Os} {declared : FormationManifest} {host : Option HostRecord}
  {input : ResolutionInput} {component : ComponentInput}

theorem slashed_slashed (path : String) : slashed (slashed path) = slashed path := by
  rw [← String.toList_inj]
  simp only [Path.toList_slashed, List.map_map]
  refine List.map_congr_left fun c _ => ?_
  by_cases h : c = '\\' <;> simp [h]

theorem slashed_join_slashed (root relative : String) :
    slashed (Path.join os root (slashed relative)) = slashed (Path.join os root relative) := by
  unfold Path.join
  split <;> simp only [Path.slashed_append, slashed_slashed]

theorem underRoot_slash (root rest : String) :
    underRoot os root ("/" ++ rest) = slashed (Path.join os root rest) := by
  have hne : "/" ++ rest ≠ "" := by simp
  have hdrop : String.ofList (("/" ++ rest).toList.drop 1) = rest := by
    rw [← String.toList_inj]
    simp
  rw [underRoot, if_neg hne, hdrop]

/-- The runtime's part of the report stands for the runtime's changes. -/
theorem replayed_runtime (hvalid : declared.Valid)
    (hdeclared : input.components.map ComponentInput.declared = declared.components)
    (hpython : input.runtimeLayout.usdPythonDir = "lib/python") :
    (portableRuntimeEnvironment os).flatMap (replayed os (roots host input)) =
      (runtimeEnv os input).vars := by
  have hmem : ("runtime", input.runtimeRoot) ∈ roots host input :=
    List.mem_append_left _ List.mem_cons_self
  have hslash : ∀ path rest, path = "runtime" ++ ("/" ++ rest) →
      place os (roots host input) path = slashed (Path.join os input.runtimeRoot rest) := by
    rintro path rest rfl
    rw [place_eq hvalid hdeclared hmem (.inr ⟨rest, rfl⟩), underRoot_slash]
  have hroot : place os (roots host input) "runtime" = slashed input.runtimeRoot := by
    have hempty : place os (roots host input) ("runtime" ++ "") =
        underRoot os input.runtimeRoot "" := place_eq hvalid hdeclared hmem (.inl rfl)
    rwa [String.append_empty, underRoot, if_pos rfl] at hempty
  have hprepend : ("prepend" = "set") = False := by decide
  simp only [portableRuntimeEnvironment, contribution, List.flatMap_cons, List.flatMap_nil,
    replayed, hprepend, if_false, List.reverse_singleton, List.map_cons, List.map_nil,
    List.cons_append, List.nil_append, hroot, hslash "runtime/bin" "bin" (by decide),
    hslash "runtime/lib" "lib" (by decide), hslash "runtime/lib/python" "lib/python" (by decide),
    hslash "runtime/plugin/usd" "plugin/usd" (by decide), runtimeEnv, EnvSet.forUsdInstall,
    hpython]

theorem placed_runtime : ∀ v ∈ (runtimeEnv os input).vars, Placed os (roots host input) v := by
  intro v hv
  refine ⟨("runtime", input.runtimeRoot), List.mem_append_left _ List.mem_cons_self, ?_⟩
  simp only [runtimeEnv, EnvSet.forUsdInstall, List.mem_cons, List.not_mem_nil, or_false] at hv
  rcases hv with rfl | rfl | rfl | rfl | rfl
  · exact ⟨_, (underRoot_slash _ "bin").symm⟩
  · exact ⟨_, (underRoot_slash _ "lib").symm⟩
  · exact ⟨_, (underRoot_slash _ input.runtimeLayout.usdPythonDir).symm⟩
  · exact ⟨"", (if_pos rfl).symm⟩
  · exact ⟨_, (underRoot_slash _ "plugin/usd").symm⟩

/-- The directories of a host are their portable texts, placed. -/
theorem directories_eq {record : HostRecord} (place : String → String)
    (hplace : ∀ rest, place ("host/" ++ rest) = slashed (Path.join os record.root rest)) :
    (record.directories os).toList.map Prod.snd =
      ((record.directories os).toList.map Prod.fst).map place := by
  have hfold : ∀ (executables : List (String × String)) (known : ExtTreeMap String String),
      (∀ (key path : String), known[key]? = some path → path = place key) →
        ∀ key path, (executables.foldl (fun directories executable =>
          directories.insert ("host/" ++ slashed (HostRecord.directory executable.2))
            (slashed (Path.join os record.root (HostRecord.directory executable.2))))
          known)[key]? = some path → path = place key := by
    intro executables
    induction executables with
    | nil => exact fun _ hknown => hknown
    | cons executable rest ih =>
      intro known hknown
      refine ih _ fun key path hkey => ?_
      rw [ExtTreeMap.getElem?_insert] at hkey
      split at hkey
      · rename_i heq
        obtain rfl := compare_eq_iff_eq.mp heq
        rw [hplace, slashed_join_slashed]
        exact (Option.some.inj hkey).symm
      · exact hknown key path hkey
  rw [List.map_map]
  refine List.map_congr_left fun entry hentry => ?_
  refine hfold record.executables ∅ (fun key path hkey => ?_) entry.1 entry.2
    (ExtTreeMap.mem_toList_iff_getElem?_eq_some.mp hentry)
  simp at hkey

/-- A host's part of the report stands for the host's changes. -/
theorem replayed_host {record : HostRecord} (hvalid : declared.Valid)
    (hdeclared : input.components.map ComponentInput.declared = declared.components) :
    (record.environment os).flatMap (replayed os (roots (some record) input)) =
      record.vars os := by
  have hmem : ("host", record.root) ∈ roots (some record) input :=
    List.mem_append_right _ (List.mem_singleton_self _)
  have hplace : ∀ rest, place os (roots (some record) input) ("host/" ++ rest) =
      slashed (Path.join os record.root rest) := by
    intro rest
    have hsplit : "host/" ++ rest = "host" ++ ("/" ++ rest) := by
      rw [← String.append_assoc]
      rfl
    rw [hsplit, place_eq hvalid hdeclared hmem (.inr ⟨rest, rfl⟩), underRoot_slash]
  have hroot : place os (roots (some record) input) "host" = slashed record.root := by
    have hempty : place os (roots (some record) input) ("host" ++ "") =
        underRoot os record.root "" := place_eq hvalid hdeclared hmem (.inl rfl)
    rwa [String.append_empty, underRoot, if_pos rfl] at hempty
  have hprepend : ("prepend" = "set") = False := by decide
  simp only [HostRecord.environment, List.flatMap_cons, List.flatMap_nil, replayed, hprepend,
    if_false, if_true, List.map_cons, List.map_nil, List.append_nil, hroot, HostRecord.vars,
    directories_eq _ hplace, List.map_reverse, List.map_map]
  rfl

theorem value_of_host {record : HostRecord} {v : EnvVar} (hv : v ∈ record.vars os) :
    ∃ tail, v.op.value = underRoot os record.root tail := by
  rcases List.mem_append.mp hv with hv | hv
  · obtain ⟨path, hpath, rfl⟩ := List.mem_map.mp hv
    have hvalues := @directories_eq os record
      (fun key => slashed (Path.join os record.root ((Text.stripPrefix "host/" key).getD "")))
      fun rest => by rw [Text.stripPrefix_append, Option.getD_some]
    rw [List.mem_reverse, hvalues] at hpath
    obtain ⟨key, hkey, rfl⟩ := List.mem_map.mp hpath
    obtain ⟨rest, rfl⟩ := mem_directories hkey
    refine ⟨"/" ++ rest, ?_⟩
    rw [underRoot_slash, Text.stripPrefix_append]
    rfl
  · obtain rfl := List.mem_singleton.mp hv
    exact ⟨"", (if_pos rfl).symm⟩

theorem placed_host {record : HostRecord} :
    ∀ v ∈ record.vars os, Placed os (roots (some record) input) v := fun _ hv =>
  ⟨("host", record.root), List.mem_append_right _ (List.mem_singleton_self _), value_of_host hv⟩

/-- Paths that are written out are their relative parts, placed. -/
theorem map_slashed {root : String} {paths : List String}
    (hcontained : ∀ path ∈ paths, ∃ relative, Path.stripPrefix os root path = some relative)
    (hwritten : ∀ path ∈ paths, Written os root path) :
    paths.map slashed = (paths.filterMap (Path.stripPrefix os root)).map
      fun relative => underRoot os root (below relative) := by
  induction paths with
  | nil => rfl
  | cons path rest ih =>
    obtain ⟨⟨relative, hrelative⟩, hcontained⟩ := List.forall_mem_cons.mp hcontained
    obtain ⟨hpath, hwritten⟩ := List.forall_mem_cons.mp hwritten
    rw [List.filterMap_cons_some hrelative, List.map_cons, List.map_cons, hpath _ hrelative,
      ih hcontained hwritten]

/-- A component's part of the report comes to the component's changes when its activated paths
are written out. -/
theorem follows_component (hvalid : declared.Valid)
    (hdeclared : input.components.map ComponentInput.declared = declared.components)
    (hmem : component ∈ input.components) (hcontained : component.Contained os)
    (hwritten : ∀ group ∈ component.groups os, ∀ path ∈ group.2, Written os component.root path) :
    Follows os (roots host input)
      ((component.contributions os).flatMap (replayed os (roots host input)))
      (component.vars os) := by
  have hroot : ("components/" ++ component.declared.id, component.root) ∈ roots host input :=
    List.mem_append_left _ (List.mem_cons_of_mem _ (List.mem_map.mpr ⟨component, hmem, rfl⟩))
  have hid : isId component.declared.id := hvalid.ids _ (hdeclared ▸ List.mem_map_of_mem hmem)
  have hplace : ∀ relative, place os (roots host input)
      (renderedPath component.declared.id relative) = underRoot os component.root (below relative) := by
    intro relative
    rw [renderedPath_eq hid, place_eq hvalid hdeclared hroot (below_eq relative)]
  rw [ComponentInput.contributions, ComponentInput.portableGroups, List.map_map,
    List.flatMap_map, ComponentInput.vars]
  refine Follows.flatMap fun group hgroup => ?_
  -- the report of a group: its paths from the last, each once
  have hreplayed : replayed os (roots host input) (contribution group.1 component.declared.id
        (portablePaths os component.declared.id component.root group.2)) =
      (portablePaths os component.declared.id component.root group.2).reverse.map fun path =>
        ⟨group.1, .prepend (place os (roots host input) path)⟩ :=
    if_neg (show ¬ "prepend" = "set" by decide)
  have hpaths := map_slashed (hcontained group hgroup) (hwritten group hgroup)
  have hportable : Same ((portablePaths os component.declared.id component.root group.2).map
      (place os (roots host input))) (group.2.map slashed) := by
    refine (SearchPath.same_map _ _).symm.trans (.of_eq ?_)
    rw [hpaths, List.map_map]
    exact List.map_congr_left fun relative _ => hplace relative
  show Follows os _ (replayed os (roots host input) (contribution group.1 component.declared.id
    (portablePaths os component.declared.id component.root group.2))) (groupVars group.1 group.2)
  rw [hreplayed]
  refine ⟨fun key entries entries' hsame => ?_, fun v hv => ?_, fun v hv => ?_⟩
  · rw [groupVars, foldl_searchStep_prepend, foldl_searchStep_prepend]
    split
    · exact hportable.append hsame
    · exact hsame
  · obtain ⟨path, hpath, rfl⟩ := List.mem_map.mp hv
    obtain ⟨relative, -, rfl⟩ := List.mem_map.mp (List.mem_eraseDups.mp (List.mem_reverse.mp hpath))
    exact ⟨_, hroot, _, hplace relative⟩
  · obtain ⟨path, hpath, rfl⟩ := List.mem_map.mp hv
    have hmem' : path ∈ group.2 := List.mem_reverse.mp hpath
    obtain ⟨relative, hrelative⟩ := hcontained group hgroup path hmem'
    exact ⟨_, hroot, _, hwritten group hgroup path hmem' relative hrelative⟩

end Parts

/-! ## The whole environment -/

section Whole

variable {codec : Codec} {declared : FormationManifest} {machine : Machine}
  {m : MaterializedFormation}

theorem env_of_host (m₀ : MaterializedFormation) :
    (machine.host.elim m₀ (appendHostEnvironment machine.os m₀)).env =
      { m₀.env with vars := m₀.env.vars ++
          machine.host.elim [] fun host => host.vars machine.os } := by
  cases machine.host with
  | none => simp
  | some host => rfl

theorem environment_of_record (m₀ : MaterializedFormation) :
    (machine.host.elim m₀ (appendHostEnvironment machine.os m₀)).resolved.environment =
      m₀.resolved.environment ++
        machine.host.elim [] fun host => host.environment machine.os := by
  cases machine.host with
  | none => simp
  | some host => rfl

/-- The report follows the launched changes. -/
theorem follows_of_faithful (h : machine.resolve codec declared = .ok m)
    (hfaithful : Faithful machine.os machine.input) :
    Follows machine.os (roots machine.host machine.input)
      (m.resolved.environment.flatMap (replayed machine.os (roots machine.host machine.input)))
      m.env.vars := by
  obtain ⟨m₀, hresolve, rfl⟩ := resolve_of_resolveWithHost h
  obtain ⟨rfl, hvalid, hdeclared, hcontained⟩ := resolve_ok hresolve
  rw [env_of_host, environment_of_record, composed, List.flatMap_append, List.flatMap_append,
    replayed_runtime hvalid hdeclared hfaithful.python]
  refine (Follows.append (.refl placed_runtime) ?_).append ?_
  · rw [List.flatMap_assoc]
    exact Follows.flatMap fun component hmem => follows_component hvalid hdeclared hmem
      (hcontained component hmem) (hfaithful.written component hmem)
  · cases machine.host with
    | none => exact .refl fun _ h => by cases h
    | some record =>
      rw [Option.elim_some, Option.elim_some, replayed_host hvalid hdeclared]
      exact .refl placed_host

theorem slashed_ne_empty {path : String} (h : path ≠ "") : slashed path ≠ "" := by
  rw [Ne, ← String.toList_inj] at h ⊢
  simpa [slashed, Text.replaceChar] using h

theorem underRoot_ne_empty {os : Os} {root tail : String} (h : root ≠ "") :
    underRoot os root tail ≠ "" := by
  rw [underRoot]
  split
  · exact slashed_ne_empty h
  · refine slashed_ne_empty ?_
    unfold Path.join
    split <;> simp [h]

theorem value_ne_empty (hcanonical : Canonical machine) {v : EnvVar}
    (h : Placed machine.os (roots machine.host machine.input) v) : v.op.value ≠ "" := by
  obtain ⟨entry, hentry, tail, htail⟩ := h
  rw [htail]
  apply underRoot_ne_empty
  rcases List.mem_append.mp hentry with hentry | hentry
  · rcases List.mem_cons.mp hentry with rfl | hentry
    · exact hcanonical.runtime
    · obtain ⟨component, hcomponent, rfl⟩ := List.mem_map.mp hentry
      exact hcanonical.components component hcomponent
  · obtain ⟨host, hhost, rfl⟩ := List.mem_map.mp hentry
    exact hcanonical.host host (Option.mem_toList.mp hhost)

theorem sep_of_resolve (h : machine.resolve codec declared = .ok m) :
    m.env.sep = listSeparator machine.os := by
  obtain ⟨m₀, hresolve, rfl⟩ := resolve_of_resolveWithHost h
  obtain ⟨rfl, -⟩ := resolve_ok hresolve
  rw [env_of_host]
  rfl

/-- The replayed report gives every variable the value it is launched with. -/
theorem agrees_of_faithful (h : machine.resolve codec declared = .ok m)
    (hcanonical : Canonical machine) (hfaithful : Faithful machine.os machine.input) :
    Agrees machine m := by
  intro key
  have hfollows := follows_of_faithful h hfaithful
  rw [EnvSet.lookup_resolveOver _ (fun v hv => value_ne_empty hcanonical (hfollows.placed v hv)),
    EnvSet.lookup_resolveOver _ (fun v hv => value_ne_empty hcanonical (hfollows.placed' v hv)),
    sep_of_resolve h]
  exact sameValue_of_same (hfollows.same key (Same.refl []))

end Whole

end OpenStrata.Formation
