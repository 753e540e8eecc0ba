import OpenStrata.Product.Contract

/-!
# The activation of a product

An installed product has one activation: the search paths of its members, each below the place
where its member is installed. The archive of a bundle may hold copies of the bundles that it
depends on, and those may hold copies in turn. Paths into a copy of a bundle that the product
has as a member are left out, where the consumer records the dependency.

A search path registers the bundle that it ends in. What is asked for is that every bundle is
registered, and that no bundle is registered from two copies of it.

## Main definitions

* `productActivation`: the activation of an installed product
* `embeddings`: the bundles that a path goes through, one inside the other
* `RegisteredOnce`: every bundle is registered, from one copy

## Main results

* `mem_pluginPaths`: the plug-in search paths of an activation
* `registeredOnce_iff`: when each bundle is registered once
-/

namespace OpenStrata.Product

/-! ## Member activations -/

structure ProductMemberActivation where
  schema : String
  targetOs : String
  root : String
  environment : Json
  pluginPaths : List String
  libraryPaths : List String
  pythonPaths : List String
  entrypoints : Json
  pythonDllSearch : Json

def ProductMemberActivation.fromJson (value : Json) : Option ProductMemberActivation := do
  let fs ← Serde.fields ["schema", "target_os", "root", "environment", "plugin_paths",
    "library_paths", "python_paths", "entrypoints", "python_dll_search"] value
  return {
    schema := ← Serde.required fs "schema" Serde.string
    targetOs := ← Serde.required fs "target_os" Serde.string
    root := ← Serde.required fs "root" Serde.string
    environment := ← Serde.required fs "environment" Serde.any
    pluginPaths := ← Serde.required fs "plugin_paths" (Serde.list Serde.string)
    libraryPaths := ← Serde.required fs "library_paths" (Serde.list Serde.string)
    pythonPaths := ← Serde.required fs "python_paths" (Serde.list Serde.string)
    entrypoints := ← Serde.required fs "entrypoints" Serde.any
    pythonDllSearch := ← Serde.required fs "python_dll_search" Serde.any }

/-- The activation of an installed bundle; `read` gives the parsed file of a member. -/
def memberActivation (read : PluginProductMember → Result Json) (member : PluginProductMember) :
    Result ProductMemberActivation := do
  let value ← read member
  let activation ← Result.okOr (.parse (member.destination ++ "/openstrata.activation.json"))
    (ProductMemberActivation.fromJson value)
  Result.failIf (activation.schema ≠ "openstrata.activation/v1alpha1" ∨ activation.root ≠ ".")
    (.validation ("product member '" ++ member.id ++ "' has unsupported activation contract"))
  return activation

def parseProductOs (value : String) : Result Os :=
  if value = "linux" then .ok .linux
  else if value = "macos" then .ok .macos
  else if value = "windows" then .ok .windows
  else .error (.validation ("unsupported product activation target_os '" ++ value ++ "'"))

/-! ## The activation of the product -/

/-- A member's paths below its destination, none twice. -/
def extendProductActivationPaths (field destination : String) : List String → List String →
    Result (List String)
  | output, [] => .ok output
  | output, relative :: rest => do
    let relative ← safeProductJoin relative field
    let aggregate := destination ++ "/" ++ relative
    extendProductActivationPaths field destination
      (if aggregate ∈ output then output else output ++ [aggregate]) rest

structure ProductActivation where
  targetOs : Option Os
  pluginPaths : List String
  libraryPaths : List String
  pythonPaths : List String
  deriving DecidableEq, Repr

def ProductActivation.empty : ProductActivation := ⟨none, [], [], []⟩

/-- One member, with the members that it embeds. -/
def activateMember (read : PluginProductMember → Result Json) (s : ProductActivation)
    (member : PluginProductMember) (internal : List String) : Result ProductActivation :=
  if member.isTool then do
    -- a tool is not registered, only its libraries are found
    let library ← extendProductActivationPaths "tool loader path" member.destination
      s.libraryPaths member.paths
    return { s with libraryPaths := library }
  else do
    let activation ← memberActivation read member
    let os ← parseProductOs activation.targetOs
    Result.failIf (s.targetOs.any (· ≠ os))
      (.validation "plugin product members target different operating systems")
    let extend := extendProductActivationPaths "member activation path" member.destination
    return {
      targetOs := some os
      pluginPaths := ←
        extend s.pluginPaths (withoutInternalBundlePaths activation.pluginPaths internal)
      libraryPaths := ←
        extend s.libraryPaths (withoutInternalBundlePaths activation.libraryPaths internal)
      pythonPaths := ←
        extend s.pythonPaths (withoutInternalBundlePaths activation.pythonPaths internal) }

def activateMembers (read : PluginProductMember → Result Json) : ProductActivation →
    List (PluginProductMember × List String) → Result ProductActivation
  | s, [] => .ok s
  | s, (member, internal) :: rest => do
    let s ← activateMember read s member internal
    activateMembers read s rest

/-- The system of a product: that of its bundles, or the recorded one where it has only tools. -/
def activationOs (contract : PluginProductContract) : Option Os → Result Os
  | some os => .ok os
  | none => (contract.install.os.elim
      (.error (.validation "cannot write activation for an empty plugin product"))) parseProductOs

/-- The activation that is written for an installed product. -/
def productActivation (load : PluginProductMember → Result BundleIdentity)
    (read : PluginProductMember → Result Json) (contract : PluginProductContract) :
    Result ProductActivation := do
  let internal ← internalProductBundleDependencies contract load
  let s ← activateMembers read .empty (contract.members.zip internal)
  let os ← activationOs contract s.targetOs
  return { s with targetOs := some os }

/-! ## Registration -/

/-- The bundles that the segments of a path go through, one inside the other. -/
def embeddings : List String → List String
  | a :: b :: id :: rest =>
    if a = "runtime" ∧ b = "bundles" then id :: embeddings rest else []
  | _ => []

/-- A search path of a member, relative to its root. -/
structure Registration where
  member : PluginProductMember
  relative : String

namespace Registration

def path (r : Registration) : String := r.member.destination ++ "/" ++ r.relative

def chain (r : Registration) : List String := embeddings (Text.segments r.relative)

/-- The copy that the path goes into: the embeddings from a member's root. -/
def copy (r : Registration) : String × List String := (r.member.id, r.chain)

/-- The bundle that the path registers. -/
def bundle (r : Registration) : String := r.chain.getLastD r.member.id

end Registration

section Registered

variable (read : PluginProductMember → Result Json) (contract : PluginProductContract)

/-- A plug-in search path that the activation of an installed bundle lists. -/
def Listed (r : Registration) : Prop :=
  r.member ∈ contract.members ∧ ¬ r.member.isTool ∧
    ∃ activation, memberActivation read r.member = .ok activation ∧
      r.relative ∈ activation.pluginPaths

/-- A bundle that the product has as a member. -/
def IsMember (id : String) : Prop := ∃ member ∈ contract.members, ¬ member.isTool ∧ member.id = id

/-- Every bundle of the members is registered: the members themselves by each of their own paths,
the others that they embed by some path. No bundle is registered from two copies of it. -/
structure RegisteredOnce (paths : List String) : Prop where
  own : ∀ r, Listed read contract r → r.chain = [] → r.path ∈ paths
  embedded : ∀ r, Listed read contract r → r.chain ≠ [] → ¬ IsMember contract r.bundle →
    ∃ r', Listed read contract r' ∧ r'.bundle = r.bundle ∧ r'.path ∈ paths
  once : ∀ r r', Listed read contract r → Listed read contract r' → r.path ∈ paths →
    r'.path ∈ paths → r.bundle = r'.bundle → r.copy = r'.copy

/-- A member records that it depends on a bundle. -/
def Records (member : PluginProductMember) (id : String) : Prop :=
  ∃ dependencies, (member.dependencies.get? "bundles").bind Json.asArr? = some dependencies ∧
    ∃ dependency ∈ dependencies, dependency.getStr? "id" = some id

/-- A path into a copy of a member that its own member records as a dependency. -/
def Dropped (r : Registration) : Prop :=
  ∃ id, r.chain.head? = some id ∧ Records r.member id ∧ IsMember contract id

/-- The copies that are kept are of different bundles, none of a member that has paths of its own;
and what is only found inside a dropped copy is a member. -/
structure Separate : Prop where
  members : ∀ r r', Listed read contract r → Listed read contract r' → r.chain ≠ [] →
    ¬ Dropped contract r → r'.chain = [] → r.bundle ≠ r'.member.id
  others : ∀ r r', Listed read contract r → Listed read contract r' → r.chain ≠ [] →
    r'.chain ≠ [] → ¬ Dropped contract r → ¬ Dropped contract r' → r.bundle = r'.bundle →
      r.copy = r'.copy
  inner : ∀ r, Listed read contract r → Dropped contract r → ¬ IsMember contract r.bundle →
    ∃ r', Listed read contract r' ∧ r'.bundle = r.bundle ∧ ¬ Dropped contract r'

end Registered

/-! ## Paths into copies -/

theorem embeddedId_eq (relative : String) :
    embeddedId relative = (embeddings (Text.segments relative)).head? := by
  have hroot : ∀ tail : String,
      Text.segments ("runtime/bundles/" ++ tail) = "runtime" :: "bundles" :: Text.segments tail := by
    intro tail
    have hsplit : "runtime/bundles/" ++ tail = "runtime" ++ "/" ++ ("bundles" ++ "/" ++ tail) := by
      rw [← String.append_assoc, ← String.append_assoc]
      rfl
    rw [hsplit, Text.segments_append_slash, Text.segments_append_slash]
    rfl
  unfold embeddedId
  cases hstrip : Text.stripPrefix "runtime/bundles/" relative with
  | some tail =>
    obtain rfl := Text.stripPrefix_eq_some.mp hstrip
    obtain ⟨id, rest, hsegments⟩ := List.exists_cons_of_ne_nil (Text.segments_ne_nil tail)
    rw [hroot, hsegments]
    simp [embeddings, hsegments]
  | none =>
    -- a path that goes into a copy would have that beginning
    cases hchain : Text.segments relative with
    | nil => exact absurd hchain (Text.segments_ne_nil relative)
    | cons a rest =>
      match rest, hchain with
      | [], _ | [_], _ => rfl
      | b :: id :: rest, hchain =>
        by_cases hembedded : a = "runtime" ∧ b = "bundles"
        · obtain ⟨rfl, rfl⟩ := hembedded
          have hpath : relative = "runtime/bundles/" ++ Text.join "/" (id :: rest) := by
            apply Text.segments_injective
            rw [hroot, hchain, Text.segments_join (List.cons_ne_nil _ _)]
            intro part hpart
            have hsegment : part ∈ Text.segments relative := by
              rw [hchain]
              exact List.mem_cons_of_mem _ (List.mem_cons_of_mem _ hpart)
            exact Text.slash_not_mem_segment hsegment
          rw [Text.stripPrefix_eq_some.mpr hpath] at hstrip
          cases hstrip
        · simp [embeddings, hembedded]

theorem mem_extendProductActivationPaths {field destination path : String}
    {relatives : List String} : ∀ {output output' : List String},
      extendProductActivationPaths field destination output relatives = .ok output' →
        (path ∈ output' ↔ path ∈ output ∨
          ∃ relative ∈ relatives, path = destination ++ "/" ++ relative) := by
  induction relatives with
  | nil =>
    intro output output' h
    obtain rfl := Except.ok.inj h
    simp
  | cons relative rest ih =>
    intro output output' h
    simp only [extendProductActivationPaths, Result.bind_ok, safeProductJoin_ok] at h
    obtain ⟨_, ⟨-, rfl⟩, hrest⟩ := h
    rw [ih hrest, List.exists_mem_cons_iff, ← or_assoc]
    refine or_congr_left ?_
    by_cases hknown : destination ++ "/" ++ relative ∈ output
    · rw [if_pos hknown]
      exact ⟨.inl, fun h => h.elim (fun h => h) fun h => h ▸ hknown⟩
    · rw [if_neg hknown, List.mem_append, List.mem_singleton]

theorem mem_withoutInternalBundlePaths {paths internal : List String} {relative : String} :
    relative ∈ withoutInternalBundlePaths paths internal ↔ relative ∈ paths ∧
      ∀ id, (embeddings (Text.segments relative)).head? = some id → id ∉ internal := by
  rw [withoutInternalBundlePaths, List.mem_filter, embeddedId_eq]
  refine and_congr_right fun _ => ?_
  cases (embeddings (Text.segments relative)).head? with
  | none => simp
  | some id => simp

/-! ## Internal copies -/

section Internal

variable {contract : PluginProductContract} {load : PluginProductMember → Result BundleIdentity}

theorem provider_isSome {id : String} : (provider contract id).isSome ↔ IsMember contract id := by
  simp only [provider, List.find?_isSome, List.mem_reverse, List.mem_filter, beq_iff_eq,
    Bool.not_eq_true', ← Bool.not_eq_true, IsMember, and_assoc]

theorem mem_internalDependencies {consumer : PluginProductMember} {id : String}
    {dependencies : List Json} : ∀ {seen internal : List String},
      internalDependencies contract load consumer seen dependencies = .ok internal →
        (id ∈ internal ↔ (∃ dependency ∈ dependencies, dependency.getStr? "id" = some id) ∧
          IsMember contract id) := by
  induction dependencies with
  | nil =>
    intro seen internal h
    obtain rfl := Except.ok.inj h
    simp
  | cons dependency rest ih =>
    intro seen internal h
    simp only [internalDependencies, Result.bind_ok, Result.okOr_ok] at h
    obtain ⟨first, hfirst, ⟨⟩, -, kept, hkept, others, hothers, heq⟩ := h
    obtain rfl := Except.ok.inj heq
    have hmem : id ∈ kept ↔ id = first ∧ IsMember contract id := by
      cases hprovider : provider contract first with
      | none =>
        rw [hprovider] at hkept
        obtain rfl := Except.ok.inj hkept
        have hnot : ¬ IsMember contract first := fun h => by
          rw [← provider_isSome, hprovider] at h
          cases h
        refine ⟨fun h => absurd h List.not_mem_nil, ?_⟩
        rintro ⟨rfl, h⟩
        exact absurd h hnot
      | some member =>
        rw [hprovider] at hkept
        simp only [Option.elim_some, Result.bind_ok] at hkept
        obtain ⟨bundle, -, ⟨⟩, -, heq⟩ := hkept
        obtain rfl := Except.ok.inj heq
        have hmember : IsMember contract first := provider_isSome.mp (by rw [hprovider]; rfl)
        rw [List.mem_singleton]
        refine ⟨?_, And.left⟩
        rintro rfl
        exact ⟨rfl, hmember⟩
    rw [List.mem_append, hmem, ih hothers, List.exists_mem_cons_iff, hfirst, Option.some.injEq,
      ← or_and_right, eq_comm]

/-- What counts as internal: a recorded dependency that is a member. -/
theorem mem_internalOfMember {member : PluginProductMember} {internal : List String} {id : String}
    (h : internalOfMember contract load member = .ok internal) (htool : ¬ member.isTool) :
    id ∈ internal ↔ Records member id ∧ IsMember contract id := by
  rw [internalOfMember, if_neg htool] at h
  unfold Records
  cases hbundles : member.dependencies.get? "bundles" with
  | none =>
    rw [hbundles] at h
    obtain rfl := Except.ok.inj h
    simp
  | some bundles =>
    rw [hbundles] at h
    simp only [Option.elim_some, Result.bind_ok, Result.okOr_ok] at h
    obtain ⟨dependencies, hdependencies, hinternal⟩ := h
    rw [mem_internalDependencies hinternal, Option.bind_some, hdependencies]
    simp

end Internal

/-! ## The paths of an activation -/

section Paths

variable {read : PluginProductMember → Result Json} {contract : PluginProductContract}
  {load : PluginProductMember → Result BundleIdentity} {out : ProductActivation}

/-- A step: a bundle adds those of its plug-in paths that stay, a tool adds none. -/
theorem mem_activateMember {s s' : ProductActivation} {member : PluginProductMember}
    {internal : List String} {path : String} (h : activateMember read s member internal = .ok s') :
    path ∈ s'.pluginPaths ↔ path ∈ s.pluginPaths ∨ ¬ member.isTool ∧
      ∃ activation, memberActivation read member = .ok activation ∧
        ∃ relative ∈ withoutInternalBundlePaths activation.pluginPaths internal,
          path = member.destination ++ "/" ++ relative := by
  by_cases htool : member.isTool
  · rw [activateMember, if_pos htool] at h
    obtain ⟨library, -, heq⟩ := Result.bind_ok.mp h
    obtain rfl := Except.ok.inj heq
    simp [htool]
  · rw [activateMember, if_neg htool] at h
    simp only [Result.bind_ok] at h
    obtain ⟨activation, hactivation, os, -, ⟨⟩, -, plugin, hplugin, library, -, python, -, heq⟩ := h
    obtain rfl := Except.ok.inj heq
    rw [and_iff_right htool]
    simp only [hactivation, Except.ok.injEq, exists_eq_left']
    exact mem_extendProductActivationPaths hplugin

/-- A run over the members. -/
theorem mem_activateMembers {path : String} {members : List (PluginProductMember × List String)} :
    ∀ {s s' : ProductActivation}, activateMembers read s members = .ok s' →
      (path ∈ s'.pluginPaths ↔ path ∈ s.pluginPaths ∨ ∃ entry ∈ members, ¬ entry.1.isTool ∧
        ∃ activation, memberActivation read entry.1 = .ok activation ∧
          ∃ relative ∈ withoutInternalBundlePaths activation.pluginPaths entry.2,
            path = entry.1.destination ++ "/" ++ relative) := by
  induction members with
  | nil =>
    intro s s' h
    obtain rfl := Except.ok.inj h
    simp
  | cons entry rest ih =>
    intro s s' h
    obtain ⟨s₁, hstep, hrest⟩ := Result.bind_ok.mp h
    rw [ih hrest, mem_activateMember hstep, List.exists_mem_cons_iff, or_assoc]

/-- The plug-in search paths of an activation: those that members list and that do not go into a
copy of a recorded member. -/
theorem mem_pluginPaths (h : productActivation load read contract = .ok out) {path : String} :
    path ∈ out.pluginPaths ↔
      ∃ r, Listed read contract r ∧ ¬ Dropped contract r ∧ r.path = path := by
  simp only [productActivation, Result.bind_ok] at h
  obtain ⟨internal, hinternal, s, hmembers, os, -, heq⟩ := h
  obtain rfl := Except.ok.inj heq
  obtain ⟨hentries, hall⟩ := Result.zip_mapM hinternal
  have hnil : path ∉ ProductActivation.empty.pluginPaths := List.not_mem_nil
  show path ∈ s.pluginPaths ↔ _
  rw [mem_activateMembers hmembers, or_iff_right hnil]
  have hkept : ∀ (r : Registration) (ids : List String), (r.member, ids) ∈ contract.members.zip internal →
      ¬ r.member.isTool →
        ((∀ id, r.chain.head? = some id → id ∉ ids) ↔ ¬ Dropped contract r) := by
    intro r ids hmem htool
    simp only [Dropped, not_exists, not_and]
    refine forall_congr' fun id => imp_congr_right fun _ => ?_
    rw [mem_internalOfMember (hentries _ hmem).2 htool, not_and]
  constructor
  · rintro ⟨⟨member, ids⟩, hmem, htool, activation, hactivation, relative, hrelative, rfl⟩
    obtain ⟨hlisted, hfree⟩ := mem_withoutInternalBundlePaths.mp hrelative
    exact ⟨⟨member, relative⟩, ⟨(hentries _ hmem).1, htool, activation, hactivation, hlisted⟩,
      (hkept ⟨member, relative⟩ ids hmem htool).mp hfree, rfl⟩
  · rintro ⟨r, ⟨hmember, htool, activation, hactivation, hlisted⟩, hkeep, rfl⟩
    obtain ⟨ids, hmem⟩ := hall r.member hmember
    exact ⟨(r.member, ids), hmem, htool, activation, hactivation, r.relative,
      mem_withoutInternalBundlePaths.mpr ⟨hlisted, (hkept r ids hmem htool).mpr hkeep⟩, rfl⟩

theorem slash_not_mem_portableId {id : String} (h : isPortableId id) : '/' ∉ id.toList := by
  intro hmem
  rw [isPortableId, Bool.and_eq_true, Text.all, List.all_eq_true] at h
  have hchar : isPortableIdChar '/' = false := by decide
  rw [h.2 '/' hmem] at hchar
  cases hchar

/-- A path of a valid product tells its member and its relative path. -/
theorem path_injective (hvalid : validateProductContract contract = .ok ()) {r r' : Registration}
    (hr : Listed read contract r) (hr' : Listed read contract r') (h : r.path = r'.path) :
    r = r' := by
  obtain ⟨hmembers, hnodup, -⟩ := validateProductContract_ok hvalid
  have hsegments : ∀ {r : Registration}, Listed read contract r →
      Text.segments r.path = "bundles" :: r.member.id :: Text.segments r.relative := by
    intro r hr
    obtain ⟨hmember, htool, -⟩ := hr
    have hbundle : r.member.member = .bundle := by
      cases hkind : r.member.member with
      | bundle => rfl
      | tool => exact absurd (by rw [PluginProductMember.isTool, hkind]; rfl) htool
    have hid := slash_not_mem_portableId (hmembers _ hmember).id
    rw [Registration.path, (hmembers _ hmember).destination, hbundle, Text.segments_append_slash,
      Text.segments_append_slash, Text.segments_of_slash_not_mem hid]
    rfl
  have heq := hsegments hr
  rw [h, hsegments hr', List.cons.injEq, List.cons.injEq] at heq
  obtain ⟨-, hid, hrelative⟩ := heq
  have hmember : r'.member = r.member :=
    List.inj_on_of_nodup_map hnodup hr'.1 hr.1 hid
  have hrel := Text.segments_injective hrelative
  cases r
  cases r'
  simp_all

/-- A listed path is registered exactly when it does not go into a copy of a recorded member. -/
theorem path_mem_pluginPaths (hvalid : validateProductContract contract = .ok ())
    (h : productActivation load read contract = .ok out) {r : Registration}
    (hr : Listed read contract r) : r.path ∈ out.pluginPaths ↔ ¬ Dropped contract r := by
  rw [mem_pluginPaths h]
  refine ⟨?_, fun hkeep => ⟨r, hr, hkeep, rfl⟩⟩
  rintro ⟨r', hr', hkeep, hpath⟩
  rwa [← path_injective hvalid hr' hr hpath]

theorem not_dropped_of_own {r : Registration} (h : r.chain = []) : ¬ Dropped contract r := by
  rintro ⟨id, hhead, -⟩
  rw [h] at hhead
  cases hhead

theorem Registration.bundle_of_own {r : Registration} (h : r.chain = []) :
    r.bundle = r.member.id := by
  rw [Registration.bundle, h]
  rfl

/-- Each bundle is registered once exactly when the copies that stay are of different bundles, none
of them a member that has paths of its own, and what a dropped copy holds is found elsewhere. -/
theorem registeredOnce_iff (hvalid : validateProductContract contract = .ok ())
    (h : productActivation load read contract = .ok out) :
    RegisteredOnce read contract out.pluginPaths ↔ Separate read contract := by
  constructor
  · intro honce
    refine ⟨fun r r' hr hr' hchain hkeep hown hbundle => ?_,
      fun r r' hr hr' _ _ hkeep hkeep' hbundle => ?_, fun r hr hdrop hmember => ?_⟩
    · -- the copy and the member itself would both be registered
      have hcopy := honce.once r r' hr hr' ((path_mem_pluginPaths hvalid h hr).mpr hkeep)
        (honce.own r' hr' hown) (by rw [hbundle, Registration.bundle_of_own hown])
      rw [Registration.copy, Registration.copy, Prod.mk.injEq, hown] at hcopy
      exact hchain hcopy.2
    · exact honce.once r r' hr hr' ((path_mem_pluginPaths hvalid h hr).mpr hkeep)
        ((path_mem_pluginPaths hvalid h hr').mpr hkeep') hbundle
    · have hchain : r.chain ≠ [] := fun hown => not_dropped_of_own hown hdrop
      obtain ⟨r', hr', hbundle, hpath⟩ := honce.embedded r hr hchain hmember
      exact ⟨r', hr', hbundle, (path_mem_pluginPaths hvalid h hr').mp hpath⟩
  · intro hseparate
    refine ⟨fun r hr hown => ?_, fun r hr hchain hmember => ?_,
      fun r r' hr hr' hpath hpath' hbundle => ?_⟩
    · exact (path_mem_pluginPaths hvalid h hr).mpr (not_dropped_of_own hown)
    · by_cases hdrop : Dropped contract r
      · obtain ⟨r', hr', hbundle, hkeep⟩ := hseparate.inner r hr hdrop hmember
        exact ⟨r', hr', hbundle, (path_mem_pluginPaths hvalid h hr').mpr hkeep⟩
      · exact ⟨r, hr, rfl, (path_mem_pluginPaths hvalid h hr).mpr hdrop⟩
    · rw [path_mem_pluginPaths hvalid h hr] at hpath
      rw [path_mem_pluginPaths hvalid h hr'] at hpath'
      by_cases hown : r.chain = [] <;> by_cases hown' : r'.chain = []
      · rw [Registration.bundle_of_own hown, Registration.bundle_of_own hown'] at hbundle
        rw [Registration.copy, Registration.copy, hown, hown', hbundle]
      · exact absurd (hbundle.symm.trans (Registration.bundle_of_own hown))
          (hseparate.members r' r hr' hr hown' hpath' hown)
      · exact absurd (hbundle.trans (Registration.bundle_of_own hown'))
          (hseparate.members r r' hr hr' hown hpath hown')
      · exact hseparate.others r r' hr hr' hown hown' hpath hpath' hbundle

end Paths

namespace Sample

def digest : String :=
  "sha256:0123456789abcdef0123456789abcdef0123456789abcdef0123456789abcdef"

def bundleMember (id kind : String) (position : Nat) (dependencies : List Json) :
    PluginProductMember where
  id := id
  position := position
  member := .bundle
  declaredDestination := some ("bundles/" ++ id)
  paths := []
  name := id
  version := "1.0.0"
  kind := kind
  archive := "members/" ++ id ++ "/" ++ id ++ ".tar.zst"
  archiveDigest := digest
  archiveSize := 1
  manifest := "members/" ++ id ++ "/manifest.json"
  checksums := "members/" ++ id ++ "/SHA256SUMS"
  evidence := ["members/" ++ id ++ "/sbom.spdx.json"]
  debug := none
  dependencies := .obj [("bundles", .arr dependencies)]

def schema : PluginProductMember := bundleMember "schema" "usd-schema" 0 []

/-- A recorded dependency on an artifact of another product. -/
def codecDependency : Json :=
  .obj [("id", .str "codec"), ("version", .str "1.0.0"), ("kind", .str "usd-fileformat")]

/-- A bundle that embeds a codec. -/
def viewer : PluginProductMember := bundleMember "viewer" "usd-imaging" 1 [codecDependency]

def studio (members : List PluginProductMember) : PluginProductContract where
  schema := PRODUCT_SCHEMA
  name := "studio"
  version := "1.0.0"
  target := "linux-x86_64"
  install := {
    layout := "members/<member-id>/"
    order := members.map (·.id)
    contract := "studio"
    os := some "linux"
    destination := "bundles/<bundle-id>/"
    activation := "openstrata.activation.json" }
  members := members
  data := []

def activation (pluginPaths : List String) : Json :=
  .obj [("schema", .str "openstrata.activation/v1alpha1"), ("target_os", .str "linux"),
    ("root", .str "."), ("environment", .null),
    ("plugin_paths", .arr (pluginPaths.map .str)), ("library_paths", .arr [.str "lib"]),
    ("python_paths", .arr [.str "python"]), ("entrypoints", .null),
    ("python_dll_search", .null)]

/-- The codec that the viewer embeds comes with a copy of the schema. -/
def read (member : PluginProductMember) : Result Json :=
  .ok (activation (if member.id = "viewer" then
    ["plugin/resources", "runtime/bundles/codec/plugin/resources",
      "runtime/bundles/codec/runtime/bundles/schema/plugin/resources"]
    else ["plugin/resources"]))

def load (member : PluginProductMember) : Result BundleIdentity :=
  .ok ⟨member.id, member.version, member.kind, none⟩

end Sample

theorem registeredOnce_iff_sample : ∃ out,
    productActivation Sample.load Sample.read (Sample.studio [Sample.schema]) = .ok out ∧
      (RegisteredOnce Sample.read (Sample.studio [Sample.schema]) out.pluginPaths ↔
        Separate Sample.read (Sample.studio [Sample.schema])) :=
  ⟨_, rfl, registeredOnce_iff rfl (show productActivation Sample.load Sample.read _ = _ from rfl)⟩

/-- The schema is registered as a member and again from the copy inside the embedded codec. -/
theorem registeredOnce_fails :
    validateProductContract (Sample.studio [Sample.schema, Sample.viewer]) = .ok () ∧
      ∃ out, productActivation Sample.load Sample.read
          (Sample.studio [Sample.schema, Sample.viewer]) = .ok out ∧
        ¬ RegisteredOnce Sample.read (Sample.studio [Sample.schema, Sample.viewer])
          out.pluginPaths := by
  refine ⟨rfl, _, rfl, fun honce => ?_⟩
  let own : Registration := ⟨Sample.schema, "plugin/resources"⟩
  let copy : Registration :=
    ⟨Sample.viewer, "runtime/bundles/codec/runtime/bundles/schema/plugin/resources"⟩
  have hown : Listed Sample.read (Sample.studio [Sample.schema, Sample.viewer]) own :=
    ⟨.head _, by decide, _, rfl, .head _⟩
  have hcopy : Listed Sample.read (Sample.studio [Sample.schema, Sample.viewer]) copy :=
    ⟨.tail _ (.head _), by decide, _, rfl, .tail _ (.tail _ (.head _))⟩
  have hbundle : own.bundle = copy.bundle := by decide
  have heq : own.copy = copy.copy := honce.once own copy hown hcopy (.head _)
    (.tail _ (.tail _ (.tail _ (.head _)))) hbundle
  exact absurd heq (by decide)

end OpenStrata.Product
