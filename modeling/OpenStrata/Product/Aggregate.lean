import OpenStrata.Lib.SortBy
import OpenStrata.Lib.TreeMap
import OpenStrata.Plugin.Doctor
import OpenStrata.Product.Contract

/-!
# The aggregate contract of a product

A packaged product carries one component contract made of those of its members: what they provide
together, what they require of others, and the compatibility of the first. A requirement is left
out as soon as some member or embedded bundle provides the capability, whatever its version.

## Main definitions

* `aggregate`: the contract of a product
* `NoWeaker`: no requirement and no bound of a member is lost

## Main results

* `mem_requires_aggregate`: a requirement is kept exactly when its capability is not provided inside
* `noWeaker_iff`: when the contract is no weaker than the members
-/

namespace OpenStrata.Product

open OpenStrata.Plugin (InRange)
open Std (ExtTreeMap)

/-! ## Members -/

/-- What packaging a member gives. -/
structure PackageOutcome where
  /-- The target. -/
  id : String
  name : String
  version : String
  manifest : Json

structure ProductMember where
  id : String
  kind : ProductMemberKind
  paths : List String
  outcome : PackageOutcome

def ProductMember.destination (member : ProductMember) : String :=
  (match member.kind with
  | .bundle => "bundles/"
  | .tool => "tools/") ++ member.id

/-- The component contract of a member. -/
def ProductMember.component (member : ProductMember) : Result ComponentContract := do
  let value ← Result.okOr (.invalidManifest ("product member '" ++ member.id ++
    "' has no versioned component contract")) (member.outcome.manifest.get? "component")
  let component ← Result.okOr (.invalidManifest ("product member '" ++ member.id ++
    "' component contract is invalid")) (ComponentContract.fromJson value)
  component.validate
  return component

/-! ## Collecting -/

abbrev RequirementKey := String × String × String

def requirementKey (requirement : CapabilityRequirement) : RequirementKey :=
  (requirement.capability, requirement.version.getD "", requirement.provider.getD "")

/-- What the members have contributed so far. -/
structure Collected where
  provides : ExtTreeMap String CapabilityProvision
  /-- One requirement for each key. -/
  requires : List CapabilityRequirement
  /-- Versions and digests of embedded bundles of other products. -/
  external : ExtTreeMap String (String × String)
  environment : List EnvironmentContribution
  install : List InstallMapping
  compatibility : Option ComponentCompatibility

def Collected.empty : Collected := ⟨∅, [], ∅, [], [], none⟩

def collision (message : String) : Error :=
  .ofCode "PRODUCT_CAPABILITY_COLLISION" .validation message

/-- The provisions of a member, none of a capability that is provided already. -/
def insertProvides : ExtTreeMap String CapabilityProvision → List CapabilityProvision →
    Result (ExtTreeMap String CapabilityProvision)
  | provides, [] => .ok provides
  | provides, provision :: rest => do
    Result.failIf (provision.capability ∈ provides) (collision
      ("more than one product member provides singleton capability '" ++
        provision.capability ++ "'"))
    insertProvides (provides.insert provision.capability provision) rest

/-- The first requirement of a key stays. -/
def insertRequire (requires : List CapabilityRequirement) (requirement : CapabilityRequirement) :
    List CapabilityRequirement :=
  if requires.any fun known => requirementKey known == requirementKey requirement then requires
  else requires ++ [requirement]

/-- The recorded dependencies that came with an artifact of another product. -/
def externalDependencies (member : ProductMember) : List Json :=
  ((((member.outcome.manifest.index "dependencies").index "bundles").asArr?).getD []).filter
    fun dependency => dependency.index "provenance" == .str "external-artifact"

def insertExternal (member : ProductMember) : ExtTreeMap String (String × String) → List Json →
    Result (ExtTreeMap String (String × String))
  | external, [] => .ok external
  | external, dependency :: rest => do
    let id ← Result.okOr (.invalidManifest ("product member '" ++ member.id ++
      "' has an external bundle without an id")) (dependency.getStr? "id")
    let version ← Result.okOr (.invalidManifest ("product member '" ++ member.id ++
      "' has an external bundle without a version")) (dependency.getStr? "version")
    let digest ← Result.okOr (.invalidManifest ("product member '" ++ member.id ++
      "' has an external bundle without an archive digest"))
      (dependency.getStr? "archive_digest")
    Result.failIf (external[id]?.any (· ≠ (version, digest))) (collision
      ("product members embed different artifacts for external bundle '" ++ id ++ "'"))
    insertExternal member (external.insert id (version, digest)) rest

/-- The contributions of a member under its destination, without those of internal copies. -/
def memberEnvironment (destination : String) (internal : List String)
    (environment : List EnvironmentContribution) : List EnvironmentContribution :=
  environment.filterMap fun contribution =>
    let selected := withoutInternalBundlePaths contribution.values internal
    if selected.isEmpty then none
    else some { contribution with
      values := selected.map fun value =>
        if value = "." then destination else destination ++ "/" ++ value }

def memberInstall (destination : String) (install : List InstallMapping) : List InstallMapping :=
  install.map fun mapping =>
    ⟨destination ++ "/" ++ mapping.source, destination ++ "/" ++ mapping.destination⟩

/-- One member. -/
def collectMember (s : Collected) (member : ProductMember) (internal : List String) :
    Result Collected := do
  let component ← member.component
  let provides ← insertProvides s.provides component.provides
  let external ← insertExternal member s.external (externalDependencies member)
  return {
    provides := provides
    requires := component.requires.foldl insertRequire s.requires
    external := external
    environment := s.environment ++
      memberEnvironment member.destination internal component.environment
    install := s.install ++ memberInstall member.destination component.install
    compatibility := s.compatibility.or (some component.compatibility) }

def collectMembers : Collected → List (ProductMember × List String) → Result Collected
  | s, [] => .ok s
  | s, (member, internal) :: rest => do
    let s ← collectMember s member internal
    collectMembers s rest

/-- The embedded bundles of other products, provided under their ids. -/
def provideExternal : ExtTreeMap String CapabilityProvision → List (String × String × String) →
    Result (ExtTreeMap String CapabilityProvision)
  | provides, [] => .ok provides
  | provides, (id, version, _) :: rest => do
    Result.failIf ("component:" ++ id ∈ provides) (collision
      ("product member and embedded bundle both provide 'component:" ++ id ++ "'"))
    provideExternal (provides.insert ("component:" ++ id) ⟨"component:" ++ id, version, true⟩) rest

/-- The contract of a product with its name, version and data files. -/
def aggregate (name version : String) (data : List InstallMapping)
    (members : List (ProductMember × List String)) : Result ComponentContract := do
  let first ← Result.okOr (.precondition "cannot create a plugin product from an empty workspace")
    members.head?
  Result.failIf (∃ member ∈ members, member.1.outcome.id ≠ first.1.outcome.id) (.validation
    "all aggregate product members must target the same platform/profile variant")
  let s ← collectMembers .empty members
  let provides ← provideExternal s.provides s.external.toList
  return {
    schema := COMPONENT_SCHEMA
    id := name
    kind := .plugin
    version := version
    provides := TreeMap.values (provides.insert ("component:" ++ name)
      ⟨"component:" ++ name, version, true⟩)
    requires := SortBy.sortBy (fun requirement =>
        toLex (requirement.capability,
          toLex (requirement.version.getD "", requirement.provider.getD "")))
      (s.requires.filter fun requirement => !provides.contains requirement.capability)
    environment := s.environment
    install := s.install ++ data
    compatibility := s.compatibility.getD .default
    descriptor := none
    descriptorSha256 := none
    cmake := none
    dependencies := none }

/-! ## What members ask for -/

section Promises

variable (members : List (ProductMember × List String))

/-- A provision of a member. -/
def ProvidedBy (member : ProductMember) (provider : String) (provision : CapabilityProvision) :
    Prop :=
  ∃ component, member.component = .ok component ∧ component.id = provider ∧
    provision ∈ component.provides

/-- A provision of a bundle of another product that a member embeds. -/
def EmbeddedIn (member : ProductMember) (provider : String) (provision : CapabilityProvision) :
    Prop :=
  ∃ dependency ∈ externalDependencies member, dependency.getStr? "id" = some provider ∧
    ∃ version, dependency.getStr? "version" = some version ∧
      provision = ⟨"component:" ++ provider, version, true⟩

/-- A capability that a member or an embedded bundle provides. -/
def Inside (capability : String) : Prop :=
  ∃ entry ∈ members, ∃ provider provision, provision.capability = capability ∧
    (ProvidedBy entry.1 provider provision ∨ EmbeddedIn entry.1 provider provision)

/-- A provision meets a requirement: its capability, its range and its pin. -/
structure Meets (requirement : CapabilityRequirement) (provider : String)
    (provision : CapabilityProvision) : Prop where
  capability : provision.capability = requirement.capability
  version : ∀ range, requirement.version = some range → InRange provision.version range
  provider : ∀ pin, requirement.provider = some pin → provider = pin

/-- Another member or an embedded bundle meets a requirement of a member. -/
def Satisfied (member : ProductMember) (requirement : CapabilityRequirement) : Prop :=
  ∃ entry ∈ members, ∃ provider provision, Meets requirement provider provision ∧
    (entry.1.id ≠ member.id ∧ ProvidedBy entry.1 provider provision ∨
      EmbeddedIn entry.1 provider provision)

/-- What a component is run in. -/
structure Environment where
  target : String
  abi : String
  openusd : String

/-- The targets of an artifact: its own where the contract accepts none. -/
def acceptedTargets (own : String) (compatibility : ComponentCompatibility) : List String :=
  if compatibility.targets = [] then [own] else compatibility.targets

structure Admits (own : String) (compatibility : ComponentCompatibility) (env : Environment) :
    Prop where
  target : env.target ∈ acceptedTargets own compatibility
  abi : ∀ abi, compatibility.abi = some abi → env.abi = abi
  openusd : ∀ range, compatibility.openusd = some range → InRange env.openusd range

/-- The contract of a product for a target promises no less than those of its members ask for. -/
structure NoWeaker (own : String) (contract : ComponentContract) : Prop where
  requirements : ∀ entry ∈ members, ∀ component, entry.1.component = .ok component →
    ∀ requirement ∈ component.requires,
      requirement ∈ contract.requires ∨ Satisfied members entry.1 requirement
  compatibility : ∀ entry ∈ members, ∀ component, entry.1.component = .ok component →
    ∀ env, Admits own contract.compatibility env → Admits own component.compatibility env

/-- Every version in the one range is in the other; a missing range holds every version. -/
def RangeWithin (a b : Option String) : Prop :=
  ∀ version, (∀ range, a = some range → InRange version range) →
    ∀ range, b = some range → InRange version range

/-- One compatibility is at least as narrow as another: in its targets, its ABI and its range; or
no version of OpenUSD is in its range. -/
def Narrower (own : String) (a b : ComponentCompatibility) : Prop :=
  (∃ range, a.openusd = some range ∧ ∀ version, ¬ InRange version range) ∨
    (acceptedTargets own a ⊆ acceptedTargets own b ∧
      (∀ abi, b.abi = some abi → a.abi = some abi) ∧ RangeWithin a.openusd b.openusd)

end Promises

/-! ## Compatibility -/

theorem acceptedTargets_ne_nil (own : String) (compatibility : ComponentCompatibility) :
    acceptedTargets own compatibility ≠ [] := by
  unfold acceptedTargets
  split
  · exact List.cons_ne_nil _ _
  · assumption

/-- Narrowness is what admission asks for. -/
theorem narrower_iff {own : String} {a b : ComponentCompatibility} :
    Narrower own a b ↔ ∀ env, Admits own a env → Admits own b env := by
  constructor
  · rintro (⟨range, hrange, hnone⟩ | ⟨htargets, habi, hopenusd⟩) env henv
    · exact absurd (henv.openusd range hrange) (hnone _)
    · exact ⟨htargets henv.target, fun abi hb => henv.abi abi (habi abi hb),
        hopenusd env.openusd henv.openusd⟩
  · intro hall
    by_cases hempty : ∃ range, a.openusd = some range ∧ ∀ version, ¬ InRange version range
    · exact .inl hempty
    · -- some version is admitted, so each bound can be tried on its own
      obtain ⟨version, hversion⟩ : ∃ version, ∀ range, a.openusd = some range →
          InRange version range := by
        cases hopenusd : a.openusd with
        | none => exact ⟨"", nofun⟩
        | some range =>
          by_contra hnone
          refine hempty ⟨range, hopenusd, fun version hversion => hnone ⟨version, ?_⟩⟩
          rintro range' ⟨⟩
          exact hversion
      obtain ⟨target, htarget⟩ := List.exists_mem_of_ne_nil _ (acceptedTargets_ne_nil own a)
      refine .inr ⟨fun target' htarget' => ?_, fun abi habi => ?_, fun version' hversion' => ?_⟩
      · have henv : Admits own a ⟨target', a.abi.getD "", version⟩ :=
          ⟨htarget', fun abi habi => by rw [habi]; rfl, hversion⟩
        exact (hall _ henv).target
      · -- an ABI that is not the one asked for is admitted where none is stated
        cases ha : a.abi with
        | none =>
          have henv : Admits own a ⟨target, abi ++ "x", version⟩ :=
            ⟨htarget, fun abi habi => absurd (ha.symm.trans habi) (by simp), hversion⟩
          have hself : abi ++ "x" = abi := (hall _ henv).abi abi habi
          exact absurd (congrArg String.length hself) (by simp)
        | some abi' =>
          have henv : Admits own a ⟨target, abi', version⟩ :=
            ⟨htarget, fun abi habi => by rw [ha] at habi; exact Option.some.inj habi, hversion⟩
          rw [← (hall _ henv).abi abi habi]
      · have henv : Admits own a ⟨target, a.abi.getD "", version'⟩ :=
          ⟨htarget, fun abi habi => by rw [habi]; rfl, hversion'⟩
        exact (hall _ henv).openusd

/-! ## What is collected -/

section Collecting

variable {provides provides' : ExtTreeMap String CapabilityProvision} {capability : String}

theorem mem_insertProvides {provisions : List CapabilityProvision} :
    ∀ {provides : ExtTreeMap String CapabilityProvision},
      insertProvides provides provisions = .ok provides' →
        (capability ∈ provides' ↔ capability ∈ provides ∨
          ∃ provision ∈ provisions, provision.capability = capability) := by
  induction provisions with
  | nil =>
    intro provides h
    obtain rfl := Except.ok.inj h
    simp
  | cons provision rest ih =>
    intro provides h
    obtain ⟨⟨⟩, -, hrest⟩ := Result.bind_ok.mp h
    rw [ih hrest, ExtTreeMap.mem_insert, compare_eq_iff_eq, List.exists_mem_cons_iff]
    tauto

theorem mem_provideExternal {bundles : List (String × String × String)} :
    ∀ {provides : ExtTreeMap String CapabilityProvision},
      provideExternal provides bundles = .ok provides' →
        (capability ∈ provides' ↔ capability ∈ provides ∨
          ∃ bundle ∈ bundles, "component:" ++ bundle.1 = capability) := by
  induction bundles with
  | nil =>
    intro provides h
    obtain rfl := Except.ok.inj h
    simp
  | cons bundle rest ih =>
    intro provides h
    obtain ⟨id, version, digest⟩ := bundle
    obtain ⟨⟨⟩, -, hrest⟩ := Result.bind_ok.mp h
    rw [ih hrest, ExtTreeMap.mem_insert, compare_eq_iff_eq, List.exists_mem_cons_iff]
    tauto

/-- The embedded bundles have ids and versions, and their ids are collected. -/
theorem mem_insertExternal {member : ProductMember} {dependencies : List Json} {id : String}
    {external' : ExtTreeMap String (String × String)} :
    ∀ {external : ExtTreeMap String (String × String)},
      insertExternal member external dependencies = .ok external' →
        (id ∈ external' ↔ id ∈ external ∨ ∃ dependency ∈ dependencies,
          dependency.getStr? "id" = some id ∧ ∃ version,
            dependency.getStr? "version" = some version) := by
  induction dependencies with
  | nil =>
    intro external h
    obtain rfl := Except.ok.inj h
    simp
  | cons dependency rest ih =>
    intro external h
    simp only [insertExternal, Result.bind_ok, Result.okOr_ok] at h
    obtain ⟨id', hid, version, hversion, digest, -, ⟨⟩, -, hrest⟩ := h
    rw [ih hrest, ExtTreeMap.mem_insert, compare_eq_iff_eq, List.exists_mem_cons_iff, hid,
      hversion, Option.some.injEq]
    have : ∃ version', some version = some version' := ⟨version, rfl⟩
    tauto

/-- Keys tell valid requirements apart: their ranges and pins are not empty. -/
theorem requirementKey_injective {a b : CapabilityRequirement}
    (ha : ComponentContract.validateRequirement a = .ok ())
    (hb : ComponentContract.validateRequirement b = .ok ())
    (h : requirementKey a = requirementKey b) : a = b := by
  obtain ⟨-, hav, hap⟩ := ComponentContract.validateRequirement_ok.mp ha
  obtain ⟨-, hbv, hbp⟩ := ComponentContract.validateRequirement_ok.mp hb
  obtain ⟨capability, version, provider⟩ := a
  obtain ⟨capability', version', provider'⟩ := b
  have hgetD : ∀ {o o' : Option String}, o ≠ some "" → o' ≠ some "" →
      o.getD "" = o'.getD "" → o = o' := by
    intro o o' ho ho' heq
    cases o with
    | none =>
      cases o' with
      | none => rfl
      | some text => exact absurd (congrArg some heq.symm) ho'
    | some text =>
      cases o' with
      | none => exact absurd (congrArg some heq) ho
      | some text' => exact congrArg some heq
  have htrim : (Text.trim "").isEmpty = true := by decide
  have hid : ¬ isPortableId "" := by decide
  simp only [requirementKey, Prod.mk.injEq] at h
  obtain ⟨rfl, hversion, hprovider⟩ := h
  obtain rfl := hgetD (fun heq => by simpa [htrim] using hav "" heq)
    (fun heq => by simpa [htrim] using hbv "" heq) hversion
  obtain rfl := hgetD (fun heq => hid (hap "" heq)) (fun heq => hid (hbp "" heq)) hprovider
  rfl

theorem mem_foldl_insertRequire {requirement : CapabilityRequirement}
    {more : List CapabilityRequirement}
    (hmore : ∀ r ∈ more, ComponentContract.validateRequirement r = .ok ()) :
    ∀ {requires : List CapabilityRequirement},
      (∀ r ∈ requires, ComponentContract.validateRequirement r = .ok ()) →
        (requirement ∈ more.foldl insertRequire requires ↔
          requirement ∈ requires ∨ requirement ∈ more) := by
  induction more with
  | nil => simp
  | cons r more ih =>
    intro requires hrequires
    obtain ⟨hr, hmore⟩ := List.forall_mem_cons.mp hmore
    have hstep : ∀ q, q ∈ insertRequire requires r ↔ q ∈ requires ∨ q = r := by
      intro q
      unfold insertRequire
      by_cases hknown : requires.any fun known => requirementKey known == requirementKey r
      · obtain ⟨known, hmem, hkey⟩ := List.any_eq_true.mp hknown
        obtain rfl := requirementKey_injective (hrequires known hmem) hr (by simpa using hkey)
        rw [if_pos hknown]
        exact ⟨.inl, fun h => h.elim (fun h => h) fun h => h ▸ hmem⟩
      · rw [if_neg hknown, List.mem_append, List.mem_singleton]
    rw [List.foldl_cons, ih hmore, hstep, List.mem_cons, or_assoc]
    exact fun q hq => ((hstep q).mp hq).elim (hrequires q) fun h => h ▸ hr

theorem component_ok {member : ProductMember} {component : ComponentContract}
    (h : member.component = .ok component) :
    ∀ r ∈ component.requires, ComponentContract.validateRequirement r = .ok () := by
  simp only [ProductMember.component, Result.bind_ok] at h
  obtain ⟨value, -, component', -, ⟨⟩, hvalid, heq⟩ := h
  obtain rfl := Except.ok.inj heq
  exact (ComponentContract.validate_ok hvalid).2.2

end Collecting

/-! ## Runs over the members -/

section Run

variable {members : List (ProductMember × List String)} {name version : String}
  {data : List InstallMapping} {contract : ComponentContract}

theorem exists_mem_singleton {α : Type} {p : α → Prop} {a : α} : (∃ x ∈ [a], p x) ↔ p a := by
  simp

/-- What the members so far have contributed. -/
structure Contributed (members : List (ProductMember × List String)) (s s' : Collected) : Prop where
  components : ∀ entry ∈ members, ∃ component, entry.1.component = .ok component
  provides : ∀ capability, capability ∈ s'.provides ↔ capability ∈ s.provides ∨
    ∃ entry ∈ members, ∃ provider provision, provision.capability = capability ∧
      ProvidedBy entry.1 provider provision
  external : ∀ id, id ∈ s'.external ↔ id ∈ s.external ∨
    ∃ entry ∈ members, ∃ provision, EmbeddedIn entry.1 id provision
  valid : ∀ r ∈ s'.requires, ComponentContract.validateRequirement r = .ok ()
  requires : ∀ r, r ∈ s'.requires ↔ r ∈ s.requires ∨
    ∃ entry ∈ members, ∃ component, entry.1.component = .ok component ∧ r ∈ component.requires
  compatibility : s'.compatibility = s.compatibility.or (members.head?.bind fun entry =>
    entry.1.component.toOption.map ComponentContract.compatibility)

/-- A step: a member contributes. -/
theorem contributed_collectMember {s s' : Collected} {member : ProductMember}
    {internal : List String}
    (hs : ∀ r ∈ s.requires, ComponentContract.validateRequirement r = .ok ())
    (h : collectMember s member internal = .ok s') :
    Contributed [(member, internal)] s s' := by
  simp only [collectMember, Result.bind_ok] at h
  obtain ⟨component, hcomponent, provides, hprovides, external, hexternal, heq⟩ := h
  obtain rfl := Except.ok.inj heq
  have hvalid := component_ok hcomponent
  constructor
  · exact List.forall_mem_singleton.mpr ⟨component, hcomponent⟩
  · intro capability
    rw [mem_insertProvides hprovides, exists_mem_singleton]
    refine or_congr_right ⟨?_, ?_⟩
    · rintro ⟨provision, hmem, hcapability⟩
      exact ⟨component.id, provision, hcapability, component, hcomponent, rfl, hmem⟩
    · rintro ⟨provider, provision, hcapability, component', hcomponent', -, hmem⟩
      obtain rfl := Except.ok.inj (hcomponent.symm.trans hcomponent')
      exact ⟨provision, hmem, hcapability⟩
  · intro id
    rw [mem_insertExternal hexternal, exists_mem_singleton]
    refine or_congr_right ⟨?_, ?_⟩
    · rintro ⟨dependency, hmem, hid, version, hversion⟩
      exact ⟨_, dependency, hmem, hid, version, hversion, rfl⟩
    · rintro ⟨provision, dependency, hmem, hid, version, hversion, -⟩
      exact ⟨dependency, hmem, hid, version, hversion⟩
  · intro r hr
    exact ((mem_foldl_insertRequire hvalid hs).mp hr).elim (hs r) (hvalid r)
  · intro r
    rw [mem_foldl_insertRequire hvalid hs, exists_mem_singleton]
    refine or_congr_right ⟨fun hmem => ⟨component, hcomponent, hmem⟩, ?_⟩
    rintro ⟨component', hcomponent', hmem⟩
    obtain rfl := Except.ok.inj (hcomponent.symm.trans hcomponent')
    exact hmem
  · simp [hcomponent, Except.toOption]

/-- A run: all members contribute. -/
theorem contributed_collectMembers : ∀ {s s' : Collected},
    (∀ r ∈ s.requires, ComponentContract.validateRequirement r = .ok ()) →
      collectMembers s members = .ok s' → Contributed members s s' := by
  induction members with
  | nil =>
    intro s s' hs h
    obtain rfl := Except.ok.inj h
    exact ⟨nofun, fun _ => by simp, fun _ => by simp, hs, fun _ => by simp, by simp⟩
  | cons entry rest ih =>
    intro s s' hs h
    obtain ⟨member, internal⟩ := entry
    obtain ⟨s₁, hstep, hrest⟩ := Result.bind_ok.mp h
    have hfirst := contributed_collectMember hs hstep
    have hothers := ih hfirst.valid hrest
    constructor
    · exact List.forall_mem_cons.mpr
        ⟨hfirst.components _ List.mem_cons_self, hothers.components⟩
    · intro capability
      rw [hothers.provides, hfirst.provides, exists_mem_singleton,
        List.exists_mem_cons_iff, or_assoc]
    · intro id
      rw [hothers.external, hfirst.external, exists_mem_singleton,
        List.exists_mem_cons_iff, or_assoc]
    · exact hothers.valid
    · intro r
      rw [hothers.requires, hfirst.requires, exists_mem_singleton,
        List.exists_mem_cons_iff, or_assoc]
    · -- the first member's compatibility stays
      obtain ⟨component, hcomponent⟩ := hfirst.components _ List.mem_cons_self
      rw [hothers.compatibility, hfirst.compatibility]
      simp [hcomponent, Except.toOption]

/-- What the contract of a product is made of. -/
theorem aggregate_ok (h : aggregate name version data members = .ok contract) :
    ∃ first component, members.head? = some first ∧ first.1.component = .ok component ∧
      contract.compatibility = component.compatibility ∧
      ∀ r, r ∈ contract.requires ↔ (∃ entry ∈ members, ∃ component,
        entry.1.component = .ok component ∧ r ∈ component.requires) ∧
          ¬ Inside members r.capability := by
  simp only [aggregate, Result.bind_ok, Result.okOr_ok] at h
  obtain ⟨first, hfirst, ⟨⟩, -, s, hmembers, provides, hprovides, heq⟩ := h
  obtain rfl := Except.ok.inj heq
  have hall := contributed_collectMembers (fun r hr => absurd hr List.not_mem_nil) hmembers
  obtain ⟨component, hcomponent⟩ := hall.components first (List.mem_of_mem_head? hfirst)
  refine ⟨first, component, hfirst, hcomponent, ?_, fun r => ?_⟩
  · have := hall.compatibility
    simp only [Collected.empty, Option.none_or, hfirst, Option.bind_some, hcomponent,
      Except.toOption, Option.map_some] at this
    rw [this]
    rfl
  · have hinside : r.capability ∈ provides ↔ Inside members r.capability := by
      rw [mem_provideExternal hprovides, hall.provides]
      constructor
      · rintro ((hempty | ⟨entry, hentry, provider, provision, hcapability, hprovided⟩) |
          ⟨⟨id, bundle⟩, hbundle, hcapability⟩)
        · exact (ExtTreeMap.not_mem_empty hempty).elim
        · exact ⟨entry, hentry, provider, provision, hcapability, .inl hprovided⟩
        · have hid : id ∈ s.external := by
            rw [← ExtTreeMap.mem_keys, ← ExtTreeMap.map_fst_toList_eq_keys]
            exact List.mem_map_of_mem (f := Prod.fst) hbundle
          rcases (hall.external id).mp hid with hempty | ⟨entry, hentry, provision, hembedded⟩
          · exact (ExtTreeMap.not_mem_empty hempty).elim
          · refine ⟨entry, hentry, id, provision, ?_, .inr hembedded⟩
            obtain ⟨dependency, -, -, version, -, rfl⟩ := hembedded
            exact hcapability
      · rintro ⟨entry, hentry, provider, provision, hcapability, hprovided | hembedded⟩
        · exact .inl (.inr ⟨entry, hentry, provider, provision, hcapability, hprovided⟩)
        · have hid : provider ∈ s.external :=
            (hall.external provider).mpr (.inr ⟨entry, hentry, provision, hembedded⟩)
          rw [← ExtTreeMap.mem_keys, ← ExtTreeMap.map_fst_toList_eq_keys] at hid
          obtain ⟨bundle, hbundle, rfl⟩ := List.mem_map.mp hid
          obtain ⟨dependency, -, -, version, -, rfl⟩ := hembedded
          exact .inr ⟨bundle, hbundle, hcapability⟩
    have hempty : r ∉ Collected.empty.requires := List.not_mem_nil
    rw [SortBy.mem_sortBy, List.mem_filter, hall.requires, or_iff_right hempty, ← hinside,
      Bool.not_eq_true', ← Bool.not_eq_true, ExtTreeMap.contains_iff_mem]

/-- A requirement is kept exactly when its capability is not provided inside. -/
theorem mem_requires_aggregate (h : aggregate name version data members = .ok contract)
    {entry : ProductMember × List String} (hentry : entry ∈ members)
    {component : ComponentContract} (hcomponent : entry.1.component = .ok component)
    {r : CapabilityRequirement} (hr : r ∈ component.requires) :
    r ∈ contract.requires ↔ ¬ Inside members r.capability := by
  obtain ⟨-, -, -, -, -, hrequires⟩ := aggregate_ok h
  rw [hrequires]
  exact and_iff_right ⟨entry, hentry, component, hcomponent, hr⟩

/-- The contract is no weaker than the members exactly when every requirement whose capability is
provided inside is met there, and the first member has the narrowest compatibility. -/
theorem noWeaker_iff {own : String} (h : aggregate name version data members = .ok contract) :
    NoWeaker members own contract ↔
      (∀ entry ∈ members, ∀ component, entry.1.component = .ok component →
        ∀ r ∈ component.requires, Inside members r.capability → Satisfied members entry.1 r) ∧
      ∀ first component, members.head? = some first → first.1.component = .ok component →
        ∀ entry ∈ members, ∀ component', entry.1.component = .ok component' →
          Narrower own component.compatibility component'.compatibility := by
  obtain ⟨first, component, hfirst, hcomponent, hcompatibility, -⟩ := aggregate_ok h
  constructor
  · intro hweaker
    refine ⟨fun entry hentry c hc r hr hinside => ?_, ?_⟩
    · refine (hweaker.requirements entry hentry c hc r hr).resolve_left fun hkept => ?_
      exact (mem_requires_aggregate h hentry hc hr).mp hkept hinside
    · intro first' component₁ hfirst' hcomponent₁ entry hentry c hc
      obtain rfl := Option.some.inj (hfirst.symm.trans hfirst')
      obtain rfl := Except.ok.inj (hcomponent.symm.trans hcomponent₁)
      rw [narrower_iff, ← hcompatibility]
      exact hweaker.compatibility entry hentry c hc
  · rintro ⟨hsatisfied, hnarrower⟩
    refine ⟨fun entry hentry c hc r hr => ?_, fun entry hentry c hc => ?_⟩
    · by_cases hinside : Inside members r.capability
      · exact .inr (hsatisfied entry hentry c hc r hr hinside)
      · exact .inl ((mem_requires_aggregate h hentry hc hr).mpr hinside)
    · rw [hcompatibility]
      exact narrower_iff.mp (hnarrower first component hfirst hcomponent entry hentry c hc)

namespace Sample

/-- The contract of a bundle for a range of OpenUSD versions that needs other components. -/
def component (id openusd : String) (requires : List Json) : Json :=
  .obj [("schema", .str COMPONENT_SCHEMA), ("id", .str id), ("kind", .str "plugin"),
    ("version", .str "1.0.0"),
    ("provides", .arr [.obj [("capability", .str ("component:" ++ id)),
      ("version", .str "1.0.0")]]),
    ("requires", .arr requires),
    ("compatibility", .obj [("openusd", .str openusd)])]

def member (id openusd : String) (requires : List Json) : ProductMember × List String :=
  (⟨id, .bundle, [],
    ⟨"linux-x86_64", id, "1.0.0", .obj [("component", component id openusd requires)]⟩⟩, [])

def shapes : ProductMember × List String := member "shapes" ">=24.0,<27.0" []

/-- A bundle that needs the shapes and a later OpenUSD than they do. -/
def codec : ProductMember × List String :=
  member "codec" ">=25.5,<27.0"
    [.obj [("capability", .str "component:shapes"), ("version", .str ">=1.0,<2.0")]]

end Sample

theorem noWeaker_iff_sample :
    ∃ contract, aggregate "studio" "1.0.0" [] [Sample.codec] = .ok contract ∧
      (NoWeaker [Sample.codec] "linux-x86_64" contract ↔
        (∀ entry ∈ [Sample.codec], ∀ component, entry.1.component = .ok component →
          ∀ r ∈ component.requires, Inside [Sample.codec] r.capability →
            Satisfied [Sample.codec] entry.1 r) ∧
        ∀ first component, [Sample.codec].head? = some first →
          first.1.component = .ok component → ∀ entry ∈ [Sample.codec], ∀ component',
            entry.1.component = .ok component' →
              Narrower "linux-x86_64" component.compatibility component'.compatibility) :=
  ⟨_, rfl, noWeaker_iff rfl⟩

/-- The product of two bundles admits the OpenUSD of the first, which the second does not run in. -/
theorem noWeaker_fails : ∃ contract,
    aggregate "studio" "1.0.0" [] [Sample.shapes, Sample.codec] = .ok contract ∧
      ¬ NoWeaker [Sample.shapes, Sample.codec] "linux-x86_64" contract := by
  refine ⟨_, rfl, fun hweaker => ?_⟩
  have hcodec := hweaker.compatibility Sample.codec (by simp) _ rfl
    ⟨"linux-x86_64", "", "24.5"⟩ ⟨List.mem_singleton_self _, nofun, ?_⟩
  · have hlater : InRange "24.5" ">=25.5,<27.0" := hcodec.openusd _ rfl
    exact Bool.false_ne_true (Except.ok.inj hlater)
  · rintro range ⟨⟩
    exact (rfl : InRange "24.5" ">=24.0,<27.0")

end Run

end OpenStrata.Product
