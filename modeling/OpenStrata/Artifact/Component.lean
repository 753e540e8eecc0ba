import OpenStrata.Core.Error
import OpenStrata.Core.Serde
import OpenStrata.Core.Text

/-!
# Component contracts

Portable metadata used to compose independently published artifacts: what a component
provides, what it requires, and the environment and files it contributes.

## Main definitions

* `ComponentContract`: the contract carried by a producer manifest
* `ComponentContract.validate`: its well-formedness check
* `ComponentContract.fromJson`: its reading from a manifest

## Main results

* `ComponentContract.validate_ok`: what a valid contract satisfies
-/

namespace OpenStrata

/-- The schema of component contracts. -/
def COMPONENT_SCHEMA : String := "openstrata.component/v1alpha1"

inductive ComponentKind
  | runtime
  | plugin
  | library
  | tool
  | renderer
  | data
  | hostAddon
  deriving DecidableEq, Repr

namespace ComponentKind

def asStr : ComponentKind → String
  | .runtime => "runtime"
  | .plugin => "plugin"
  | .library => "library"
  | .tool => "tool"
  | .renderer => "renderer"
  | .data => "data"
  | .hostAddon => "host-addon"

def fromJson : Json → Option ComponentKind :=
  Serde.variant [("runtime", .runtime), ("plugin", .plugin), ("library", .library),
    ("tool", .tool), ("renderer", .renderer), ("data", .data), ("host-addon", .hostAddon)]

end ComponentKind

/-- A capability a component provides. -/
structure CapabilityProvision where
  capability : String
  version : String
  singleton : Bool
  deriving DecidableEq, Repr

def CapabilityProvision.fromJson (value : Json) : Option CapabilityProvision := do
  let fs ← Serde.fields ["capability", "version", "singleton"] value
  return {
    capability := ← Serde.required fs "capability" Serde.string
    version := ← Serde.required fs "version" Serde.string
    singleton := ← Serde.withDefault fs "singleton" true Serde.bool }

/-- A capability a component or a composition requires. -/
structure CapabilityRequirement where
  capability : String
  version : Option String
  provider : Option String
  deriving DecidableEq, Repr

def CapabilityRequirement.fromJson (value : Json) : Option CapabilityRequirement := do
  let fs ← Serde.fields ["capability", "version", "provider"] value
  return {
    capability := ← Serde.required fs "capability" Serde.string
    version := ← Serde.optional fs "version" Serde.string
    provider := ← Serde.optional fs "provider" Serde.string }

inductive EnvironmentOperation
  | prepend
  | append
  | set
  deriving DecidableEq, Repr

namespace EnvironmentOperation

def asStr : EnvironmentOperation → String
  | .prepend => "prepend"
  | .append => "append"
  | .set => "set"

def fromJson : Json → Option EnvironmentOperation :=
  Serde.variant [("prepend", .prepend), ("append", .append), ("set", .set)]

end EnvironmentOperation

/-- A contribution to one environment variable. -/
structure EnvironmentContribution where
  variableName : String
  operation : EnvironmentOperation
  values : List String
  deriving DecidableEq, Repr

def EnvironmentContribution.fromJson (value : Json) : Option EnvironmentContribution := do
  let fs ← Serde.fields ["variable", "operation", "values"] value
  return {
    variableName := ← Serde.required fs "variable" Serde.string
    operation := ← Serde.required fs "operation" EnvironmentOperation.fromJson
    values := ← Serde.required fs "values" (Serde.list Serde.string) }

/-- A file or tree the component installs. -/
structure InstallMapping where
  source : String
  destination : String
  deriving DecidableEq, Repr

def InstallMapping.fromJson (value : Json) : Option InstallMapping := do
  let fs ← Serde.fields ["source", "destination"] value
  return {
    source := ← Serde.required fs "source" Serde.string
    destination := ← Serde.required fs "destination" Serde.string }

/-- What a component is compatible with; no targets means the artifact's own. -/
structure ComponentCompatibility where
  targets : List String
  abi : Option String
  openusd : Option String
  deriving DecidableEq, Repr

def ComponentCompatibility.default : ComponentCompatibility :=
  { targets := [], abi := none, openusd := none }

def ComponentCompatibility.fromJson (value : Json) : Option ComponentCompatibility := do
  let fs ← Serde.fields ["targets", "abi", "openusd"] value
  return {
    targets := ← Serde.withDefault fs "targets" [] (Serde.list Serde.string)
    abi := ← Serde.optional fs "abi" Serde.string
    openusd := ← Serde.optional fs "openusd" Serde.string }

/-- The contract of a component. -/
structure ComponentContract where
  schema : String
  id : String
  kind : ComponentKind
  version : String
  provides : List CapabilityProvision
  requires : List CapabilityRequirement
  environment : List EnvironmentContribution
  install : List InstallMapping
  compatibility : ComponentCompatibility
  descriptor : Option String
  descriptorSha256 : Option String
  cmake : Option Json
  dependencies : Option Json
  deriving DecidableEq, Repr

def ComponentContract.fromJson (value : Json) : Option ComponentContract := do
  let fs ← Serde.fields
    ["schema", "id", "kind", "version", "provides", "requires", "environment", "install",
      "compatibility", "descriptor", "descriptor_sha256", "cmake", "dependencies"] value
  return {
    schema := ← Serde.required fs "schema" Serde.string
    id := ← Serde.required fs "id" Serde.string
    kind := ← Serde.required fs "kind" ComponentKind.fromJson
    version := ← Serde.required fs "version" Serde.string
    provides := ← Serde.withDefault fs "provides" [] (Serde.list CapabilityProvision.fromJson)
    requires := ← Serde.withDefault fs "requires" [] (Serde.list CapabilityRequirement.fromJson)
    environment := ←
      Serde.withDefault fs "environment" [] (Serde.list EnvironmentContribution.fromJson)
    install := ← Serde.withDefault fs "install" [] (Serde.list InstallMapping.fromJson)
    compatibility := ←
      Serde.withDefault fs "compatibility" .default ComponentCompatibility.fromJson
    descriptor := ← Serde.optional fs "descriptor" Serde.string
    descriptorSha256 := ← Serde.optional fs "descriptor_sha256" Serde.string
    cmake := ← Serde.optional fs "cmake" Serde.any
    dependencies := ← Serde.optional fs "dependencies" Serde.any }

/-! ## Validation -/

/-- An ASCII letter, digit, dot, dash or underscore. -/
def isPortableIdChar (c : Char) : Bool := c.isAlphanum || c == '.' || c == '-' || c == '_'

/-- A portable identifier character or a colon. -/
def isCapabilityChar (c : Char) : Bool := isPortableIdChar c || c == ':'

/-- A non-empty text of portable identifier characters. -/
def isPortableId (value : String) : Bool := !value.isEmpty && Text.all isPortableIdChar value

/-- A non-empty text of capability characters. -/
def isCapability (value : String) : Bool := !value.isEmpty && Text.all isCapabilityChar value

namespace ComponentContract

def portableId (field value : String) : Result Unit :=
  Result.failIf (¬ isPortableId value)
    (.invalidManifest (field ++ " '" ++ value ++ "' is not a portable identifier"))

def capability (field value : String) : Result Unit :=
  Result.failIf (¬ isCapability value)
    (.invalidManifest (field ++ " '" ++ value ++ "' is not a portable capability"))

/-- A forward or backward slash. -/
def isSlash (c : Char) : Bool := c == '/' || c == '\\'

/-- Whether a path is absolute, climbs, or (unless a dot is allowed) names nothing. -/
def isUnsafeRelative (value : String) (allowDot : Bool) : Bool :=
  let drive := match value.toList with
    | a :: b :: _ => a.toNat < 128 && b == ':'
    | _ => false
  let parts := Text.split isSlash value
  let onlyCurrentDirectory := parts.all fun part => part.isEmpty || part == "."
  value.isEmpty || (!allowDot && onlyCurrentDirectory) ||
    (value.toList.head?.any isSlash) || drive || parts.any (· == "..")

def safeRelative (field value : String) (allowDot : Bool) : Result Unit :=
  Result.failIf (isUnsafeRelative value allowDot)
    (.invalidManifest (field ++ " '" ++ value ++ "' must be an artifact-relative path"))

/-- The provisions in order, none of a capability already seen. -/
def validateProvides : List String → List CapabilityProvision → Result Unit
  | _, [] => .ok ()
  | provided, provision :: rest => do
    capability "component.provides.capability" provision.capability
    Result.failIf (provision.capability ∈ provided)
      (.invalidManifest
        ("component provides capability '" ++ provision.capability ++ "' more than once"))
    Result.failIf ((Text.trim provision.version).isEmpty)
      (.invalidManifest
        ("component provision '" ++ provision.capability ++ "' has an empty version"))
    validateProvides (provision.capability :: provided) rest

def validateRequirement (requirement : CapabilityRequirement) : Result Unit := do
  capability "component.requires.capability" requirement.capability
  Result.failIf (requirement.version.any fun value => (Text.trim value).isEmpty)
    (.invalidManifest
      ("component requirement '" ++ requirement.capability ++
        "' has an empty version constraint"))
  match requirement.provider with
  | some provider => portableId "component.requires.provider" provider
  | none => .ok ()

/-- An uppercase ASCII letter, a digit or an underscore. -/
def isVariableChar (c : Char) : Bool := c.isUpper || c.isDigit || c == '_'

def validateEnvironment (contribution : EnvironmentContribution) : Result Unit := do
  Result.failIf (contribution.variableName.isEmpty ∨ ¬ Text.all isVariableChar contribution.variableName)
    (.invalidManifest
      ("component environment variable '" ++ contribution.variableName ++
        "' is not a portable uppercase name"))
  Result.failIf (contribution.values = [])
    (.invalidManifest
      ("component environment contribution '" ++ contribution.variableName ++ "' has no values"))
  Result.forAll (fun value => safeRelative "component.environment.values" value true)
    contribution.values

def validateInstall (mapping : InstallMapping) : Result Unit := do
  safeRelative "component.install.source" mapping.source false
  safeRelative "component.install.destination" mapping.destination false

def validate (contract : ComponentContract) : Result Unit := do
  Result.failIf (contract.schema ≠ COMPONENT_SCHEMA)
    (.invalidManifest
      ("unsupported component schema '" ++ contract.schema ++ "' (expected '" ++
        COMPONENT_SCHEMA ++ "')"))
  portableId "component.id" contract.id
  Result.failIf ((Text.trim contract.version).isEmpty)
    (.invalidManifest "component.version must not be empty")
  validateProvides [] contract.provides
  Result.forAll validateRequirement contract.requires
  Result.forAll validateEnvironment contract.environment
  Result.forAll validateInstall contract.install

@[simp] theorem portableId_ok {field value : String} {u : Unit} :
    portableId field value = .ok u ↔ isPortableId value := by
  simp [portableId]

@[simp] theorem capability_ok {field value : String} {u : Unit} :
    capability field value = .ok u ↔ isCapability value := by
  simp [capability]

theorem validateProvides_ok {provided : List String} {provides : List CapabilityProvision}
    {u : Unit} :
    validateProvides provided provides = .ok u ↔
      (∀ p ∈ provides, isCapability p.capability ∧ (Text.trim p.version).isEmpty = false ∧
        p.capability ∉ provided) ∧
      (provides.map (·.capability)).Nodup := by
  induction provides generalizing provided with
  | nil => simp [validateProvides]
  | cons p rest ih =>
    simp only [validateProvides, Result.bind_ok, capability_ok, Result.failIf_ok, ih,
      List.mem_cons, List.map_cons, List.nodup_cons, List.mem_map]
    constructor
    · rintro ⟨⟨⟩, hc, ⟨⟩, hp, ⟨⟩, hv, hrest, hnd⟩
      refine ⟨?_, ?_, hnd⟩
      · rintro q (rfl | hq)
        · exact ⟨hc, by simpa using hv, hp⟩
        · obtain ⟨h₁, h₂, h₃⟩ := hrest q hq
          exact ⟨h₁, h₂, fun h => h₃ (Or.inr h)⟩
      · rintro ⟨q, hq, he⟩
        exact (hrest q hq).2.2 (Or.inl he)
    · rintro ⟨hall, hnot, hnd⟩
      obtain ⟨hc, hv, hp⟩ := hall p (Or.inl rfl)
      refine ⟨(), hc, (), hp, (), by simpa using hv, fun q hq => ?_, hnd⟩
      obtain ⟨h₁, h₂, h₃⟩ := hall q (Or.inr hq)
      refine ⟨h₁, h₂, ?_⟩
      rintro (he | he)
      · exact hnot ⟨q, hq, he⟩
      · exact h₃ he

theorem validateRequirement_ok {requirement : CapabilityRequirement} {u : Unit} :
    validateRequirement requirement = .ok u ↔
      isCapability requirement.capability ∧
      (∀ v, requirement.version = some v → (Text.trim v).isEmpty = false) ∧
      (∀ p, requirement.provider = some p → isPortableId p) := by
  simp only [validateRequirement, Result.bind_ok, capability_ok, Result.failIf_ok]
  cases requirement.version <;> cases requirement.provider <;> simp

/-- A valid contract names portable identifiers, provides each capability once under a
non-empty version, and has well-formed requirements. -/
theorem validate_ok {contract : ComponentContract} {u : Unit}
    (h : contract.validate = .ok u) :
    isPortableId contract.id ∧ (contract.provides.map (·.capability)).Nodup ∧
      ∀ r ∈ contract.requires, validateRequirement r = .ok () := by
  simp only [validate, Result.bind_ok, portableId_ok, Result.failIf_ok, validateProvides_ok,
    Result.forAll_ok] at h
  obtain ⟨⟨⟩, -, ⟨⟩, hid, ⟨⟩, -, ⟨⟩, ⟨-, hnd⟩, ⟨⟩, hreq, -⟩ := h
  exact ⟨hid, hnd, hreq⟩

end ComponentContract

end OpenStrata
