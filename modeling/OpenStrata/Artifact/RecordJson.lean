import OpenStrata.Artifact.Record
import OpenStrata.Core.Serialize

/-!
# Records as JSON

How artifact records and everything in them are serialised, and that reading a serialised value
gives the value back. A record of the model can be out of range for the machine integers of the
source; `ArtifactRecord.Representable` says it is not, and every record that was read is.

## Main definitions

* `ComponentContract.toValue`, `ArtifactRecord.toValue`, `ManifestFile.toValue`: the serialised
  forms
* `ArtifactRecord.fromJson`: the reading of a record
* `ArtifactRecord.Representable`: a record the source's types can hold

## Main results

* `ArtifactRecord.fromJson_toValue`: a serialised record reads back as itself
* `ArtifactRecord.representable_of_fromJson`: a record that was read is representable
* `ArtifactRecord.fromJson_rewritten`: a record that was read survives being written
-/

namespace OpenStrata

open Serde (object distinctKeys skipIf unlessEmpty)

/-! ## Fields -/

namespace Serde

theorem string_str (s : String) : string (.str s) = some s := rfl

theorem bool_bool (b : Bool) : bool (.bool b) = some b := rfl

theorem readOptional_string (value : Option String) :
    readOptional string (value.map .str) = some value := by
  cases value <;> rfl

theorem list_string (items : List String) :
    list string (.arr (items.map .str)) = some items := list_arr fun _ _ => rfl

theorem readDefault_strings (items : List String) :
    readDefault [] (list string) (unlessEmpty .str items) = some items :=
  readDefault_unlessEmpty fun _ _ => rfl

theorem readOptional_u64 {value : Option Nat} (h : ∀ n, value = some n → n < 2 ^ 64) :
    readOptional u64 (value.map fun n : Nat => .int n) = some value :=
  readOptional_map (fun n hn => u64_int (h n hn)) fun _ _ => nofun

/-- An optional struct reads back. -/
theorem readOptional_object {α : Type} {read : Json → Option α}
    {fields : α → List (String × Option Json)} {value : Option α}
    (h : ∀ a, value = some a → read (object (fields a)) = some a) :
    readOptional read (value.map fun a => object (fields a)) = some value :=
  readOptional_map h fun _ _ => nofun

/-- A reading that succeeded succeeded at its first step. -/
theorem of_bind {α β : Type} {x : Option α} {f : α → Option β} {b : β}
    (h : (x >>= f) = some b) : ∃ a, x = some a ∧ f a = some b :=
  Option.bind_eq_some_iff.mp h

/-- An optional field that is there was read from a value other than `null`. -/
theorem of_optional {α : Type} {read : Json → Option α} {fs : List (String × Json)}
    {name : String} {a : α} (h : optional fs name read = some (some a)) :
    ∃ value, value ≠ .null ∧ read value = some a := by
  unfold optional at h
  split at h
  · cases h
  · cases h
  · rename_i value hnull hvalue
    obtain ⟨b, hread, hb⟩ := Option.map_eq_some_iff.mp h
    refine ⟨value, ?_, by rw [hread, hb]⟩
    rintro rfl
    exact hnull rfl

theorem lt_of_u32 {value : Json} {n : Nat} (h : u32 value = some n) : n < 2 ^ 32 := by
  unfold u32 at h
  split at h
  · split at h
    · cases h
      omega
    · cases h
  · cases h

theorem lt_of_u64 {value : Json} {n : Nat} (h : u64 value = some n) : n < 2 ^ 64 := by
  unfold u64 Json.asU64? at h
  split at h
  · split at h
    · cases h
      omega
    · cases h
  · cases h

theorem lt_of_required_u32 {fs : List (String × Json)} {name : String} {n : Nat}
    (h : required fs name u32 = some n) : n < 2 ^ 32 := by
  obtain ⟨value, -, hread⟩ := Option.bind_eq_some_iff.mp h
  exact lt_of_u32 hread

theorem lt_of_required_u64 {fs : List (String × Json)} {name : String} {n : Nat}
    (h : required fs name u64 = some n) : n < 2 ^ 64 := by
  obtain ⟨value, -, hread⟩ := Option.bind_eq_some_iff.mp h
  exact lt_of_u64 hread

theorem lt_of_optional_u64 {fs : List (String × Json)} {name : String} {size : Option Nat}
    (h : optional fs name u64 = some size) : ∀ n, size = some n → n < 2 ^ 64 := by
  rintro n rfl
  obtain ⟨value, -, hread⟩ := of_optional h
  exact lt_of_u64 hread

end Serde

/-! ## OpenUSD identities -/

def Os.toValue (os : Os) : Json := .str os.asStr

def Arch.toValue (arch : Arch) : Json := .str arch.asStr

def OpenUsdVariantId.toValue (variant : OpenUsdVariantId) : Json := .str variant.asStr

def OpenUsdVerificationStatus.asStr : OpenUsdVerificationStatus → String
  | .notRun => "not-run"
  | .passed => "passed"
  | .failed => "failed"

def OpenUsdVerificationStatus.toValue (status : OpenUsdVerificationStatus) : Json :=
  .str status.asStr

theorem Os.fromJson_toValue (os : Os) : Os.fromJson os.toValue = some os := by
  cases os <;> rfl

theorem Arch.fromJson_toValue (arch : Arch) : Arch.fromJson arch.toValue = some arch := by
  cases arch <;> rfl

theorem OpenUsdVariantId.fromJson_toValue (variant : OpenUsdVariantId) :
    OpenUsdVariantId.fromJson variant.toValue = some variant := by
  cases variant <;> rfl

theorem OpenUsdVerificationStatus.fromJson_toValue (status : OpenUsdVerificationStatus) :
    OpenUsdVerificationStatus.fromJson status.toValue = some status := by
  cases status <;> rfl

namespace OpenUsdVerification

def fields (v : OpenUsdVerification) : List (String × Option Json) :=
  [("schema", some (.int v.schema)), ("compile", some v.compile.toValue),
    ("link", some v.link.toValue), ("loader", some v.loader.toValue),
    ("physical_device", some v.physicalDevice.toValue), ("render", some v.render.toValue)]

def toValue (v : OpenUsdVerification) : Json := object v.fields

theorem fromJson_toValue {v : OpenUsdVerification} (h : v.schema < 2 ^ 32) :
    fromJson v.toValue = some v := by
  have hkeys : distinctKeys v.fields := rfl
  refine Serde.bind_fields rfl ?_
  refine Serde.bind_required hkeys rfl (Serde.u32_int h) ?_
  refine Serde.bind_required hkeys rfl v.compile.fromJson_toValue ?_
  refine Serde.bind_required hkeys rfl v.link.fromJson_toValue ?_
  refine Serde.bind_required hkeys rfl v.loader.fromJson_toValue ?_
  refine Serde.bind_required hkeys rfl v.physicalDevice.fromJson_toValue ?_
  refine Serde.bind_required hkeys rfl v.render.fromJson_toValue ?_
  rfl

theorem schema_lt_of_fromJson {value : Json} {v : OpenUsdVerification}
    (h : fromJson value = some v) : v.schema < 2 ^ 32 := by
  obtain ⟨_, -, h⟩ := Serde.of_bind h
  obtain ⟨schema, hschema, h⟩ := Serde.of_bind h
  obtain ⟨_, -, h⟩ := Serde.of_bind h
  obtain ⟨_, -, h⟩ := Serde.of_bind h
  obtain ⟨_, -, h⟩ := Serde.of_bind h
  obtain ⟨_, -, h⟩ := Serde.of_bind h
  obtain ⟨_, -, h⟩ := Serde.of_bind h
  cases h
  exact Serde.lt_of_required_u32 hschema

end OpenUsdVerification

namespace ResolvedOpenUsdProvider

def fields (p : ResolvedOpenUsdProvider) : List (String × Option Json) :=
  [("family", some (.str p.family)), ("provider", some (.str p.provider)),
    ("version", p.version.map .str), ("version_constraint", some (.str p.versionConstraint))]

def toValue (p : ResolvedOpenUsdProvider) : Json := object p.fields

theorem fromJson_toValue (p : ResolvedOpenUsdProvider) : fromJson p.toValue = some p := by
  have hkeys : distinctKeys p.fields := rfl
  refine Serde.bind_fields rfl ?_
  refine Serde.bind_required hkeys rfl (Serde.string_str _) ?_
  refine Serde.bind_required hkeys rfl (Serde.string_str _) ?_
  refine Serde.bind_optional hkeys rfl (Serde.readOptional_string _) ?_
  refine Serde.bind_required hkeys rfl (Serde.string_str _) ?_
  rfl

end ResolvedOpenUsdProvider

namespace ResolvedOpenUsdToolchain

def fields (t : ResolvedOpenUsdToolchain) : List (String × Option Json) :=
  [("family", some (.str t.family)), ("provider", some (.str t.provider)),
    ("version", t.version.map .str), ("version_constraint", some (.str t.versionConstraint)),
    ("cxx_standard", some (.str t.cxxStandard)), ("runtime", some t.runtime.toValue)]

def toValue (t : ResolvedOpenUsdToolchain) : Json := object t.fields

theorem fromJson_toValue (t : ResolvedOpenUsdToolchain) : fromJson t.toValue = some t := by
  have hkeys : distinctKeys t.fields := rfl
  refine Serde.bind_fields rfl ?_
  refine Serde.bind_required hkeys rfl (Serde.string_str _) ?_
  refine Serde.bind_required hkeys rfl (Serde.string_str _) ?_
  refine Serde.bind_optional hkeys rfl (Serde.readOptional_string _) ?_
  refine Serde.bind_required hkeys rfl (Serde.string_str _) ?_
  refine Serde.bind_required hkeys rfl (Serde.string_str _) ?_
  refine Serde.bind_required hkeys rfl t.runtime.fromJson_toValue ?_
  rfl

end ResolvedOpenUsdToolchain

namespace ResolvedOpenUsdMacos

def fields (m : ResolvedOpenUsdMacos) : List (String × Option Json) :=
  [("sdk", some m.sdk.toValue), ("deployment_target", some (.str m.deploymentTarget))]

def toValue (m : ResolvedOpenUsdMacos) : Json := object m.fields

theorem fromJson_toValue (m : ResolvedOpenUsdMacos) : fromJson m.toValue = some m := by
  have hkeys : distinctKeys m.fields := rfl
  refine Serde.bind_fields rfl ?_
  refine Serde.bind_required hkeys rfl m.sdk.fromJson_toValue ?_
  refine Serde.bind_required hkeys rfl (Serde.string_str _) ?_
  rfl

end ResolvedOpenUsdMacos

namespace ResolvedOpenUsdCompatibility

def fields (c : ResolvedOpenUsdCompatibility) : List (String × Option Json) :=
  [("schema", some (.int c.schema)), ("platform", some (.str c.platform)),
    ("profile", c.profile.map .str), ("os", some c.os.toValue), ("arch", some c.arch.toValue),
    ("toolchain", some c.toolchain.toValue), ("python", some c.python.toValue),
    ("tbb", some c.tbb.toValue), ("variant", some c.variant.toValue),
    ("capabilities", some (.arr (c.capabilities.map .str))),
    ("producer_openusd_version", c.producerOpenusdVersion.map .str),
    ("consumer_openusd_constraint", c.consumerOpenusdConstraint.map .str),
    ("macos", c.macos.map (·.toValue))]

def toValue (c : ResolvedOpenUsdCompatibility) : Json := object c.fields

theorem fromJson_toValue {c : ResolvedOpenUsdCompatibility} (h : c.schema < 2 ^ 32) :
    fromJson c.toValue = some c := by
  have hkeys : distinctKeys c.fields := rfl
  refine Serde.bind_fields rfl ?_
  refine Serde.bind_required hkeys rfl (Serde.u32_int h) ?_
  refine Serde.bind_required hkeys rfl (Serde.string_str _) ?_
  refine Serde.bind_optional hkeys rfl (Serde.readOptional_string _) ?_
  refine Serde.bind_required hkeys rfl c.os.fromJson_toValue ?_
  refine Serde.bind_required hkeys rfl c.arch.fromJson_toValue ?_
  refine Serde.bind_required hkeys rfl c.toolchain.fromJson_toValue ?_
  refine Serde.bind_required hkeys rfl c.python.fromJson_toValue ?_
  refine Serde.bind_required hkeys rfl c.tbb.fromJson_toValue ?_
  refine Serde.bind_required hkeys rfl c.variant.fromJson_toValue ?_
  refine Serde.bind_required hkeys rfl (Serde.list_string _) ?_
  refine Serde.bind_optional hkeys rfl (Serde.readOptional_string _) ?_
  refine Serde.bind_optional hkeys rfl (Serde.readOptional_string _) ?_
  refine Serde.bind_optional hkeys rfl (Serde.readOptional_object fun m _ => m.fromJson_toValue) ?_
  rfl

theorem schema_lt_of_fromJson {value : Json} {c : ResolvedOpenUsdCompatibility}
    (h : fromJson value = some c) : c.schema < 2 ^ 32 := by
  obtain ⟨_, -, h⟩ := Serde.of_bind h
  obtain ⟨schema, hschema, h⟩ := Serde.of_bind h
  obtain ⟨_, -, h⟩ := Serde.of_bind h
  obtain ⟨_, -, h⟩ := Serde.of_bind h
  obtain ⟨_, -, h⟩ := Serde.of_bind h
  obtain ⟨_, -, h⟩ := Serde.of_bind h
  obtain ⟨_, -, h⟩ := Serde.of_bind h
  obtain ⟨_, -, h⟩ := Serde.of_bind h
  obtain ⟨_, -, h⟩ := Serde.of_bind h
  obtain ⟨_, -, h⟩ := Serde.of_bind h
  obtain ⟨_, -, h⟩ := Serde.of_bind h
  obtain ⟨_, -, h⟩ := Serde.of_bind h
  obtain ⟨_, -, h⟩ := Serde.of_bind h
  obtain ⟨_, -, h⟩ := Serde.of_bind h
  cases h
  exact Serde.lt_of_required_u32 hschema

end ResolvedOpenUsdCompatibility

namespace ResolvedSourceIdentity

def fields (s : ResolvedSourceIdentity) : List (String × Option Json) :=
  [("repository", some (.str s.repository)), ("revision", some (.str s.revision))]

def toValue (s : ResolvedSourceIdentity) : Json := object s.fields

theorem fromJson_toValue (s : ResolvedSourceIdentity) : fromJson s.toValue = some s := by
  have hkeys : distinctKeys s.fields := rfl
  refine Serde.bind_fields rfl ?_
  refine Serde.bind_required hkeys rfl (Serde.string_str _) ?_
  refine Serde.bind_required hkeys rfl (Serde.string_str _) ?_
  rfl

end ResolvedSourceIdentity

namespace ResolvedDependencyIdentity

def fields (d : ResolvedDependencyIdentity) : List (String × Option Json) :=
  [("name", some (.str d.name)), ("version", some (.str d.version)),
    ("source", some d.source.toValue), ("archive_digest", d.archiveDigest.map .str)]

def toValue (d : ResolvedDependencyIdentity) : Json := object d.fields

theorem fromJson_toValue (d : ResolvedDependencyIdentity) : fromJson d.toValue = some d := by
  have hkeys : distinctKeys d.fields := rfl
  refine Serde.bind_fields rfl ?_
  refine Serde.bind_required hkeys rfl (Serde.string_str _) ?_
  refine Serde.bind_required hkeys rfl (Serde.string_str _) ?_
  refine Serde.bind_required hkeys rfl d.source.fromJson_toValue ?_
  refine Serde.bind_optional hkeys rfl (Serde.readOptional_string _) ?_
  rfl

end ResolvedDependencyIdentity

/-! ## Contracts -/

def ComponentKind.toValue (kind : ComponentKind) : Json := .str kind.asStr

def EnvironmentOperation.toValue (operation : EnvironmentOperation) : Json := .str operation.asStr

theorem ComponentKind.fromJson_toValue (kind : ComponentKind) :
    ComponentKind.fromJson kind.toValue = some kind := by
  cases kind <;> rfl

theorem EnvironmentOperation.fromJson_toValue (operation : EnvironmentOperation) :
    EnvironmentOperation.fromJson operation.toValue = some operation := by
  cases operation <;> rfl

namespace CapabilityProvision

def fields (p : CapabilityProvision) : List (String × Option Json) :=
  [("capability", some (.str p.capability)), ("version", some (.str p.version)),
    ("singleton", some (.bool p.singleton))]

def toValue (p : CapabilityProvision) : Json := object p.fields

theorem fromJson_toValue (p : CapabilityProvision) : fromJson p.toValue = some p := by
  have hkeys : distinctKeys p.fields := rfl
  refine Serde.bind_fields rfl ?_
  refine Serde.bind_required hkeys rfl (Serde.string_str _) ?_
  refine Serde.bind_required hkeys rfl (Serde.string_str _) ?_
  refine Serde.bind_withDefault hkeys rfl (Serde.bool_bool _) ?_
  rfl

end CapabilityProvision

namespace CapabilityRequirement

def fields (r : CapabilityRequirement) : List (String × Option Json) :=
  [("capability", some (.str r.capability)), ("version", r.version.map .str),
    ("provider", r.provider.map .str)]

def toValue (r : CapabilityRequirement) : Json := object r.fields

theorem fromJson_toValue (r : CapabilityRequirement) : fromJson r.toValue = some r := by
  have hkeys : distinctKeys r.fields := rfl
  refine Serde.bind_fields rfl ?_
  refine Serde.bind_required hkeys rfl (Serde.string_str _) ?_
  refine Serde.bind_optional hkeys rfl (Serde.readOptional_string _) ?_
  refine Serde.bind_optional hkeys rfl (Serde.readOptional_string _) ?_
  rfl

end CapabilityRequirement

namespace EnvironmentContribution

def fields (e : EnvironmentContribution) : List (String × Option Json) :=
  [("variable", some (.str e.variableName)), ("operation", some e.operation.toValue),
    ("values", some (.arr (e.values.map .str)))]

def toValue (e : EnvironmentContribution) : Json := object e.fields

theorem fromJson_toValue (e : EnvironmentContribution) : fromJson e.toValue = some e := by
  have hkeys : distinctKeys e.fields := rfl
  refine Serde.bind_fields rfl ?_
  refine Serde.bind_required hkeys rfl (Serde.string_str _) ?_
  refine Serde.bind_required hkeys rfl e.operation.fromJson_toValue ?_
  refine Serde.bind_required hkeys rfl (Serde.list_string _) ?_
  rfl

end EnvironmentContribution

namespace InstallMapping

def fields (i : InstallMapping) : List (String × Option Json) :=
  [("source", some (.str i.source)), ("destination", some (.str i.destination))]

def toValue (i : InstallMapping) : Json := object i.fields

theorem fromJson_toValue (i : InstallMapping) : fromJson i.toValue = some i := by
  have hkeys : distinctKeys i.fields := rfl
  refine Serde.bind_fields rfl ?_
  refine Serde.bind_required hkeys rfl (Serde.string_str _) ?_
  refine Serde.bind_required hkeys rfl (Serde.string_str _) ?_
  rfl

end InstallMapping

namespace ComponentCompatibility

def fields (c : ComponentCompatibility) : List (String × Option Json) :=
  [("targets", unlessEmpty .str c.targets), ("abi", c.abi.map .str),
    ("openusd", c.openusd.map .str)]

def toValue (c : ComponentCompatibility) : Json := object c.fields

theorem fromJson_toValue (c : ComponentCompatibility) : fromJson c.toValue = some c := by
  have hkeys : distinctKeys c.fields := rfl
  refine Serde.bind_fields rfl ?_
  refine Serde.bind_withDefault hkeys rfl (Serde.readDefault_strings _) ?_
  refine Serde.bind_optional hkeys rfl (Serde.readOptional_string _) ?_
  refine Serde.bind_optional hkeys rfl (Serde.readOptional_string _) ?_
  rfl

end ComponentCompatibility

/-- An opaque field that was read is not `null`. -/
structure ComponentContract.Representable (c : ComponentContract) : Prop where
  cmake : c.cmake ≠ some .null
  dependencies : c.dependencies ≠ some .null

theorem Serde.readOptional_any {value : Option Json} (h : value ≠ some .null) :
    readOptional any value = some value := by
  have hread : readOptional any (value.map id) = some value := by
    refine readOptional_map (fun _ _ => rfl) fun a ha hnull => h ?_
    rw [ha]
    exact congrArg some hnull
  rwa [Option.map_id] at hread

/-- Compatibility with nothing in particular is skipped. -/
theorem ComponentCompatibility.readDefault_toValue (c : ComponentCompatibility) :
    Serde.readDefault .default fromJson (skipIf (c = .default) c.toValue) = some c := by
  by_cases h : c = .default
  · simp only [h, decide_true]
    rfl
  · simp only [h, decide_false]
    exact c.fromJson_toValue

namespace ComponentContract

def fields (c : ComponentContract) : List (String × Option Json) :=
  [("schema", some (.str c.schema)), ("id", some (.str c.id)), ("kind", some c.kind.toValue),
    ("version", some (.str c.version)),
    ("provides", unlessEmpty CapabilityProvision.toValue c.provides),
    ("requires", unlessEmpty CapabilityRequirement.toValue c.requires),
    ("environment", unlessEmpty EnvironmentContribution.toValue c.environment),
    ("install", unlessEmpty InstallMapping.toValue c.install),
    ("compatibility", skipIf (c.compatibility = .default) c.compatibility.toValue),
    ("descriptor", c.descriptor.map .str), ("descriptor_sha256", c.descriptorSha256.map .str),
    ("cmake", c.cmake), ("dependencies", c.dependencies)]

def toValue (c : ComponentContract) : Json := object c.fields

theorem fromJson_toValue {c : ComponentContract} (h : c.Representable) :
    fromJson c.toValue = some c := by
  have hkeys : distinctKeys c.fields := rfl
  refine Serde.bind_fields rfl ?_
  refine Serde.bind_required hkeys rfl (Serde.string_str _) ?_
  refine Serde.bind_required hkeys rfl (Serde.string_str _) ?_
  refine Serde.bind_required hkeys rfl c.kind.fromJson_toValue ?_
  refine Serde.bind_required hkeys rfl (Serde.string_str _) ?_
  refine Serde.bind_withDefault hkeys rfl
    (Serde.readDefault_unlessEmpty fun a _ => a.fromJson_toValue) ?_
  refine Serde.bind_withDefault hkeys rfl
    (Serde.readDefault_unlessEmpty fun a _ => a.fromJson_toValue) ?_
  refine Serde.bind_withDefault hkeys rfl
    (Serde.readDefault_unlessEmpty fun a _ => a.fromJson_toValue) ?_
  refine Serde.bind_withDefault hkeys rfl
    (Serde.readDefault_unlessEmpty fun a _ => a.fromJson_toValue) ?_
  refine Serde.bind_withDefault hkeys rfl c.compatibility.readDefault_toValue ?_
  refine Serde.bind_optional hkeys rfl (Serde.readOptional_string _) ?_
  refine Serde.bind_optional hkeys rfl (Serde.readOptional_string _) ?_
  refine Serde.bind_optional hkeys rfl (Serde.readOptional_any h.cmake) ?_
  refine Serde.bind_optional hkeys rfl (Serde.readOptional_any h.dependencies) ?_
  rfl

theorem representable_of_fromJson {value : Json} {c : ComponentContract}
    (h : fromJson value = some c) : c.Representable := by
  have hnull : ∀ {fs : List (String × Json)} {name : String} {field : Option Json},
      Serde.optional fs name Serde.any = some field → field ≠ some .null := by
    rintro fs name field hfield rfl
    obtain ⟨value, hne, hread⟩ := Serde.of_optional hfield
    exact hne (Option.some.inj hread)
  obtain ⟨_, -, h⟩ := Serde.of_bind h
  obtain ⟨_, -, h⟩ := Serde.of_bind h
  obtain ⟨_, -, h⟩ := Serde.of_bind h
  obtain ⟨_, -, h⟩ := Serde.of_bind h
  obtain ⟨_, -, h⟩ := Serde.of_bind h
  obtain ⟨_, -, h⟩ := Serde.of_bind h
  obtain ⟨_, -, h⟩ := Serde.of_bind h
  obtain ⟨_, -, h⟩ := Serde.of_bind h
  obtain ⟨_, -, h⟩ := Serde.of_bind h
  obtain ⟨_, -, h⟩ := Serde.of_bind h
  obtain ⟨_, -, h⟩ := Serde.of_bind h
  obtain ⟨_, -, h⟩ := Serde.of_bind h
  obtain ⟨cmake, hcmake, h⟩ := Serde.of_bind h
  obtain ⟨dependencies, hdependencies, h⟩ := Serde.of_bind h
  cases h
  exact ⟨hnull hcmake, hnull hdependencies⟩

end ComponentContract

/-! ## Records -/

namespace ManifestFile

def fields (f : ManifestFile) : List (String × Option Json) :=
  [("path", some (.str f.path)), ("sha256", some (.str f.sha256)), ("size", some (.int f.size)),
    ("link_target", f.linkTarget.map .str),
    ("executable", skipIf (!f.executable) (.bool f.executable))]

def toValue (f : ManifestFile) : Json := object f.fields

end ManifestFile

namespace ArtifactKind

def toValue (kind : ArtifactKind) : Json := .str kind.asStr

def fromJson : Json → Option ArtifactKind :=
  Serde.variant [("runtime", .runtime), ("composed-runtime", .composedRuntime),
    ("plugin", .plugin), ("product", .product), ("package", .package)]

theorem fromJson_toValue (kind : ArtifactKind) : fromJson kind.toValue = some kind := by
  cases kind <;> rfl

end ArtifactKind

namespace ArtifactSource

def asStr : ArtifactSource → String
  | .imported => "imported"
  | .published => "published"

def toValue (source : ArtifactSource) : Json := .str source.asStr

def fromJson : Json → Option ArtifactSource :=
  Serde.variant [("imported", .imported), ("published", .published)]

theorem fromJson_toValue (source : ArtifactSource) : fromJson source.toValue = some source := by
  cases source <;> rfl

end ArtifactSource

namespace TrustLevel

def toValue (trust : TrustLevel) : Json := .str trust.asStr

def fromJson : Json → Option TrustLevel :=
  Serde.variant [("local", .localOnly), ("unsigned", .unsigned), ("attested", .attested),
    ("verified", .verified), ("trusted", .trusted)]

theorem fromJson_toValue (trust : TrustLevel) : fromJson trust.toValue = some trust := by
  cases trust <;> rfl

end TrustLevel

namespace ArtifactRecord

def fields (r : ArtifactRecord) : List (String × Option Json) :=
  [("schema", some (.int r.schema)), ("kind", some r.kind.toValue), ("name", some (.str r.name)),
    ("version", some (.str r.version)), ("target", some (.str r.target)),
    ("profile", r.profile.map .str), ("digest", some (.str r.digest)),
    ("archive", some (.str r.archive)), ("archive_size", some (.int r.archiveSize)),
    ("total_size", some (.int r.totalSize)), ("file_count", some (.int r.fileCount)),
    ("created_unix", some (.int r.createdUnix)), ("producer", r.producer.map .str),
    ("imported_by", some (.str r.importedBy)), ("source", some r.source.toValue),
    ("trust", some r.trust.toValue), ("validation", some (.str r.validation)),
    ("licenses", some (.arr (r.licenses.map .str))), ("sbom", r.sbom.map .str),
    ("sbom_digest", r.sbomDigest.map .str), ("sbom_size", r.sbomSize.map fun n : Nat => .int n),
    ("provenance", r.provenance.map .str), ("provenance_digest", r.provenanceDigest.map .str),
    ("provenance_size", r.provenanceSize.map fun n : Nat => .int n),
    ("runtime_id", r.runtimeId.map .str), ("runtime_digest", r.runtimeDigest.map .str),
    ("openusd_compatibility", r.openusdCompatibility.map (·.toValue)),
    ("openusd_verification", r.openusdVerification.map (·.toValue)),
    ("source_identity", r.sourceIdentity.map (·.toValue)),
    ("dependency_identities",
      unlessEmpty ResolvedDependencyIdentity.toValue r.dependencyIdentities),
    ("component", r.component.map (·.toValue))]

def toValue (r : ArtifactRecord) : Json := object r.fields

def fromJson (value : Json) : Option ArtifactRecord := do
  let fs ← Serde.openFields
    ["schema", "kind", "name", "version", "target", "profile", "digest", "archive",
      "archive_size", "total_size", "file_count", "created_unix", "producer", "imported_by",
      "source", "trust", "validation", "licenses", "sbom", "sbom_digest", "sbom_size",
      "provenance", "provenance_digest", "provenance_size", "runtime_id", "runtime_digest",
      "openusd_compatibility", "openusd_verification", "source_identity",
      "dependency_identities", "component"] value
  return {
    schema := ← Serde.required fs "schema" Serde.u32
    kind := ← Serde.required fs "kind" ArtifactKind.fromJson
    name := ← Serde.required fs "name" Serde.string
    version := ← Serde.required fs "version" Serde.string
    target := ← Serde.required fs "target" Serde.string
    profile := ← Serde.optional fs "profile" Serde.string
    digest := ← Serde.required fs "digest" Serde.string
    archive := ← Serde.required fs "archive" Serde.string
    archiveSize := ← Serde.required fs "archive_size" Serde.u64
    totalSize := ← Serde.required fs "total_size" Serde.u64
    fileCount := ← Serde.required fs "file_count" Serde.u64
    createdUnix := ← Serde.required fs "created_unix" Serde.u64
    producer := ← Serde.optional fs "producer" Serde.string
    importedBy := ← Serde.withDefault fs "imported_by" "" Serde.string
    source := ← Serde.required fs "source" ArtifactSource.fromJson
    trust := ← Serde.withDefault fs "trust" .localOnly TrustLevel.fromJson
    validation := ← Serde.required fs "validation" Serde.string
    licenses := ← Serde.withDefault fs "licenses" [] (Serde.list Serde.string)
    sbom := ← Serde.optional fs "sbom" Serde.string
    sbomDigest := ← Serde.optional fs "sbom_digest" Serde.string
    sbomSize := ← Serde.optional fs "sbom_size" Serde.u64
    provenance := ← Serde.optional fs "provenance" Serde.string
    provenanceDigest := ← Serde.optional fs "provenance_digest" Serde.string
    provenanceSize := ← Serde.optional fs "provenance_size" Serde.u64
    runtimeId := ← Serde.optional fs "runtime_id" Serde.string
    runtimeDigest := ← Serde.optional fs "runtime_digest" Serde.string
    openusdCompatibility := ←
      Serde.optional fs "openusd_compatibility" ResolvedOpenUsdCompatibility.fromJson
    openusdVerification := ← Serde.optional fs "openusd_verification" OpenUsdVerification.fromJson
    sourceIdentity := ← Serde.optional fs "source_identity" ResolvedSourceIdentity.fromJson
    dependencyIdentities := ← Serde.withDefault fs "dependency_identities" []
      (Serde.list ResolvedDependencyIdentity.fromJson)
    component := ← Serde.optional fs "component" ComponentContract.fromJson }

/-- A record whose numbers fit the source's integers and whose opaque fields are not `null`. -/
structure Representable (r : ArtifactRecord) : Prop where
  schema : r.schema < 2 ^ 32
  archiveSize : r.archiveSize < 2 ^ 64
  totalSize : r.totalSize < 2 ^ 64
  fileCount : r.fileCount < 2 ^ 64
  createdUnix : r.createdUnix < 2 ^ 64
  sbomSize : ∀ n, r.sbomSize = some n → n < 2 ^ 64
  provenanceSize : ∀ n, r.provenanceSize = some n → n < 2 ^ 64
  compatibility : ∀ c, r.openusdCompatibility = some c → c.schema < 2 ^ 32
  verification : ∀ v, r.openusdVerification = some v → v.schema < 2 ^ 32
  component : ∀ c, r.component = some c → c.Representable

/-- A serialised record reads back as itself. -/
theorem fromJson_toValue {r : ArtifactRecord} (h : r.Representable) :
    fromJson r.toValue = some r := by
  have hkeys : distinctKeys r.fields := rfl
  unfold fromJson toValue
  refine Serde.bind_openFields ?_
  refine Serde.bind_required hkeys rfl (Serde.u32_int h.schema) ?_
  refine Serde.bind_required hkeys rfl r.kind.fromJson_toValue ?_
  refine Serde.bind_required hkeys rfl (Serde.string_str _) ?_
  refine Serde.bind_required hkeys rfl (Serde.string_str _) ?_
  refine Serde.bind_required hkeys rfl (Serde.string_str _) ?_
  refine Serde.bind_optional hkeys rfl (Serde.readOptional_string _) ?_
  refine Serde.bind_required hkeys rfl (Serde.string_str _) ?_
  refine Serde.bind_required hkeys rfl (Serde.string_str _) ?_
  refine Serde.bind_required hkeys rfl (Serde.u64_int h.archiveSize) ?_
  refine Serde.bind_required hkeys rfl (Serde.u64_int h.totalSize) ?_
  refine Serde.bind_required hkeys rfl (Serde.u64_int h.fileCount) ?_
  refine Serde.bind_required hkeys rfl (Serde.u64_int h.createdUnix) ?_
  refine Serde.bind_optional hkeys rfl (Serde.readOptional_string _) ?_
  refine Serde.bind_withDefault hkeys rfl (Serde.string_str _) ?_
  refine Serde.bind_required hkeys rfl r.source.fromJson_toValue ?_
  refine Serde.bind_withDefault hkeys rfl r.trust.fromJson_toValue ?_
  refine Serde.bind_required hkeys rfl (Serde.string_str _) ?_
  refine Serde.bind_withDefault hkeys rfl (Serde.list_string _) ?_
  refine Serde.bind_optional hkeys rfl (Serde.readOptional_string _) ?_
  refine Serde.bind_optional hkeys rfl (Serde.readOptional_string _) ?_
  refine Serde.bind_optional hkeys rfl (Serde.readOptional_u64 h.sbomSize) ?_
  refine Serde.bind_optional hkeys rfl (Serde.readOptional_string _) ?_
  refine Serde.bind_optional hkeys rfl (Serde.readOptional_string _) ?_
  refine Serde.bind_optional hkeys rfl (Serde.readOptional_u64 h.provenanceSize) ?_
  refine Serde.bind_optional hkeys rfl (Serde.readOptional_string _) ?_
  refine Serde.bind_optional hkeys rfl (Serde.readOptional_string _) ?_
  refine Serde.bind_optional hkeys rfl (Serde.readOptional_object fun c hc =>
    ResolvedOpenUsdCompatibility.fromJson_toValue (h.compatibility c hc)) ?_
  refine Serde.bind_optional hkeys rfl (Serde.readOptional_object fun v hv =>
    OpenUsdVerification.fromJson_toValue (h.verification v hv)) ?_
  refine Serde.bind_optional hkeys rfl (Serde.readOptional_object fun s _ => s.fromJson_toValue) ?_
  refine Serde.bind_withDefault hkeys rfl
    (Serde.readDefault_unlessEmpty fun d _ => d.fromJson_toValue) ?_
  refine Serde.bind_optional hkeys rfl (Serde.readOptional_object fun c hc =>
    ComponentContract.fromJson_toValue (h.component c hc)) ?_
  rfl

/-- A record that was read is representable. -/
theorem representable_of_fromJson {value : Json} {r : ArtifactRecord}
    (h : fromJson value = some r) : r.Representable := by
  obtain ⟨_, -, h⟩ := Serde.of_bind h
  obtain ⟨schema, hschema, h⟩ := Serde.of_bind h
  obtain ⟨_, -, h⟩ := Serde.of_bind h
  obtain ⟨_, -, h⟩ := Serde.of_bind h
  obtain ⟨_, -, h⟩ := Serde.of_bind h
  obtain ⟨_, -, h⟩ := Serde.of_bind h
  obtain ⟨_, -, h⟩ := Serde.of_bind h
  obtain ⟨_, -, h⟩ := Serde.of_bind h
  obtain ⟨_, -, h⟩ := Serde.of_bind h
  obtain ⟨archiveSize, harchive, h⟩ := Serde.of_bind h
  obtain ⟨totalSize, htotal, h⟩ := Serde.of_bind h
  obtain ⟨fileCount, hcount, h⟩ := Serde.of_bind h
  obtain ⟨createdUnix, hcreated, h⟩ := Serde.of_bind h
  obtain ⟨_, -, h⟩ := Serde.of_bind h
  obtain ⟨_, -, h⟩ := Serde.of_bind h
  obtain ⟨_, -, h⟩ := Serde.of_bind h
  obtain ⟨_, -, h⟩ := Serde.of_bind h
  obtain ⟨_, -, h⟩ := Serde.of_bind h
  obtain ⟨_, -, h⟩ := Serde.of_bind h
  obtain ⟨_, -, h⟩ := Serde.of_bind h
  obtain ⟨_, -, h⟩ := Serde.of_bind h
  obtain ⟨sbomSize, hsbom, h⟩ := Serde.of_bind h
  obtain ⟨_, -, h⟩ := Serde.of_bind h
  obtain ⟨_, -, h⟩ := Serde.of_bind h
  obtain ⟨provenanceSize, hprovenance, h⟩ := Serde.of_bind h
  obtain ⟨_, -, h⟩ := Serde.of_bind h
  obtain ⟨_, -, h⟩ := Serde.of_bind h
  obtain ⟨compatibility, hcompatibility, h⟩ := Serde.of_bind h
  obtain ⟨verification, hverification, h⟩ := Serde.of_bind h
  obtain ⟨_, -, h⟩ := Serde.of_bind h
  obtain ⟨_, -, h⟩ := Serde.of_bind h
  obtain ⟨component, hcomponent, h⟩ := Serde.of_bind h
  cases h
  exact {
    schema := Serde.lt_of_required_u32 hschema
    archiveSize := Serde.lt_of_required_u64 harchive
    totalSize := Serde.lt_of_required_u64 htotal
    fileCount := Serde.lt_of_required_u64 hcount
    createdUnix := Serde.lt_of_required_u64 hcreated
    sbomSize := Serde.lt_of_optional_u64 hsbom
    provenanceSize := Serde.lt_of_optional_u64 hprovenance
    compatibility := by
      rintro c rfl
      obtain ⟨value, -, hread⟩ := Serde.of_optional hcompatibility
      exact ResolvedOpenUsdCompatibility.schema_lt_of_fromJson hread
    verification := by
      rintro v rfl
      obtain ⟨value, -, hread⟩ := Serde.of_optional hverification
      exact OpenUsdVerification.schema_lt_of_fromJson hread
    component := by
      rintro c rfl
      obtain ⟨value, -, hread⟩ := Serde.of_optional hcomponent
      exact ComponentContract.representable_of_fromJson hread }

/-- Writing a record that was read loses nothing, and what cannot be read stays so. -/
theorem fromJson_rewritten (value : Json) :
    ((fromJson value).bind fun r => fromJson r.toValue) = fromJson value := by
  cases h : fromJson value with
  | none => rfl
  | some r => exact fromJson_toValue (representable_of_fromJson h)

end ArtifactRecord

end OpenStrata
