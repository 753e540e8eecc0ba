import OpenStrata.Core.Error
import OpenStrata.Core.Segments
import OpenStrata.Platform.OpenUsd

/-!
# OpenUSD requirements

The consumer cell a requirement `PLATFORM/OS/ARCH/VARIANT` selects from the platform catalog. Of
a platform manifest only the approved cells are kept, and of a resolved cell its coordinates: the
versions of its providers play no part in reading a requirement.

## Main definitions

* `OpenUsdCell`, `Platform`: the approved cells of a platform
* `Catalog`: the loaded platforms, keyed by their ids
* `resolveOpenusdRequirement`: the reading of a requirement

## Main results

* `resolveOpenusdRequirement_ok`: an accepted requirement is its coordinates, joined by slashes
-/

namespace OpenStrata

/-- An approved cell of a platform with its variants. -/
structure OpenUsdCell where
  os : Os
  arch : Arch
  variants : List OpenUsdVariantId
  deriving DecidableEq, Repr

structure Platform where
  id : String
  openusd : Option (List OpenUsdCell)
  deriving DecidableEq, Repr

/-- The loaded platforms; loading reads the user's overlay and can fail. -/
abbrev Catalog := Result (List Platform)

/-- The coordinates of a resolved cell. -/
structure OpenUsdRequirement where
  platform : String
  os : Os
  arch : Arch
  variant : OpenUsdVariantId
  deriving DecidableEq, Repr

def Platform.resolveOpenusd (p : Platform) (os : Os) (arch : Arch)
    (variant : OpenUsdVariantId) : Option OpenUsdRequirement := do
  let cells ← p.openusd
  let cell ← cells.find? fun cell => cell.os = os ∧ cell.arch = arch
  let found ← cell.variants.find? (· = variant)
  return { platform := p.id, os, arch, variant := found }

/-- Load a single platform by id. -/
def loadOne (catalog : Catalog) (id : String) : Result Platform := do
  let platforms ← catalog
  Result.okOr (.ofCode "PLATFORM_NOT_FOUND" .usage
    ("platform '" ++ id ++ "' not found (try `ost platform list`)"))
    (platforms.find? (·.id = id))

def requirementOs (value : String) : Result Os :=
  Result.okOr (.usage ("unknown OpenUSD requirement OS '" ++ value ++
    "' (expected linux, macos, or windows)"))
    ([("linux", Os.linux), ("macos", .macos), ("windows", .windows)].lookup value)

def requirementArch (value : String) : Result Arch :=
  Result.okOr (.usage ("unknown OpenUSD requirement architecture '" ++ value ++
    "' (expected x86_64 or arm64)"))
    ([("x86_64", Arch.x86_64), ("arm64", .arm64)].lookup value)

/-- The legacy spellings `headless` and `standard` select their canonical variants. -/
def requirementVariant (value : String) : Result OpenUsdVariantId :=
  Result.okOr (.usage ("unknown OpenUSD requirement variant '" ++ value ++
    "' (expected core, gl, vulkan, or metal)"))
    ([("core", OpenUsdVariantId.core), ("headless", .core), ("gl", .gl), ("standard", .gl),
      ("vulkan", .vulkan), ("metal", .metal)].lookup value)

/-- Read a requirement `PLATFORM/OS/ARCH/VARIANT` against the catalog. -/
def resolveOpenusdRequirement (catalog : Catalog) (value : String) : Result OpenUsdRequirement :=
  match Text.segments value with
  | [platformId, osName, archName, variantName] => do
    Result.failIf ("" ∈ [platformId, osName, archName, variantName]) malformed
    let os ← requirementOs osName
    let arch ← requirementArch archName
    let variant ← requirementVariant variantName
    let platform ← loadOne catalog platformId
    Result.okOr ((Error.usage ("platform '" ++ platform.id ++ "' declares no approved OpenUSD " ++
      os.asStr ++ "/" ++ arch.asStr ++ " '" ++ variant.asStr ++ "' cell")).withHint
      "choose a cell declared in the platform manifest's openusd matrix")
      (platform.resolveOpenusd os arch variant)
  | _ => .error malformed
where
  /-- The refusal of a requirement that is not four non-empty segments. -/
  malformed : Error :=
    .usage ("invalid OpenUSD requirement '" ++ value ++
      "' (expected PLATFORM/OS/ARCH/VARIANT, for example cy2026/linux/x86_64/vulkan)")

theorem Platform.platform_of_resolveOpenusd {p : Platform} {os : Os} {arch : Arch}
    {variant : OpenUsdVariantId} {required : OpenUsdRequirement}
    (h : p.resolveOpenusd os arch variant = some required) : required.platform = p.id := by
  simp only [Platform.resolveOpenusd, Option.bind_eq_bind, Option.bind_eq_some_iff] at h
  obtain ⟨cells, -, cell, -, found, -, heq⟩ := h
  cases heq
  rfl

theorem id_of_loadOne {catalog : Catalog} {id : String} {p : Platform}
    (h : loadOne catalog id = .ok p) : p.id = id := by
  obtain ⟨platforms, -, hfind⟩ := Result.bind_ok.mp h
  simpa using List.find?_some (Result.okOr_ok.mp hfind)

theorem mem_of_lookup {α β : Type} [BEq α] [LawfulBEq α] {l : List (α × β)} {a : α} {b : β}
    (h : l.lookup a = some b) : (a, b) ∈ l := by
  obtain ⟨before, after, rfl, -⟩ := List.lookup_eq_some_iff.mp h
  simp

/-- An accepted requirement is its platform's id and three words of a fixed vocabulary, joined by
slashes. -/
theorem resolveOpenusdRequirement_ok {catalog : Catalog} {value : String}
    {required : OpenUsdRequirement} (h : resolveOpenusdRequirement catalog value = .ok required) :
    ∃ os arch variant, value = Text.join "/" [required.platform, os, arch, variant] ∧
      os ∈ ["linux", "macos", "windows"] ∧ arch ∈ ["x86_64", "arm64"] ∧
      variant ∈ ["core", "headless", "gl", "standard", "vulkan", "metal"] := by
  unfold resolveOpenusdRequirement at h
  split at h
  next platformId osName archName variantName hsegments =>
    obtain ⟨-, -, h⟩ := Result.bind_ok.mp h
    obtain ⟨os, hos, h⟩ := Result.bind_ok.mp h
    obtain ⟨arch, harch, h⟩ := Result.bind_ok.mp h
    obtain ⟨variant, hvariant, h⟩ := Result.bind_ok.mp h
    obtain ⟨platform, hload, h⟩ := Result.bind_ok.mp h
    have hplatform : required.platform = platformId :=
      (Platform.platform_of_resolveOpenusd (Result.okOr_ok.mp h)).trans (id_of_loadOne hload)
    refine ⟨osName, archName, variantName, ?_, ?_, ?_, ?_⟩
    · rw [hplatform, ← hsegments, Text.join_segments]
    · have := mem_of_lookup (Result.okOr_ok.mp hos)
      aesop
    · have := mem_of_lookup (Result.okOr_ok.mp harch)
      aesop
    · have := mem_of_lookup (Result.okOr_ok.mp hvariant)
      aesop
  next => cases h

end OpenStrata
