import OpenStrata.Artifact.RecordJson
import OpenStrata.Core.Digest

/-!
# Formation manifests

A Formation declares a runtime, components and a command, each artifact pinned by its digest.

## Main definitions

* `FormationManifest`: the declaration
* `FormationManifest.validate`: its checks
* `FormationManifest.digest`: the digest of its serialised form

## Main results

* `FormationManifest.valid_of_validate`: what a validated declaration satisfies
-/

namespace OpenStrata.Formation

open Serde (struct)

def FORMATION_SCHEMA : String := "openstrata.formation/v1alpha1"

structure FormationHeader where
  name : String
  deriving DecidableEq, Repr

structure RuntimeRef where
  artifact : String
  deriving DecidableEq, Repr

/-- A third-party host pinned to its observed install. -/
structure HostRef where
  id : String
  fingerprint : String
  deriving DecidableEq, Repr

/-- What a component is declared to be. -/
inductive ComponentKind
  | plugin
  | renderer
  | hostAddon
  deriving DecidableEq, Repr

def ComponentKind.asStr : ComponentKind → String
  | .plugin => "plugin"
  | .renderer => "renderer"
  | .hostAddon => "host-addon"

structure ComponentRef where
  id : String
  kind : ComponentKind
  artifact : String
  deriving DecidableEq, Repr

structure CommandSpec where
  program : String
  args : List String
  deriving DecidableEq, Repr

structure FormationManifest where
  schema : String
  formation : FormationHeader
  runtime : RuntimeRef
  host : Option HostRef
  components : List ComponentRef
  command : CommandSpec
  deriving DecidableEq, Repr

def isIdChar (c : Char) : Bool := c.isAlphanum || c == '-' || c == '_' || c == '.'

def isId (value : String) : Bool := !value.isEmpty && Text.all isIdChar value

def validateId (field value : String) : Result Unit :=
  Result.failIf (¬ isId value)
    (.config (field ++ " must use only ASCII letters, digits, '.', '-' or '_'"))

/-- Components in order, each well formed and none declared again. -/
def validateComponents : List String → List ComponentRef → Result Unit
  | _, [] => .ok ()
  | seen, component :: rest => do
    validateId "components.id" component.id
    validateFullDigest ("component '" ++ component.id ++ "'.artifact") component.artifact
    Result.failIf (component.id ∈ seen) (.ofCode "FORMATION_COMPONENT_CONFLICT" .configuration
      ("component id '" ++ component.id ++ "' is declared more than once"))
    validateComponents (component.id :: seen) rest

namespace FormationManifest

def validate (m : FormationManifest) : Result Unit := do
  Result.failIf (m.schema ≠ FORMATION_SCHEMA)
    (.config ("unsupported Formation schema '" ++ m.schema ++ "' (expected '" ++
      FORMATION_SCHEMA ++ "')"))
  validateId "formation.name" m.formation.name
  validateFullDigest "runtime.artifact" m.runtime.artifact
  m.host.elim (.ok ()) fun host => do
    validateId "host.id" host.id
    validateFullDigest "host.fingerprint" host.fingerprint
  Result.failIf ((Text.trim m.command.program).isEmpty)
    (.config "command.program must not be empty")
  validateComponents [] m.components

def hostValue (host : HostRef) : Json :=
  struct [("id", some (.str host.id)), ("fingerprint", some (.str host.fingerprint))]

def componentValue (component : ComponentRef) : Json :=
  struct [("id", some (.str component.id)), ("kind", some (.str component.kind.asStr)),
    ("artifact", some (.str component.artifact))]

def commandValue (command : CommandSpec) : Json :=
  struct [("program", some (.str command.program)),
    ("args", some (.arr (command.args.map .str)))]

def toValue (m : FormationManifest) : Json :=
  struct [("schema", some (.str m.schema)),
    ("formation", some (struct [("name", some (.str m.formation.name))])),
    ("runtime", some (struct [("artifact", some (.str m.runtime.artifact))])),
    ("host", m.host.map hostValue), ("components", some (.arr (m.components.map componentValue))),
    ("command", some (commandValue m.command))]

def digest (codec : Codec) (m : FormationManifest) : String :=
  sha256Hex codec (jsonBytes m.toValue)

/-- What the checks establish about the components. -/
structure Valid (m : FormationManifest) : Prop where
  ids : ∀ component ∈ m.components, isId component.id
  distinct : (m.components.map ComponentRef.id).Nodup

theorem validateComponents_ok {components : List ComponentRef} : ∀ {seen : List String},
    validateComponents seen components = .ok () →
      (∀ component ∈ components, isId component.id ∧ component.id ∉ seen) ∧
        (components.map ComponentRef.id).Nodup := by
  induction components with
  | nil => exact fun _ => ⟨nofun, List.nodup_nil⟩
  | cons component rest ih =>
    intro seen h
    simp only [validateComponents, validateId, Result.bind_ok, Result.failIf_ok, not_not] at h
    obtain ⟨⟨⟩, hid, ⟨⟩, -, ⟨⟩, hfresh, hrest⟩ := h
    obtain ⟨hall, hnodup⟩ := ih hrest
    refine ⟨List.forall_mem_cons.mpr ⟨⟨hid, hfresh⟩, fun c hc => ?_⟩,
      List.nodup_cons.mpr ⟨?_, hnodup⟩⟩
    · obtain ⟨hcid, hcfresh⟩ := hall c hc
      exact ⟨hcid, fun hmem => hcfresh (List.mem_cons_of_mem _ hmem)⟩
    · intro hmem
      obtain ⟨c, hc, heq⟩ := List.mem_map.mp hmem
      exact (hall c hc).2 (heq ▸ List.mem_cons_self)

theorem valid_of_validate {m : FormationManifest} (h : m.validate = .ok ()) : m.Valid := by
  simp only [validate, Result.bind_ok] at h
  obtain ⟨⟨⟩, -, ⟨⟩, -, ⟨⟩, -, ⟨⟩, -, ⟨⟩, -, hcomponents⟩ := h
  obtain ⟨hall, hnodup⟩ := validateComponents_ok hcomponents
  exact ⟨fun c hc => (hall c hc).1, hnodup⟩

end FormationManifest

end OpenStrata.Formation
