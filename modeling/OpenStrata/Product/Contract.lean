import OpenStrata.Artifact.Record
import OpenStrata.Core.Segments

/-!
# Product contracts

A plugin product carries packaged members, bundles and tools, each under a destination of its
kind. A bundle may embed copies of the bundles that it depends on; where the product has such a
bundle as a member of its own, the embedded copy is internal.

## Main definitions

* `PluginProductContract`: the contract of a product
* `safeProductJoin`: the check of a path below a product
* `internalProductBundleDependencies`: the members that each member embeds
* `withoutInternalBundlePaths`: paths without those of internal copies
-/

namespace OpenStrata.Product

/-! ## Data -/

inductive ProductMemberKind
  | bundle
  | tool
  deriving DecidableEq, Repr

structure PluginProductDebug where
  archive : String
  archiveDigest : String
  archiveSize : Nat
  deriving DecidableEq, Repr

structure PluginProductMember where
  id : String
  position : Nat
  member : ProductMemberKind
  /-- Where the member installs, if the product says so. -/
  declaredDestination : Option String
  /-- Loader directories of a tool, relative to its root. -/
  paths : List String
  name : String
  version : String
  kind : String
  archive : String
  archiveDigest : String
  archiveSize : Nat
  manifest : String
  checksums : String
  evidence : List String
  debug : Option PluginProductDebug
  dependencies : Json
  deriving DecidableEq, Repr

namespace PluginProductMember

def isTool (member : PluginProductMember) : Bool := member.member == .tool

def destination (member : PluginProductMember) : String :=
  member.declaredDestination.getD ("bundles/" ++ member.id)

end PluginProductMember

structure PluginProductDataFile where
  source : String
  destination : String
  sha256 : String
  size : Nat
  deriving DecidableEq, Repr

structure PluginProductInstall where
  layout : String
  order : List String
  contract : String
  os : Option String
  destination : String
  activation : String
  deriving DecidableEq, Repr

structure PluginProductContract where
  schema : String
  name : String
  version : String
  target : String
  install : PluginProductInstall
  members : List PluginProductMember
  data : List PluginProductDataFile
  deriving DecidableEq, Repr

/-! ## Reading -/

def ProductMemberKind.fromJson : Json → Option ProductMemberKind :=
  Serde.variant [("bundle", .bundle), ("tool", .tool)]

def PluginProductDebug.fromJson (value : Json) : Option PluginProductDebug := do
  let fs ← Serde.fields ["archive", "archive_digest", "archive_size"] value
  return {
    archive := ← Serde.required fs "archive" Serde.string
    archiveDigest := ← Serde.required fs "archive_digest" Serde.string
    archiveSize := ← Serde.required fs "archive_size" Serde.u64 }

def PluginProductMember.fromJson (value : Json) : Option PluginProductMember := do
  let fs ← Serde.fields ["id", "position", "member", "destination", "paths", "name", "version",
    "kind", "archive", "archive_digest", "archive_size", "manifest", "checksums", "evidence",
    "debug", "dependencies"] value
  return {
    id := ← Serde.required fs "id" Serde.string
    position := ← Serde.required fs "position" Serde.u64
    member := ← Serde.withDefault fs "member" .bundle ProductMemberKind.fromJson
    declaredDestination := ← Serde.optional fs "destination" Serde.string
    paths := ← Serde.withDefault fs "paths" [] (Serde.list Serde.string)
    name := ← Serde.required fs "name" Serde.string
    version := ← Serde.required fs "version" Serde.string
    kind := ← Serde.required fs "kind" Serde.string
    archive := ← Serde.required fs "archive" Serde.string
    archiveDigest := ← Serde.required fs "archive_digest" Serde.string
    archiveSize := ← Serde.required fs "archive_size" Serde.u64
    manifest := ← Serde.required fs "manifest" Serde.string
    checksums := ← Serde.required fs "checksums" Serde.string
    evidence := ← Serde.required fs "evidence" (Serde.list Serde.string)
    -- the newtype is transparent, so an absent field reads like `null`
    debug := ← Serde.optional fs "debug" PluginProductDebug.fromJson
    dependencies := ← Serde.required fs "dependencies" Serde.any }

def PluginProductDataFile.fromJson (value : Json) : Option PluginProductDataFile := do
  let fs ← Serde.fields ["source", "destination", "sha256", "size"] value
  return {
    source := ← Serde.required fs "source" Serde.string
    destination := ← Serde.required fs "destination" Serde.string
    sha256 := ← Serde.required fs "sha256" Serde.string
    size := ← Serde.required fs "size" Serde.u64 }

def PluginProductInstall.fromJson (value : Json) : Option PluginProductInstall := do
  let fs ← Serde.fields ["layout", "order", "contract", "os", "destination", "activation"] value
  return {
    layout := ← Serde.required fs "layout" Serde.string
    order := ← Serde.required fs "order" (Serde.list Serde.string)
    contract := ← Serde.required fs "contract" Serde.string
    os := ← Serde.optional fs "os" Serde.string
    destination := ← Serde.withDefault fs "destination" "bundles/<bundle-id>/" Serde.string
    activation := ←
      Serde.withDefault fs "activation" "openstrata.activation.json" Serde.string }

def PluginProductContract.fromJson (value : Json) : Option PluginProductContract := do
  let fs ← Serde.fields ["schema", "name", "version", "target", "install", "members", "data"] value
  return {
    schema := ← Serde.required fs "schema" Serde.string
    name := ← Serde.required fs "name" Serde.string
    version := ← Serde.required fs "version" Serde.string
    target := ← Serde.required fs "target" Serde.string
    install := ← Serde.required fs "install" PluginProductInstall.fromJson
    members := ← Serde.required fs "members" (Serde.list PluginProductMember.fromJson)
    data := ← Serde.withDefault fs "data" [] (Serde.list PluginProductDataFile.fromJson) }

/-! ## Paths -/

/-- A path below a root: ordinary segments without backslashes and colons. -/
def isProductPath (relative : String) : Bool :=
  (Text.segments relative).all Text.isOrdinary && !Text.containsChar '\\' relative &&
    !Text.containsChar ':' relative

/-- The check of a path that is joined to a root; the path itself stands for the joined one. -/
def safeProductJoin (relative field : String) : Result String :=
  if isProductPath relative then .ok relative
  else .error (.validation (field ++ " must be a portable path below the product root, got '" ++
    relative ++ "'"))

/-! ## Internal copies -/

/-- What a loaded bundle says about itself. -/
structure BundleIdentity where
  name : String
  version : String
  kind : String
  /-- The contract number of a schema bundle. -/
  contract : Option Nat
  deriving DecidableEq, Repr

/-- The identity that a dependency is recorded with. -/
def recordedIdentity (dependency : Json) :
    Option String × Option String × Option String × Option Nat :=
  (dependency.getStr? "id", dependency.getStr? "version", dependency.getStr? "kind",
    (dependency.index "contract").asU64?)

def BundleIdentity.recorded (bundle : BundleIdentity) :
    Option String × Option String × Option String × Option Nat :=
  (some bundle.name, some bundle.version, some bundle.kind, bundle.contract)

/-- `{:?}` of an optional text; characters that need escaping are written as they are. -/
def debugText : Option String → String
  | some text => "Some(\"" ++ text ++ "\")"
  | none => "None"

/-- `{:?}` of an identity. -/
def debugIdentity (identity : Option String × Option String × Option String × Option Nat) :
    String :=
  "(" ++ debugText identity.1 ++ ", " ++ debugText identity.2.1 ++ ", " ++
    debugText identity.2.2.1 ++ ", " ++
    (identity.2.2.2.elim "None" fun n => "Some(" ++ toString n ++ ")") ++ ")"

def identityMismatch (consumer id : String) (dependency : Json) (bundle : BundleIdentity) :
    Error :=
  .ofCode "PLUGIN_PRODUCT_BUNDLE_IDENTITY_MISMATCH" .validation
    ("product member '" ++ consumer ++ "' requires bundle '" ++ id ++ "' as " ++
      debugIdentity (recordedIdentity dependency) ++ ", but the product provides " ++
      debugIdentity bundle.recorded)

/-- The member that provides a bundle; the last of an id counts. -/
def provider (contract : PluginProductContract) (id : String) : Option PluginProductMember :=
  (contract.members.filter fun member => !member.isTool).reverse.find? fun member => member.id == id

/-- The recorded bundle dependencies of a consumer in order, those that are members kept. -/
def internalDependencies (contract : PluginProductContract)
    (load : PluginProductMember → Result BundleIdentity) (consumer : PluginProductMember) :
    List String → List Json → Result (List String)
  | _, [] => .ok []
  | seen, dependency :: rest => do
    let id ← Result.okOr (.validation ("product member '" ++ consumer.id ++
      "' has a bundle dependency without an id")) (dependency.getStr? "id")
    Result.failIf (id ∈ seen) (.validation ("product member '" ++ consumer.id ++
      "' repeats bundle dependency '" ++ id ++ "'"))
    let internal ← (provider contract id).elim (.ok []) fun provider => do
      let bundle ← (load provider).mapError fun error => .validation ("product member '" ++
        consumer.id ++ "' cannot load bundle provider '" ++ id ++ "': " ++ error.message)
      Result.failIf (recordedIdentity dependency ≠ bundle.recorded ∨
        provider.version ≠ bundle.version ∨ provider.kind ≠ bundle.kind)
        (identityMismatch consumer.id id dependency bundle)
      return [id]
    let others ← internalDependencies contract load consumer (id :: seen) rest
    return internal ++ others

/-- The members that a member embeds. -/
def internalOfMember (contract : PluginProductContract)
    (load : PluginProductMember → Result BundleIdentity) (consumer : PluginProductMember) :
    Result (List String) :=
  if consumer.isTool then .ok []
  else (consumer.dependencies.get? "bundles").elim (.ok []) fun bundles => do
    let bundles ← Result.okOr (.validation ("product member '" ++ consumer.id ++
      "' dependencies.bundles must be an array")) bundles.asArr?
    internalDependencies contract load consumer [] bundles

/-- The members that each member embeds, by position. -/
def internalProductBundleDependencies (contract : PluginProductContract)
    (load : PluginProductMember → Result BundleIdentity) : Result (List (List String)) :=
  contract.members.mapM (internalOfMember contract load)

/-- The id of the embedded bundle that a path goes into. -/
def embeddedId (path : String) : Option String :=
  (Text.stripPrefix "runtime/bundles/" path).bind fun tail => (Text.segments tail).head?

def withoutInternalBundlePaths (paths internal : List String) : List String :=
  paths.filter fun path => (embeddedId path).all fun id => !internal.contains id

/-! ## Validation -/

/-- The schema of product contracts. -/
def PRODUCT_SCHEMA : String := "openstrata.plugin-product/v1alpha1"

/-- `{:?}` of a list of texts. -/
def debugList (texts : List String) : String :=
  "[" ++ Text.join ", " (texts.map fun text => "\"" ++ text ++ "\"") ++ "]"

/-- A full digest: the prefix and 64 hexadecimal digits of either case. -/
def isFullDigest (digest : String) : Bool :=
  (Text.stripPrefix "sha256:" digest).any fun hex =>
    hex.length == 64 && Text.all Text.isHexDigit hex

def validateSha256Digest (digest field : String) : Result Unit :=
  Result.failIf (¬ isFullDigest digest)
    (.validation (field ++ " must be a full sha256:<64 hex> digest"))

/-- Where a member of a kind installs below a product. -/
def ProductMemberKind.root : ProductMemberKind → String
  | .bundle => "bundles"
  | .tool => "tools"

def validateProductMemberIdentity (member : PluginProductMember) : Result Unit := do
  Result.failIf (member.id.isEmpty ∨ member.id ≠ member.name ∨ ¬ Text.all isPortableIdChar member.id)
    (.validation ("plugin product member id/name must be one matching portable identity, got id='" ++
      member.id ++ "' name='" ++ member.name ++ "'"))
  Result.forAll (fun (field, value) => Result.failIf (Text.trim value).isEmpty
      (.validation ("product member '" ++ member.id ++ "' " ++ field ++ " must not be empty")))
    [("version", member.version), ("kind", member.kind)]
  -- the destination is joined to the prefix of an installation
  let destination ← safeProductJoin member.destination
    ("product member '" ++ member.id ++ "' destination")
  Result.failIf (destination ≠ member.member.root ++ "/" ++ member.id)
    (.validation ("product member '" ++ member.id ++ "' destination '" ++ destination ++
      "' is not '" ++ member.member.root ++ "/" ++ member.id ++ "'"))
  Result.failIf (member.paths ≠ [] ∧ ¬ member.isTool)
    (.validation ("product member '" ++ member.id ++
      "' declares loader paths, which only a tool member does " ++
      "(a bundle carries its own activation contract)"))
  validateSha256Digest member.archiveDigest ("product member '" ++ member.id ++ "' archive_digest")
  Result.failIf (member.evidence = [])
    (.validation ("product member '" ++ member.id ++ "' must carry at least one evidence file"))
  Result.failIf (member.dependencies ≠ .null ∧ ¬ member.dependencies.isObject)
    (.validation ("product member '" ++ member.id ++ "' dependencies must be an object or null"))
  member.debug.elim (.ok ()) fun debug =>
    validateSha256Digest debug.archiveDigest
      ("product member '" ++ member.id ++ "' debug archive_digest")

/-- The members in order, each at its position and none of an id already seen. -/
def validateProductMembers : List String → Nat → List PluginProductMember → Result Unit
  | _, _, [] => .ok ()
  | ids, position, member :: rest => do
    validateProductMemberIdentity member
    Result.failIf (member.position ≠ position)
      (.validation ("product member '" ++ member.id ++ "' has position " ++
        toString member.position ++ ", expected " ++ toString position))
    Result.failIf (member.id ∈ ids)
      (.validation ("plugin product repeats member id '" ++ member.id ++ "'"))
    validateProductMembers (member.id :: ids) (position + 1) rest

/-- The data files in order, none of a source or a destination already seen. -/
def validateProductDataFrom : List String → List String → List PluginProductDataFile → Result Unit
  | _, _, [] => .ok ()
  | sources, destinations, file :: rest => do
    let _ ← safeProductJoin file.source "product data source"
    let _ ← safeProductJoin file.destination "product data destination"
    Result.failIf (¬ Text.startsWith "data/" file.source)
      (.validation ("product data source '" ++ file.source ++ "' must stay below data/"))
    Result.failIf (¬ Text.startsWith "share/" file.destination)
      (.validation ("product data destination '" ++ file.destination ++
        "' must stay below share/"))
    Result.failIf (file.source ∈ sources)
      (.validation ("plugin product repeats data source '" ++ file.source ++ "'"))
    Result.failIf (file.destination ∈ destinations)
      (.ofCode "PRODUCT_DATA_DESTINATION_COLLISION" .validation
        ("plugin product repeats data destination '" ++ file.destination ++ "'"))
    validateSha256Digest file.sha256 "product data sha256"
    validateProductDataFrom (file.source :: sources) (file.destination :: destinations) rest

def validateProductData (files : List PluginProductDataFile) : Result Unit :=
  validateProductDataFrom [] [] files

def validateProductContract (contract : PluginProductContract) : Result Unit := do
  Result.failIf (contract.schema ≠ PRODUCT_SCHEMA)
    (.config ("unsupported plugin product schema '" ++ contract.schema ++ "'"))
  Result.forAll (fun (field, value) => Result.failIf (Text.trim value).isEmpty
      (.validation ("plugin product " ++ field ++ " must not be empty")))
    [("name", contract.name), ("version", contract.version), ("target", contract.target)]
  -- the second is how older products write the first
  Result.failIf (contract.install.layout ∉ ["members/<member-id>/", "members/<bundle-id>/"])
    (.validation ("unsupported product archive layout '" ++ contract.install.layout ++ "'"))
  Result.failIf (contract.install.destination ≠ "bundles/<bundle-id>/")
    (.validation ("unsupported product installation layout '" ++
      contract.install.destination ++ "'"))
  Result.failIf (contract.install.activation ≠ "openstrata.activation.json")
    (.validation ("unsupported product activation contract '" ++
      contract.install.activation ++ "'"))
  Result.failIf (Text.trim contract.install.contract).isEmpty
    (.validation "plugin product install.contract must not be empty")
  Result.failIf (contract.members = [])
    (.validation "plugin product must contain at least one member")
  validateProductMembers [] 0 contract.members
  Result.failIf (contract.install.order ≠ contract.members.map (·.id))
    (.validation ("plugin product install order " ++ debugList contract.install.order ++
      " does not match member order " ++ debugList (contract.members.map (·.id))))
  validateProductData contract.data

@[simp] theorem safeProductJoin_ok {relative field path : String} :
    safeProductJoin relative field = .ok path ↔ isProductPath relative ∧ relative = path := by
  unfold safeProductJoin
  split <;> simp_all

/-- What a member of a valid product satisfies. -/
structure PluginProductMember.Valid (member : PluginProductMember) : Prop where
  id : isPortableId member.id
  name : member.id = member.name
  path : isProductPath member.destination
  destination : member.destination = member.member.root ++ "/" ++ member.id
  paths : ¬ member.isTool → member.paths = []
  evidence : member.evidence ≠ []

theorem validateProductMemberIdentity_ok {member : PluginProductMember} {u : Unit}
    (h : validateProductMemberIdentity member = .ok u) : member.Valid := by
  simp only [validateProductMemberIdentity, Result.bind_ok, Result.failIf_ok, safeProductJoin_ok,
    not_or, not_not] at h
  obtain ⟨⟨⟩, ⟨hne, hname, hid⟩, ⟨⟩, -, path, ⟨hpath, rfl⟩, ⟨⟩, hdestination, ⟨⟩, hpaths, ⟨⟩, -, ⟨⟩,
    hevidence, -⟩ := h
  exact {
    id := by simpa [isPortableId, hid] using hne
    name := hname
    path := hpath
    destination := hdestination
    paths := fun htool => by_contra fun hne => hpaths ⟨hne, htool⟩
    evidence := hevidence }

theorem validateProductMembers_ok {members : List PluginProductMember} {u : Unit} :
    ∀ {ids : List String} {position : Nat}, validateProductMembers ids position members = .ok u →
      (∀ member ∈ members, member.Valid ∧ member.id ∉ ids) ∧
        (members.map PluginProductMember.id).Nodup := by
  induction members with
  | nil =>
    intro ids position h
    exact ⟨fun member hmember => absurd hmember List.not_mem_nil, List.nodup_nil⟩
  | cons member rest ih =>
    intro ids position h
    simp only [validateProductMembers, Result.bind_ok, Result.failIf_ok] at h
    obtain ⟨⟨⟩, hidentity, ⟨⟩, -, ⟨⟩, hid, hrest⟩ := h
    obtain ⟨hall, hnodup⟩ := ih hrest
    refine ⟨List.forall_mem_cons.mpr ⟨⟨validateProductMemberIdentity_ok hidentity, hid⟩,
      fun other hother => ⟨(hall other hother).1, fun hmem => ?_⟩⟩, ?_⟩
    · exact (hall other hother).2 (List.mem_cons_of_mem _ hmem)
    · rw [List.map_cons, List.nodup_cons]
      refine ⟨fun hmem => ?_, hnodup⟩
      obtain ⟨other, hother, heq⟩ := List.mem_map.mp hmem
      exact (hall other hother).2 (heq ▸ List.mem_cons_self)

/-- A valid product has valid members of different ids, and its data lies below its roots. -/
theorem validateProductContract_ok {contract : PluginProductContract} {u : Unit}
    (h : validateProductContract contract = .ok u) :
    (∀ member ∈ contract.members, member.Valid) ∧
      (contract.members.map PluginProductMember.id).Nodup ∧
      validateProductData contract.data = .ok () := by
  simp only [validateProductContract, Result.bind_ok, Result.failIf_ok] at h
  obtain ⟨⟨⟩, -, ⟨⟩, -, ⟨⟩, -, ⟨⟩, -, ⟨⟩, -, ⟨⟩, -, ⟨⟩, -, ⟨⟩, hmembers, ⟨⟩, -, hdata⟩ := h
  obtain ⟨hall, hnodup⟩ := validateProductMembers_ok hmembers
  exact ⟨fun member hmember => (hall member hmember).1, hnodup, hdata⟩

end OpenStrata.Product
