import OpenStrata.Lib.LinkWalk
import OpenStrata.Plugin.Identifier
import OpenStrata.Plugin.Workspace

/-!
# Paths of a bundle

Loading a bundle checks every path that its manifest declares: as a text, and in the file system,
where the deepest part of the path that exists must lead to the bundle. Looking at the whole path
does not follow a link at its end, so a link whose target is missing is refused. A separator or a
dot after the link makes the system follow it; then the target is what is missing, and the check
goes on above the link.

## Main definitions

* `checkExistingBundlePath`: the check in the file system
* `load`: a bundle with its checked manifest
* `LeadsInside`: a path leads into the bundle, with what is missing appended
* `EndsAtLink`: a path ends in a separator or a dot after a link

## Main results

* `leadsInside_iff`: the declared paths of a loaded bundle lead inside exactly when those do that
  end in a separator or a dot after a link
-/

namespace OpenStrata.Plugin.BundlePaths

open LinkWalk hiding Tree
open Golden (SmokeFixture Tests checkFileFormatArguments checkSafeRelative)
open Path (isComponent)

/-! ## The file system -/

/-- What the system makes of a part of a path. -/
def stepOf (part : String) : Step String :=
  if part = "" ∨ part = "." then .here else if part = ".." then .up else .name part

/-- The nodes of the system, the directory that relative paths start in, and how many links are
followed on one walk. -/
structure FileSystem where
  tree : LinkWalk.Tree String
  named : ∀ {location : List String} {n : String}, tree.node (location ++ [n]) ≠ none →
    stepOf n = .name n
  cwd : List String
  links : Nat

namespace FileSystem

variable (fs : FileSystem)

/-- `fs::symlink_metadata`: an absolute path, by its parts. -/
def symlinkMetadata (parts : List String) : Walked String :=
  walk fs.tree false fs.links [] (parts.map stepOf)

/-- `fs::canonicalize`. -/
def canonicalize (parts : List String) : Walked String :=
  walk fs.tree true fs.links [] (parts.map stepOf)

/-- `Path::is_file`. -/
def isFile (parts : List String) : Bool :=
  match fs.canonicalize parts with
  | .found location _ => fs.tree.node location == some .file
  | .notFound | .notDirectory | .loop => false

/-- The parts of a path from the root of the system. -/
def absolute (path : String) : List String :=
  match Text.stripPrefix "/" path with
  | some rest => Text.segments rest
  | none => fs.cwd ++ Text.segments path

end FileSystem

def errorText : Walked String → String
  | .found _ _ => ""
  | .notFound => "No such file or directory (os error 2)"
  | .notDirectory => "Not a directory (os error 20)"
  | .loop => "Too many levels of symbolic links (os error 40)"

/-- The text of an absolute path. -/
def pathText (parts : List String) : String := "/" ++ Text.join "/" parts

/-- The parts without those at the end that are no components. -/
def trimmed (parts : List String) : List String := parts.rdropWhile fun part => !isComponent part

/-- `Utf8PathBuf::pop`. -/
def pop (parts : List String) : Option (List String) :=
  if trimmed parts = [] then none else some (trimmed (trimmed parts).dropLast)

theorem length_pop {parts shorter : List String} (h : pop parts = some shorter) :
    shorter.length < parts.length := by
  unfold pop at h
  split at h
  · cases h
  · next hne =>
    obtain rfl := Option.some.inj h
    have hparts : (trimmed parts).length ≤ parts.length := (List.rdropWhile_prefix _ _).length_le
    have hdrop : (trimmed (trimmed parts).dropLast).length ≤ (trimmed parts).dropLast.length :=
      (List.rdropWhile_prefix _ _).length_le
    have hpos := List.length_pos_iff.mpr hne
    rw [List.length_dropLast] at hdrop
    omega

/-! ## Loading -/

section Check

variable (fs : FileSystem) (root : List String) (field rel : String)

/-- The loop of `check_existing_bundle_path`, from a path to its deepest part that exists. -/
def checkProbe (probe : List String) : Result Unit :=
  match fs.symlinkMetadata probe with
  | .found _ _ =>
    match fs.canonicalize probe with
    | .found canonical _ => Result.failIf (¬root <+: canonical)
        (.config (field ++ ": '" ++ rel ++ "' resolves outside the bundle root to '" ++
          pathText canonical ++ "'"))
    | failure => .error (.config (field ++ ": '" ++ rel ++
        "' cannot be resolved safely inside the bundle: " ++ errorText failure))
  | .notFound =>
    if probe.filter isComponent = root then .ok ()
    else
      match _h : pop probe with
      | none => .ok ()
      | some shorter => checkProbe shorter
  | .notDirectory | .loop => .error (.io (pathText probe))
termination_by probe.length
decreasing_by exact length_pop _h

/-- `check_existing_bundle_path`. -/
def checkExistingBundlePath : Result Unit :=
  checkProbe fs root field rel (root ++ Text.segments rel)

/-- Both checks of a declared path. -/
def checkPath : Result Unit := do
  checkSafeRelative field rel
  checkExistingBundlePath fs root field rel

end Check

def PLUGIN_MANIFEST : String := "openstrata.plugin.yaml"

def PLUGIN_SCHEMA : String := "openstrata.plugin/v1alpha1"

structure BundleRequires extends Requires where
  capabilities : List String
  runtimeLibs : List String
  runtimePluginPaths : List String
  /-- The fields that this version does not know. -/
  unknownKeys : List String

structure BundleSchema extends SchemaSection where
  source : Option String

/-- What loading reads of a plugin manifest. -/
structure BundleManifest where
  /-- `manifest.schema`, when there is a header. -/
  header : Option String
  kind : PluginKind
  /-- `usd.plug_info`. -/
  plugInfo : String
  tests : Tests
  requires : BundleRequires
  notices : List String
  schema : Option BundleSchema

structure LoadedBundle where
  root : List String
  manifest : BundleManifest

/-- What a manifest needs for the fields that it uses. -/
def checkHeader (manifest : BundleManifest) : Result Unit := do
  let usesComposition : Bool := !manifest.requires.bundles.isEmpty ||
    !manifest.requires.libraries.isEmpty || !manifest.requires.tools.isEmpty ||
    (manifest.schema.bind (·.contract)).isSome
  match manifest.header with
  | some schema =>
    Result.failIf (schema ≠ PLUGIN_SCHEMA)
      (.config ("manifest.schema '" ++ schema ++ "' is unsupported (expected '" ++
        PLUGIN_SCHEMA ++ "')"))
  | none =>
    Result.failIf usesComposition
      (.config ("bundle composition fields need manifest.schema: " ++ PLUGIN_SCHEMA))
  Result.failIf (manifest.header.isSome ∧ manifest.requires.unknownKeys ≠ [])
    (.config ("versioned plugin manifest contains unknown field(s): " ++
      Text.join ", " (manifest.requires.unknownKeys.map ("requires." ++ ·)) ++
      " (allowed below requires: capabilities, components, runtime_libs, " ++
      "runtime_plugin_paths, bundles, libraries, tools)"))
  Result.failIf (manifest.kind = .usdviewPlugin ∧ "usdview" ∉ manifest.requires.capabilities)
    (.config "usdview-plugin bundles must declare `requires.capabilities: [usdview]`")

/-- `canonicalize_root`. -/
def canonicalizeRoot (fs : FileSystem) (dir : String) : Result (List String) :=
  match fs.canonicalize (fs.absolute dir) with
  | .found root _ => .ok root
  | .notFound | .notDirectory | .loop => .error (.io dir)

/-- `Bundle::load`, with what reading and parsing the manifest comes to. -/
def load (fs : FileSystem) (dir : String) (parsed : Result BundleManifest) :
    Result LoadedBundle := do
  Result.failIf (¬fs.isFile (fs.absolute dir ++ [PLUGIN_MANIFEST]))
    (.operation ("no " ++ PLUGIN_MANIFEST ++ " in '" ++ dir ++
      "' (is this a plugin bundle? try `ost plugin new`)"))
  let root ← canonicalizeRoot fs dir
  checkExistingBundlePath fs root PLUGIN_MANIFEST PLUGIN_MANIFEST
  let manifest ← parsed
  checkHeader manifest
  checkPath fs root "usd.plug_info" manifest.plugInfo
  Result.forAll (checkPath fs root "test fixture") manifest.tests.allFixtures
  Result.forAll checkFileFormatArguments manifest.tests.smoke
  Result.forAll (checkPath fs root "requires.runtime_libs") manifest.requires.runtimeLibs
  Result.forAll (checkPath fs root "requires.runtime_plugin_paths")
    manifest.requires.runtimePluginPaths
  Result.forAll (checkPath fs root "notices") manifest.notices
  Result.forAll (checkPath fs root "schema.source") (manifest.schema.bind (·.source)).toList
  return ⟨root, manifest⟩

/-- The paths that a manifest declares. -/
def declaredPaths (manifest : BundleManifest) : List String :=
  manifest.plugInfo :: (manifest.tests.allFixtures ++ manifest.requires.runtimeLibs ++
    manifest.requires.runtimePluginPaths ++ manifest.notices ++
    (manifest.schema.bind (·.source)).toList)

/-! ## Where paths lead -/

/-- A path leads into the bundle, with the names that are missing appended. -/
def LeadsInside (fs : FileSystem) (root : List String) (rel : String) : Prop :=
  ∃ location, Leads fs.tree [] ((root ++ Text.segments rel).map stepOf) location ∧
    root <+: location

/-- A path ends in separators or dots, after the name of a link. -/
def EndsAtLink (fs : FileSystem) (root : List String) (rel : String) : Prop :=
  ∃ lead name tail, Text.segments rel = lead ++ name :: tail ∧ isComponent name ∧ tail ≠ [] ∧
    (∀ part ∈ tail, isComponent part = false) ∧
    ∃ location absolute target, Leads fs.tree [] ((root ++ lead).map stepOf) location ∧
      fs.tree.node (location ++ [name]) = some (.link absolute target)

/-! ## Parts of a path -/

section Parts

variable {t : LinkWalk.Tree String} {fs : FileSystem} {follow : Bool} {links : Nat}
  {root parts rest : List String} {location l : List String} {name part rel : String}

theorem stepOf_of_not_component (h : isComponent part = false) : stepOf part = .here := by
  unfold isComponent at h
  rw [stepOf, if_pos]
  by_contra hne
  rw [not_or] at hne
  simp [hne.1, hne.2] at h

theorem stepOf_of_component (h : isComponent part) (hup : part ≠ "..") :
    stepOf part = .name part := by
  unfold isComponent at h
  have hne : part ≠ "" ∧ part ≠ "." := by simpa using h
  rw [stepOf, if_neg (not_or.mpr hne), if_neg hup]

theorem component_of_stepOf (h : stepOf part = .name part) : isComponent part := by
  by_contra hpart
  rw [stepOf_of_not_component (by simpa using hpart)] at h
  cases h

/-- Parts that are no components only need a directory. -/
theorem walk_skip (h : ∀ part ∈ parts, isComponent part = false)
    (hdir : isDirectory (t.node location)) {steps : List (Step String)} :
    walk t follow links location (parts.map stepOf ++ steps) =
      walk t follow links location steps := by
  induction parts with
  | nil => rfl
  | cons part parts ih =>
    rw [List.map_cons, List.cons_append, stepOf_of_not_component (h part List.mem_cons_self),
      walk_here hdir, ih fun part hpart => h part (List.mem_cons_of_mem _ hpart)]

theorem leads_skip (h : ∀ part ∈ parts, isComponent part = false) (location : List String) :
    Leads t location (parts.map stepOf) location := by
  induction parts with
  | nil => exact .nil _
  | cons part parts ih =>
    rw [List.map_cons, stepOf_of_not_component (h part List.mem_cons_self)]
    exact .here (ih fun part hpart => h part (List.mem_cons_of_mem _ hpart))

theorem trimmed_append (parts : List String) :
    ∃ tail, parts = trimmed parts ++ tail ∧ ∀ part ∈ tail, isComponent part = false := by
  refine ⟨parts.rtakeWhile fun part => !isComponent part,
    List.rdropWhile_append_rtakeWhile.symm, fun part hpart => ?_⟩
  simpa using List.mem_rtakeWhile_imp hpart

theorem trimmed_skip (h : ∀ part ∈ rest, isComponent part = false) (parts : List String) :
    trimmed (parts ++ rest) = trimmed parts := by
  induction rest using List.reverseRecOn with
  | nil => rw [List.append_nil]
  | append_singleton rest part ih =>
    rw [trimmed, ← List.append_assoc, List.rdropWhile_concat_pos _ _ _ (by simp [h part])]
    exact ih fun part hpart => h part (List.mem_append_left _ hpart)

theorem trimmed_snoc (h : isComponent part) (parts : List String) :
    trimmed (parts ++ [part]) = parts ++ [part] :=
  List.rdropWhile_concat_neg _ _ _ (by simp [h])

theorem trimmed_trimmed (parts : List String) : trimmed (trimmed parts) = trimmed parts :=
  List.rdropWhile_idempotent _ _

theorem component_last (h : trimmed parts = rest ++ [name]) : isComponent name := by
  by_contra hname
  have hself := trimmed_trimmed parts
  rw [h, trimmed_skip (by simpa using hname)] at hself
  have hlength := congrArg List.length hself
  have hle : (trimmed rest).length ≤ rest.length := (List.rdropWhile_prefix _ _).length_le
  rw [List.length_append, List.length_singleton] at hlength
  omega

/-- Trimming a path below components stays below them. -/
theorem trimmed_below (hroot : ∀ name ∈ root, isComponent name) (parts : List String) :
    trimmed (root ++ parts) = root ++ trimmed parts := by
  induction parts using List.reverseRecOn with
  | nil =>
    rw [List.append_nil, trimmed, trimmed, List.rdropWhile_nil, List.append_nil,
      List.rdropWhile_eq_self_iff]
    intro hne
    simp [hroot _ (List.getLast_mem hne)]
  | append_singleton parts part ih =>
    rw [← List.append_assoc]
    by_cases hpart : isComponent part
    · rw [trimmed_snoc hpart, trimmed_snoc hpart, List.append_assoc]
    · have hskip : ∀ other ∈ [part], isComponent other = false := by simpa using hpart
      rw [trimmed_skip hskip, trimmed_skip hskip, ih]

/-- Taking a component off a path leaves what stands in front of it. -/
theorem pop_append (hroot : ∀ name ∈ root, isComponent name) (hname : isComponent name)
    (htail : ∀ part ∈ rest, isComponent part = false) (lead : List String) :
    pop (root ++ (lead ++ name :: rest)) = some (root ++ trimmed lead) := by
  have hbody : trimmed (root ++ (lead ++ name :: rest)) = root ++ (lead ++ [name]) := by
    rw [trimmed_below hroot, List.append_cons, trimmed_skip htail, trimmed_snoc hname]
  rw [pop, hbody, if_neg (by simp), ← List.append_assoc, List.dropLast_concat,
    trimmed_below hroot]

end Parts

/-! ## The probe -/

section Probe

variable {fs : FileSystem} {root parts lead rest probe : List String} {field rel name : String}

/-- The names of a canonical location are its steps. -/
theorem steps_of_canonical {location : List String} (h : Canonical fs.tree location) :
    location.map stepOf = location.map .name := by
  refine List.map_congr_left fun n hn => ?_
  obtain ⟨above, below, rfl⟩ := List.append_of_mem hn
  have hstands : fs.tree.node (above ++ [n]) ≠ none := by
    intro hnone
    have hnode := h (above ++ [n]) ⟨below, by simp⟩
    rw [hnone] at hnode
    cases hnode
  exact fs.named hstands

theorem component_of_canonical (h : Canonical fs.tree root) : ∀ n ∈ root, isComponent n := by
  intro n hn
  have hstep := List.map_inj_left.mp (steps_of_canonical h) n hn
  exact component_of_stepOf hstep

/-- A path that was accepted: it leads inside, to a node or to a place where none is. -/
def Reached (fs : FileSystem) (root parts : List String) : Prop :=
  ∃ location, root <+: location ∧
    ((∃ left, fs.canonicalize (root ++ parts) = .found location left) ∨
      (Leads fs.tree [] ((root ++ parts).map stepOf) location ∧
        fs.tree.node location = none))

/-- What is missing behind a path that was reached is missing at its place, or follows a link. -/
theorem Reached.next (h : Reached fs root (trimmed lead)) (hname : isComponent name)
    (hup : name ≠ "..") (hrest : ∀ part ∈ rest, isComponent part = false)
    (hmissing : fs.symlinkMetadata (root ++ (lead ++ name :: rest)) = .notFound) :
    (∃ location, root <+: location ∧
      Leads fs.tree [] ((root ++ (lead ++ name :: rest)).map stepOf) location ∧
        fs.tree.node location = none) ∨
    (rest ≠ [] ∧ ∃ location absolute target,
      Leads fs.tree [] ((root ++ lead).map stepOf) location ∧
        fs.tree.node (location ++ [name]) = some (.link absolute target)) := by
  obtain ⟨tail, hlead, htail⟩ := trimmed_append lead
  have hsteps : (root ++ (lead ++ name :: rest)).map stepOf =
      (root ++ trimmed lead).map stepOf ++ (tail.map stepOf ++ .name name :: rest.map stepOf) := by
    conv_lhs => rw [hlead]
    simp [stepOf_of_component hname hup]
  have hlast : ∀ location, Leads fs.tree [] ((root ++ trimmed lead).map stepOf) location →
      fs.tree.node (location ++ [name]) = none →
      Leads fs.tree [] ((root ++ (lead ++ name :: rest)).map stepOf) (location ++ [name]) := by
    intro location hleads hnone
    rw [hsteps]
    refine hleads.append ((leads_skip htail location).append (.enter ?_ (leads_skip hrest _)))
    rw [hnone]
    rfl
  obtain ⟨location, hinside, ⟨left, hfound⟩ | ⟨hleads, hnone⟩⟩ := h
  · rw [FileSystem.symlinkMetadata, hsteps, walk_append (by simp)] at hmissing
    rw [FileSystem.canonicalize] at hfound
    rw [hfound, Walked.andThen] at hmissing
    have hdir : isDirectory (fs.tree.node location) := by
      by_contra hdir
      obtain ⟨step, steps, hcons⟩ := List.exists_cons_of_ne_nil
        (show tail.map stepOf ++ .name name :: rest.map stepOf ≠ [] by simp)
      rw [hcons, walk_stuck hdir] at hmissing
      cases hmissing
    rw [walk_skip htail hdir] at hmissing
    cases hnode : fs.tree.node (location ++ [name]) with
    | none => exact .inl ⟨_, hinside.trans (List.prefix_append _ _),
        hlast location (leads_of_walk hfound) hnode, hnode⟩
    | some node =>
      cases node with
      | directory =>
        have hstands : isDirectory (fs.tree.node (location ++ [name])) := by rw [hnode]; rfl
        rw [walk_enter hdir (by rw [hnode]; rfl), ← List.append_nil (rest.map stepOf),
          walk_skip hrest hstands, walk_nil] at hmissing
        cases hmissing
      | file =>
        rw [walk_enter hdir (by rw [hnode]; rfl)] at hmissing
        cases rest with
        | nil =>
          rw [List.map_nil, walk_nil] at hmissing
          cases hmissing
        | cons part rest =>
          rw [List.map_cons, walk_stuck (by rw [hnode]; exact Bool.false_ne_true)] at hmissing
          cases hmissing
      | link absolute target =>
        cases rest with
        | nil =>
          rw [List.map_nil, walk_link hdir hnode] at hmissing
          cases hmissing
        | cons part rest =>
          refine .inr ⟨List.cons_ne_nil _ _, location, absolute, target, ?_, hnode⟩
          rw [hlead, ← List.append_assoc, List.map_append]
          exact (leads_of_walk hfound).append (leads_skip htail location)
  · have hname := node_append_of_none hnone [name]
    exact .inl ⟨_, hinside.trans (List.prefix_append _ _), hlast location hleads hname, hname⟩

/-- One round of the check, at a path that ends in a component and what may follow it. -/
theorem checkProbe_ok (hroot : Canonical fs.tree root) (hname : isComponent name)
    (hrest : ∀ part ∈ rest, isComponent part = false)
    (h : checkProbe fs root field rel (root ++ (lead ++ name :: rest)) = .ok ()) :
    (∃ location left, root <+: location ∧
      fs.canonicalize (root ++ (lead ++ name :: rest)) = .found location left) ∨
    (fs.symlinkMetadata (root ++ (lead ++ name :: rest)) = .notFound ∧
      checkProbe fs root field rel (root ++ trimmed lead) = .ok ()) := by
  have hcomponents := component_of_canonical hroot
  rw [checkProbe] at h
  cases hstat : fs.symlinkMetadata (root ++ (lead ++ name :: rest)) with
  | found location left =>
    rw [hstat] at h
    cases hcanonical : fs.canonicalize (root ++ (lead ++ name :: rest)) with
    | found canonical links =>
      simp only [hcanonical, Result.failIf_ok, not_not] at h
      exact .inl ⟨canonical, links, h, rfl⟩
    | notFound => simp [hcanonical] at h
    | notDirectory => simp [hcanonical] at h
    | loop => simp [hcanonical] at h
  | notFound =>
    refine .inr ⟨rfl, ?_⟩
    have hlonger : (root ++ (lead ++ name :: rest)).filter isComponent ≠ root := by
      intro heq
      have hlength := congrArg List.length heq
      rw [List.filter_append, List.filter_eq_self.mpr hcomponents, List.filter_append,
        List.filter_cons_of_pos hname] at hlength
      simp at hlength
    simp only [hstat, if_neg hlonger] at h
    split at h
    · next hpop =>
      rw [pop_append hcomponents hname hrest] at hpop
      cases hpop
    · next shorter hpop =>
      rw [pop_append hcomponents hname hrest] at hpop
      cases hpop
      exact h
  | notDirectory =>
    rw [hstat] at h
    cases h
  | loop =>
    rw [hstat] at h
    cases h

/-- An accepted path that ends in a component was reached. -/
theorem reached_of_checkProbe (hroot : Canonical fs.tree root) (hup : ".." ∉ parts)
    (h : checkProbe fs root field rel (root ++ trimmed parts) = .ok ()) :
    Reached fs root (trimmed parts) := by
  induction hn : parts.length using Nat.strong_induction_on generalizing parts with
  | _ n ih =>
    rcases List.eq_nil_or_concat (trimmed parts) with hnil | ⟨lead, name, hbody⟩
    · -- the root itself
      refine ⟨root, List.prefix_rfl, .inl ⟨fs.links, ?_⟩⟩
      rw [hnil, List.append_nil, FileSystem.canonicalize, steps_of_canonical hroot]
      exact walk_canonical true fs.links hroot
    · rw [List.concat_eq_append] at hbody
      have hmem : ∀ part ∈ lead ++ [name], part ∈ parts := fun part hpart =>
        (List.rdropWhile_prefix _ _).mem (hbody ▸ hpart)
      have hname := component_last hbody
      have hnameup : name ≠ ".." := fun heq => hup (heq ▸ hmem name (by simp))
      rw [hbody] at h ⊢
      rcases checkProbe_ok hroot hname (by simp) h with
        ⟨location, left, hinside, hfound⟩ | ⟨hmissing, hlead⟩
      · exact ⟨location, hinside, .inl ⟨left, hfound⟩⟩
      · have hshorter : lead.length < n := by
          have hle : (trimmed parts).length ≤ parts.length :=
            (List.rdropWhile_prefix _ _).length_le
          rw [hbody, List.length_append, List.length_singleton] at hle
          omega
        have hreached := ih lead.length hshorter
          (fun hmem' => hup (hmem _ (List.mem_append_left _ hmem'))) hlead rfl
        rcases hreached.next hname hnameup (by simp) hmissing with
          ⟨location, hinside, hleads⟩ | ⟨hne, -⟩
        · exact ⟨location, hinside, .inr hleads⟩
        · exact absurd rfl hne

/-- An accepted path leads inside when the link that it may end at does. -/
theorem leadsInside_of_checkProbe (hroot : Canonical fs.tree root)
    (hup : ".." ∉ Text.segments rel)
    (h : checkExistingBundlePath fs root field rel = .ok ())
    (hlink : EndsAtLink fs root rel → LeadsInside fs root rel) : LeadsInside fs root rel := by
  obtain ⟨tail, hparts, htail⟩ := trimmed_append (Text.segments rel)
  rcases List.eq_nil_or_concat (trimmed (Text.segments rel)) with hnil | ⟨lead, name, hbody⟩
  · -- only separators and dots
    refine ⟨root, ?_, List.prefix_rfl⟩
    rw [hparts, hnil, List.nil_append, List.map_append, steps_of_canonical hroot]
    exact (leads_of_walk (walk_canonical true 0 hroot)).append
      (leads_skip htail _)
  · rw [List.concat_eq_append] at hbody
    have hname := component_last hbody
    have hsegments : Text.segments rel = lead ++ name :: tail := by
      rw [hparts, hbody, List.append_assoc, List.singleton_append]
    have hnameup : name ≠ ".." := fun heq => hup (by simp [hsegments, heq])
    rw [checkExistingBundlePath, hsegments] at h
    rcases checkProbe_ok hroot hname htail h with
      ⟨location, left, hinside, hfound⟩ | ⟨hmissing, hlead⟩
    · exact ⟨location, by rw [hsegments]; exact leads_of_walk hfound, hinside⟩
    · have hreached := reached_of_checkProbe hroot
        (fun hmem => hup (by simp [hsegments, hmem])) hlead
      rcases hreached.next hname hnameup htail hmissing with
        ⟨location, hinside, hleads, -⟩ | ⟨hne, location, absolute, target, hleads, hnode⟩
      · exact ⟨location, by rw [hsegments]; exact hleads, hinside⟩
      · exact hlink ⟨lead, name, tail, hsegments, hname, hne, htail, location, absolute, target,
          hleads, hnode⟩

end Probe

/-! ## Loaded bundles -/

/-- Splitting at two kinds of separators keeps the parts that have none of the second kind. -/
theorem splitOnP_or (p q : Char → Bool) (cs : List Char) :
    ∃ first rest first' rest', cs.splitOnP p = first :: rest ∧
      cs.splitOnP (fun c => p c || q c) = first' :: rest' ∧
      ((∀ c ∈ first, q c = false) → first' = first) ∧
      ∀ part ∈ rest, (∀ c ∈ part, q c = false) → part ∈ rest' := by
  induction cs with
  | nil => exact ⟨[], [], [], [], rfl, rfl, fun _ => rfl, by simp⟩
  | cons c cs ih =>
    obtain ⟨first, rest, first', rest', hsplit, hsplit', hfirst, hrest⟩ := ih
    rw [List.splitOnP_cons_eq_if_modifyHead, List.splitOnP_cons_eq_if_modifyHead, hsplit, hsplit']
    have hkept : ∀ part ∈ first :: rest, (∀ c ∈ part, q c = false) → part ∈ first' :: rest' := by
      intro part hpart hq
      rcases List.mem_cons.mp hpart with rfl | hpart
      · rw [hfirst hq]
        exact List.mem_cons_self
      · exact List.mem_cons_of_mem _ (hrest part hpart hq)
    by_cases hp : p c
    · exact ⟨[], first :: rest, [], first' :: rest', by simp [hp], by simp [hp], fun _ => rfl,
        hkept⟩
    · by_cases hqc : q c
      · -- the part is split here
        refine ⟨c :: first, rest, [], first' :: rest', by simp [hp], by simp [hqc], ?_,
          fun part hpart => hkept part (List.mem_cons_of_mem _ hpart)⟩
        intro hq
        rw [hq c List.mem_cons_self] at hqc
        cases hqc
      · refine ⟨c :: first, rest, c :: first', rest', by simp [hp], by simp [hp, hqc], ?_, hrest⟩
        intro hq
        rw [hfirst fun d hd => hq d (List.mem_cons_of_mem _ hd)]

theorem mem_splitOnP_or (p q : Char → Bool) {part cs : List Char} (h : part ∈ cs.splitOnP p)
    (hq : ∀ c ∈ part, q c = false) : part ∈ cs.splitOnP fun c => p c || q c := by
  obtain ⟨first, rest, first', rest', hsplit, hsplit', hfirst, hrest⟩ := splitOnP_or p q cs
  rw [hsplit] at h
  rw [hsplit']
  rcases List.mem_cons.mp h with rfl | h
  · rw [hfirst hq]
    exact List.mem_cons_self
  · exact List.mem_cons_of_mem _ (hrest part h hq)

section Load

variable {fs : FileSystem} {dir rel field : String} {parsed : Result BundleManifest}
  {bundle : LoadedBundle} {root : List String}

theorem up_not_mem_of_safe (h : checkSafeRelative field rel = .ok ()) :
    ".." ∉ Text.segments rel := by
  intro hmem
  obtain ⟨⟨⟩, -, h⟩ := Result.bind_ok.mp h
  obtain ⟨⟨⟩, -, h⟩ := Result.bind_ok.mp h
  obtain ⟨⟨⟩, -, h⟩ := Result.bind_ok.mp h
  refine Result.failIf_ok.mp h ?_
  obtain ⟨part, hpart, htext⟩ := List.mem_map.mp hmem
  refine List.mem_map.mpr ⟨part, mem_splitOnP_or _ _ hpart fun c hc => ?_, htext⟩
  have hchars : part = ['.', '.'] := by
    rw [← String.toList_ofList (l := part), htext]
    rfl
  rw [hchars] at hc
  obtain rfl : c = '.' := by simpa using hc
  rfl

theorem load_ok (h : load fs dir parsed = .ok bundle) :
    Canonical fs.tree bundle.root ∧ ∀ rel ∈ declaredPaths bundle.manifest,
      ∃ field, checkPath fs bundle.root field rel = .ok () := by
  unfold load at h
  obtain ⟨⟨⟩, -, h⟩ := Result.bind_ok.mp h
  obtain ⟨root, hroot, h⟩ := Result.bind_ok.mp h
  obtain ⟨⟨⟩, -, h⟩ := Result.bind_ok.mp h
  obtain ⟨manifest, -, h⟩ := Result.bind_ok.mp h
  obtain ⟨⟨⟩, -, h⟩ := Result.bind_ok.mp h
  obtain ⟨⟨⟩, hplug, h⟩ := Result.bind_ok.mp h
  obtain ⟨⟨⟩, hfixtures, h⟩ := Result.bind_ok.mp h
  obtain ⟨⟨⟩, -, h⟩ := Result.bind_ok.mp h
  obtain ⟨⟨⟩, hlibs, h⟩ := Result.bind_ok.mp h
  obtain ⟨⟨⟩, hplugins, h⟩ := Result.bind_ok.mp h
  obtain ⟨⟨⟩, hnotices, h⟩ := Result.bind_ok.mp h
  obtain ⟨⟨⟩, hsource, h⟩ := Result.bind_ok.mp h
  cases h
  refine ⟨?_, ?_⟩
  · unfold canonicalizeRoot at hroot
    split at hroot
    · next location left hfound =>
      cases hroot
      exact canonical_of_walk canonical_nil hfound
    · cases hroot
    · cases hroot
    · cases hroot
  · intro rel hrel
    simp only [declaredPaths, List.mem_cons, List.mem_append] at hrel
    rcases hrel with rfl | (((hrel | hrel) | hrel) | hrel) | hrel
    · exact ⟨_, hplug⟩
    · exact ⟨_, Result.forAll_ok.mp hfixtures rel hrel⟩
    · exact ⟨_, Result.forAll_ok.mp hlibs rel hrel⟩
    · exact ⟨_, Result.forAll_ok.mp hplugins rel hrel⟩
    · exact ⟨_, Result.forAll_ok.mp hnotices rel hrel⟩
    · exact ⟨_, Result.forAll_ok.mp hsource rel hrel⟩

/-- The declared paths of a loaded bundle lead inside exactly when those do that end in a
separator or a dot after a link. -/
theorem leadsInside_iff (h : load fs dir parsed = .ok bundle) :
    (∀ rel ∈ declaredPaths bundle.manifest, LeadsInside fs bundle.root rel) ↔
      ∀ rel ∈ declaredPaths bundle.manifest, EndsAtLink fs bundle.root rel →
        LeadsInside fs bundle.root rel := by
  obtain ⟨hroot, hchecked⟩ := load_ok h
  constructor
  · exact fun hinside rel hrel _ => hinside rel hrel
  · intro hlinks rel hrel
    obtain ⟨field, hcheck⟩ := hchecked rel hrel
    obtain ⟨⟨⟩, hsafe, hexisting⟩ := Result.bind_ok.mp hcheck
    exact leadsInside_of_checkProbe hroot (up_not_mem_of_safe hsafe) hexisting (hlinks rel hrel)

end Load

/-! ## A link with a separator behind it -/

namespace Sample

/-- A bundle with a manifest and a link that leads out of it, to where nothing is. -/
def node : List String → Option (Node String)
  | [] | ["b"] => some .directory
  | ["b", "openstrata.plugin.yaml"] => some .file
  | ["b", "l"] => some (.link true [.name "o"])
  | _ => none

theorem node_snoc {location : List String} {n : String} (h : node (location ++ [n]) ≠ none) :
    node location = some .directory ∧ stepOf n = .name n := by
  have hkeys : ∀ l : List String, node l ≠ none →
      l ∈ [[], ["b"], ["b", "openstrata.plugin.yaml"], ["b", "l"]] := by
    intro l hl
    unfold node at hl
    split at hl <;> simp at hl ⊢
  have hmem := hkeys _ h
  simp only [List.mem_cons, List.not_mem_nil, or_false] at hmem
  have hlast : ∀ {above : List String} {last : String}, location ++ [n] = above ++ [last] →
      location = above ∧ n = last := fun heq =>
    ⟨(List.append_inj' heq rfl).1, List.singleton_inj.mp (List.append_inj' heq rfl).2⟩
  rcases hmem with heq | heq | heq | heq
  · simp at heq
  · obtain ⟨rfl, rfl⟩ := @hlast [] "b" heq
    exact ⟨rfl, rfl⟩
  · obtain ⟨rfl, rfl⟩ := @hlast ["b"] "openstrata.plugin.yaml" heq
    exact ⟨rfl, rfl⟩
  · obtain ⟨rfl, rfl⟩ := @hlast ["b"] "l" heq
    exact ⟨rfl, rfl⟩

def fileSystem : FileSystem where
  tree := ⟨node, rfl, fun h => (node_snoc h).1⟩
  named := fun h => (node_snoc h).2
  cwd := []
  links := 40

/-- A manifest that declares these runtime library directories. -/
def manifest (runtimeLibs : List String) : BundleManifest where
  header := none
  kind := .usdFileformat
  plugInfo := "p"
  tests := ⟨[], [], []⟩
  requires := ⟨⟨[], [], []⟩, [], runtimeLibs, [], []⟩
  notices := []
  schema := none

theorem stat_manifest (follow : Bool) :
    walk fileSystem.tree follow fileSystem.links [] (["b", PLUGIN_MANIFEST].map stepOf) =
      .found ["b", PLUGIN_MANIFEST] 40 := by
  have hstep : ["b", PLUGIN_MANIFEST].map stepOf = [.name "b", .name PLUGIN_MANIFEST] := rfl
  rw [hstep, walk_enter rfl rfl, walk_enter rfl rfl, walk_nil]
  rfl

theorem stat_root (follow : Bool) :
    walk fileSystem.tree follow fileSystem.links [] (["b"].map stepOf) = .found ["b"] 40 := by
  have hstep : ["b"].map stepOf = [.name "b"] := rfl
  rw [hstep, walk_enter rfl rfl, walk_nil]
  rfl

/-- A path to which nothing belongs. -/
theorem stat_missing : fileSystem.symlinkMetadata ["b", "p"] = .notFound := by
  have hstep : ["b", "p"].map stepOf = [.name "b", .name "p"] := rfl
  rw [FileSystem.symlinkMetadata, hstep, walk_enter rfl rfl, walk_none rfl rfl]

/-- The link is followed, to where nothing is. -/
theorem stat_link : fileSystem.symlinkMetadata ["b", "l", ""] = .notFound := by
  have hstep : ["b", "l", ""].map stepOf = [.name "b", .name "l", .here] := rfl
  rw [FileSystem.symlinkMetadata, hstep, walk_enter rfl rfl,
    show fileSystem.links = 39 + 1 from rfl, walk_follow rfl
      (show fileSystem.tree.node ["b", "l"] = some (.link true [.name "o"]) from rfl) (by simp)]
  exact walk_none rfl rfl

theorem check_root (field rel : String) :
    checkProbe fileSystem ["b"] field rel ["b"] = .ok () := by
  rw [checkProbe]
  simp only [FileSystem.symlinkMetadata, FileSystem.canonicalize, stat_root]
  exact Result.failIf_ok.mpr (by simp)

theorem check_missing {probe : List String} (field rel : String)
    (hstat : fileSystem.symlinkMetadata probe = .notFound) (hpop : pop probe = some ["b"])
    (hlonger : probe.filter isComponent ≠ ["b"]) :
    checkProbe fileSystem ["b"] field rel probe = .ok () := by
  rw [checkProbe]
  simp only [hstat, if_neg hlonger]
  split
  · rfl
  · next shorter hshorter =>
    obtain rfl := Option.some.inj (hshorter.symm.trans hpop)
    exact check_root field rel

theorem check_plugInfo (field : String) : checkPath fileSystem ["b"] field "p" = .ok () :=
  Result.bind_ok.mpr ⟨(), by rfl, check_missing field "p" stat_missing (by decide) (by decide)⟩

theorem check_link (field : String) : checkPath fileSystem ["b"] field "l/" = .ok () :=
  Result.bind_ok.mpr ⟨(), by rfl, check_missing field "l/" stat_link (by decide) (by decide)⟩

theorem load_manifest {runtimeLibs : List String}
    (hlibs : Result.forAll (checkPath fileSystem ["b"] "requires.runtime_libs") runtimeLibs =
      .ok ()) :
    load fileSystem "/b" (.ok (manifest runtimeLibs)) = .ok ⟨["b"], manifest runtimeLibs⟩ := by
  have habsolute : fileSystem.absolute "/b" = ["b"] := rfl
  have hfile : fileSystem.isFile (fileSystem.absolute "/b" ++ [PLUGIN_MANIFEST]) := by
    rw [habsolute, FileSystem.isFile, List.singleton_append, FileSystem.canonicalize,
      stat_manifest]
    rfl
  have hroot : canonicalizeRoot fileSystem "/b" = .ok ["b"] := by
    rw [canonicalizeRoot, habsolute, FileSystem.canonicalize, stat_root]
  have hmanifest : checkExistingBundlePath fileSystem ["b"] PLUGIN_MANIFEST PLUGIN_MANIFEST =
      .ok () := by
    have hparts : ["b"] ++ Text.segments PLUGIN_MANIFEST = ["b", PLUGIN_MANIFEST] := rfl
    rw [checkExistingBundlePath, hparts, checkProbe]
    simp only [FileSystem.symlinkMetadata, FileSystem.canonicalize, stat_manifest]
    exact Result.failIf_ok.mpr (by simp)
  rw [load]
  refine Result.bind_ok.mpr ⟨(), Result.failIf_ok.mpr (not_not.mpr hfile), ?_⟩
  refine Result.bind_ok.mpr ⟨["b"], hroot, Result.bind_ok.mpr ⟨(), hmanifest, ?_⟩⟩
  refine Result.bind_ok.mpr ⟨manifest runtimeLibs, rfl, Result.bind_ok.mpr ⟨(), rfl, ?_⟩⟩
  refine Result.bind_ok.mpr ⟨(), check_plugInfo _, Result.bind_ok.mpr ⟨(), rfl, ?_⟩⟩
  exact Result.bind_ok.mpr ⟨(), rfl, Result.bind_ok.mpr ⟨(), hlibs, rfl⟩⟩

end Sample

/-- A bundle whose runtime library directory is such a link is loaded. -/
theorem link_with_separator_accepted :
    load Sample.fileSystem "/b" (.ok (Sample.manifest ["l/"])) =
        .ok ⟨["b"], Sample.manifest ["l/"]⟩ ∧
      ¬∀ rel ∈ declaredPaths (Sample.manifest ["l/"]), LeadsInside Sample.fileSystem ["b"] rel := by
  refine ⟨Sample.load_manifest ?_, fun h => ?_⟩
  · exact Result.forAll_ok.mpr (by simpa using Sample.check_link _)
  · obtain ⟨location, hleads, hinside⟩ := h "l/" (by decide)
    have hlink : Sample.fileSystem.tree.node ["b", "l"] = some (.link true [.name "o"]) := rfl
    have houtside : Leads Sample.fileSystem.tree [] ((["b"] ++ Text.segments "l/").map stepOf)
        ["o"] :=
      .enter rfl (.follow hlink (.enter rfl (.here (.nil _))))
    rw [hleads.unique houtside] at hinside
    revert hinside
    decide

theorem leadsInside_iff_sample : load Sample.fileSystem "/b" (.ok (Sample.manifest [])) =
      .ok ⟨["b"], Sample.manifest []⟩ ∧
    ∀ rel ∈ declaredPaths (Sample.manifest []), LeadsInside Sample.fileSystem ["b"] rel := by
  have hload : load Sample.fileSystem "/b" (.ok (Sample.manifest [])) =
      .ok ⟨["b"], Sample.manifest []⟩ := Sample.load_manifest rfl
  refine ⟨hload, (leadsInside_iff hload).mpr ?_⟩
  intro rel hrel hends
  obtain rfl : rel = "p" := by simpa [declaredPaths, Sample.manifest, Tests.allFixtures,
    Golden.dedup] using hrel
  -- the path has one part
  obtain ⟨lead, name, tail, hsegments, -, htail, -⟩ := hends
  have hlength := congrArg List.length hsegments
  rw [List.length_append, List.length_cons, show (Text.segments "p").length = 1 from rfl]
    at hlength
  have hpos := List.length_pos_iff.mpr htail
  omega

end OpenStrata.Plugin.BundlePaths
