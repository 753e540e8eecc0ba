import Mathlib.Data.List.DropRight
import OpenStrata.Core.Parts
import OpenStrata.Runtime.Render

/-!
# Session environments

A session runs over the environment of a runtime, to which bundles and libraries add their
directories. Every addition stands in front of the earlier ones, so the additions are made from
the last one back: the bundles and the library directories are gone through in reverse. The
providers that a bundle carries and its runtime library directories are not, and come out in the
order opposite to the one they are declared in.

## Main definitions

* `bundleVars`, `sessionEnvFromWithLibraryDirs`: the environment of a session
* `Ordered`: the two search variables list the contributions in the order they are passed

## Main results

* `entries_resolved`: what stands in a variable after its changes
* `ordered_iff`: when the contributions come out in their order
-/

namespace OpenStrata.Plugin.Session

open OpenStrata.Runtime (EnvOp EnvSet EnvVar changes changes_append changes_eq_nil loaderKey
  lookup_foldl_applyVar resolved searchPath searchPath_append searchStep valueAfter)

/-! ## Bundles -/

/-- A path read from its end without trailing separators and dots. -/
def trimTail (os : Os) : List Char → List Char
  | [] => []
  | c :: rest =>
    if Path.isSeparator os c ∨ (c = '.' ∧ rest.head?.any (Path.isSeparator os)) then
      trimTail os rest
    else c :: rest

/-- Only a drive is left of a path that is read from its end. -/
def isDrive (os : Os) : List Char → Bool
  | [colon, _] => os == .windows && colon == ':'
  | _ => false

/-- `Utf8Path::parent`. -/
def parent (os : Os) (path : String) : Option String :=
  let name := trimTail os path.toList.reverse
  if name = [] ∨ isDrive os name then none
  else
    let above := name.dropWhile fun c => !Path.isSeparator os c
    let rest := trimTail os above
    let root := (above.take (above.length - rest.length)).getLast?.toList
    some (String.ofList ((if rest = [] ∨ isDrive os rest then root ++ rest else rest).reverse))

/-- What a session reads of a bundle. -/
structure Bundle where
  root : String
  outputRoot : Option String
  /-- `usd.plug_info` of the manifest. -/
  plugInfo : String
  /-- `requires.runtime_libs` of the manifest. -/
  runtimeLibs : List String
  /-- `requires.runtime_plugin_paths` of the manifest. -/
  runtimePluginPaths : List String

namespace Bundle

variable (host : Os) (bundle : Bundle)

def path (rel : String) : String := Path.join host bundle.root rel

def outputPath (rel : String) : String :=
  Path.join host (bundle.outputRoot.getD bundle.root) rel

def plugInfoRoot : String :=
  let p := bundle.outputPath host bundle.plugInfo
  (parent host p).getD p

def libDir : String := bundle.outputPath host "lib"

def pythonDir : String := bundle.outputPath host "python"

def runtimeLibDirs : List String := bundle.runtimeLibs.map (bundle.path host)

def runtimePluginPathDirs : List String := bundle.runtimePluginPaths.map (bundle.path host)

end Bundle

/-! ## The environment of a session -/

/-- The variable that the dynamic loader searches. -/
def libKey (os : Os) : String := loaderKey os

def portable (p : String) : String := Path.slashed p

/-- What a bundle adds to the environment of a session. -/
def bundleVars (host os : Os) (bundle : Bundle) : List EnvVar :=
  -- the staged providers go on first, so the bundle's own root stands in front of them
  (bundle.runtimePluginPathDirs host).map (fun dir =>
    ⟨"PXR_PLUGINPATH_NAME", .prepend (portable dir)⟩) ++
  ⟨"PXR_PLUGINPATH_NAME", .prepend (portable (bundle.plugInfoRoot host))⟩ ::
  (bundle.runtimeLibDirs host).map (fun dir => ⟨libKey os, .prepend (portable dir)⟩) ++
  [⟨libKey os, .prepend (portable (bundle.libDir host))⟩,
    ⟨"PYTHONPATH", .prepend (portable (bundle.pythonDir host))⟩]

/-- The environment of a runtime with bundles and library directories, the first ones in front. -/
def sessionEnvFromWithLibraryDirs (host os : Os) (runtimeEnv : EnvSet) (bundles : List Bundle)
    (libraryDirs : List String) : EnvSet where
  sep := runtimeEnv.sep
  vars := runtimeEnv.vars ++
    libraryDirs.reverse.map (fun directory => ⟨libKey os, .prepend (portable directory)⟩) ++
    bundles.reverse.flatMap (bundleVars host os)

/-! ## Search variables -/

/-- The entries of a search variable; an empty one has none. -/
def entries (sep : Char) (value : String) : List String :=
  if value = "" then [] else Text.split (· == sep) value

/-- The value that a process of the session sees. -/
def valueOf (env : EnvSet) (base : ShellQuote.Environment) (key : String) : String :=
  (((env.resolveWith base).lookup key).or (base key)).getD ""

def sets (key : String) (v : EnvVar) : Bool :=
  match v.op with
  | .set _ => v.key = key
  | .prepend _ => false

/-- The entries that a variable keeps of the base: none once the runtime has set it. -/
def inherited (runtimeEnv : EnvSet) (base : ShellQuote.Environment) (key : String) : List String :=
  if runtimeEnv.vars.any (sets key) then [] else entries runtimeEnv.sep ((base key).getD "")

/-- The plugin roots of a bundle: its own, then those of the providers it carries. -/
def pluginEntries (host : Os) (bundle : Bundle) : List String :=
  portable (bundle.plugInfoRoot host) :: (bundle.runtimePluginPathDirs host).map portable

/-- The library directories of a bundle. -/
def loaderEntries (host : Os) (bundle : Bundle) : List String :=
  portable (bundle.libDir host) :: (bundle.runtimeLibDirs host).map portable

/-- What the session and the runtime put into the plugin variable, in the order it is passed. -/
def pluginPath (host : Os) (runtimeEnv : EnvSet) (bundles : List Bundle) : List String :=
  bundles.flatMap (pluginEntries host) ++ searchPath runtimeEnv.vars "PXR_PLUGINPATH_NAME"

/-- What the session and the runtime put into the loader variable, in the order it is passed. -/
def loaderPath (host os : Os) (runtimeEnv : EnvSet) (bundles : List Bundle)
    (libraryDirs : List String) : List String :=
  bundles.flatMap (loaderEntries host) ++ libraryDirs.map portable ++
    searchPath runtimeEnv.vars (libKey os)

/-- The search variables of a session list every contribution, in the order it is passed. -/
structure Ordered (host os : Os) (runtimeEnv : EnvSet) (bundles : List Bundle)
    (libraryDirs : List String) (base : ShellQuote.Environment) : Prop where
  plugins : entries runtimeEnv.sep
      (valueOf (sessionEnvFromWithLibraryDirs host os runtimeEnv bundles libraryDirs) base
        "PXR_PLUGINPATH_NAME") =
    pluginPath host runtimeEnv bundles ++ inherited runtimeEnv base "PXR_PLUGINPATH_NAME"
  libraries : entries runtimeEnv.sep
      (valueOf (sessionEnvFromWithLibraryDirs host os runtimeEnv bundles libraryDirs) base
        (libKey os)) =
    loaderPath host os runtimeEnv bundles libraryDirs ++ inherited runtimeEnv base (libKey os)

/-- The contributions have no separator in them. -/
structure Free (host os : Os) (runtimeEnv : EnvSet) (bundles : List Bundle)
    (libraryDirs : List String) : Prop where
  plugins : ∀ entry ∈ pluginPath host runtimeEnv bundles, runtimeEnv.sep ∉ entry.toList
  libraries : ∀ entry ∈ loaderPath host os runtimeEnv bundles libraryDirs,
    runtimeEnv.sep ∉ entry.toList

/-- A list that reads the same from its end. -/
def Symmetric (texts : List String) : Prop := texts.reverse = texts

instance : DecidablePred Symmetric := fun _ => inferInstanceAs (Decidable (_ = _))

/-- Nothing is prepended to an empty text that stands for an entry. -/
def Lossless (own inherited : List String) : Prop := inherited = [] → own.getLast? ≠ some ""

/-! ## What stands in a variable -/

section Entries

variable {sep : Char} {base key : String} {ops : List EnvOp} {vars : List EnvVar}

/-- The values since a variable was last set, the last one first. -/
def listed : List EnvOp → List String
  | [] => []
  | .set value :: _ => [value]
  | .prepend value :: earlier => value :: listed earlier

/-- The entries of the base that are left after changes. -/
def kept (sep : Char) (base : String) : List EnvOp → List String
  | [] => entries sep base
  | .set _ :: _ => []
  | .prepend _ :: earlier => kept sep base earlier

theorem entries_eq_nil {value : String} : entries sep value = [] ↔ value = "" := by
  unfold entries
  split
  · next h => exact iff_of_true rfl h
  · next h =>
    refine iff_of_false ?_ h
    rw [Text.split, List.map_eq_nil_iff]
    exact List.splitOnP_ne_nil _ _

theorem entries_of_not_mem {value : String} (hne : value ≠ "") (h : sep ∉ value.toList) :
    entries sep value = [value] := by
  rw [entries, if_neg hne, Text.split_of_not_mem fun c hc => ?_]
  exact beq_false_of_ne fun heq => h (heq ▸ hc)

theorem entries_over {value text : String} (h : sep ∉ value.toList) (htext : text ≠ "") :
    entries sep (value ++ sep.toString ++ text) = value :: entries sep text := by
  have hne : value ++ sep.toString ++ text ≠ "" := by
    simp [String.append_eq_empty_iff, htext]
  have hsplit : Text.split (· == sep) (value ++ sep.toString ++ text) =
      Text.split (· == sep) value ++ Text.split (· == sep) text :=
    Text.split_append_char (p := (· == sep)) (beq_self_eq_true sep) (String.toList_singleton sep)
      value text
  rw [entries, if_neg hne, hsplit, entries, if_neg htext, Text.split_of_not_mem fun c hc => ?_]
  · rfl
  · exact beq_false_of_ne fun heq => h (heq ▸ hc)

/-- What is left of texts when the empty ones at the end are dropped. -/
def undropped (texts : List String) : List String := texts.rdropWhile (· = "")

theorem undropped_cons (text : String) (texts : List String) :
    undropped (text :: texts) =
      if undropped texts = [] then undropped [text] else text :: undropped texts := by
  unfold undropped List.rdropWhile
  rw [List.reverse_cons, List.dropWhile_append]
  by_cases h : texts.reverse.dropWhile (· = "") = []
  · simp [h]
  · simp [h, List.isEmpty_iff]

theorem undropped_eq_self {texts : List String} :
    undropped texts = texts ↔ texts.getLast? ≠ some "" := by
  rw [undropped, List.rdropWhile_eq_self_iff]
  rcases List.eq_nil_or_concat texts with rfl | ⟨rest, last, rfl⟩
  · simp
  · simp

theorem entries_of_free {value : String} (h : sep ∉ value.toList) :
    entries sep value = undropped [value] := by
  by_cases hempty : value = ""
  · subst hempty
    rfl
  · rw [entries_of_not_mem hempty h]
    exact (undropped_eq_self.mpr (by simpa using hempty)).symm

/-- The empty texts at the end are lost when nothing was inherited. -/
theorem entries_resolved (hfree : ∀ entry ∈ listed ops, sep ∉ entry.toList) :
    entries sep (resolved sep base ops) =
      if kept sep base ops = [] then undropped (listed ops)
      else listed ops ++ kept sep base ops := by
  induction ops with
  | nil =>
    rw [listed, resolved, List.nil_append, kept]
    split
    · next h => rw [h]; rfl
    · rfl
  | cons op earlier ih =>
    cases op with
    | set value =>
      rw [kept, if_pos rfl, listed, resolved, EnvOp.over]
      exact entries_of_free (hfree value List.mem_cons_self)
    | prepend value =>
      have hvalue := hfree value List.mem_cons_self
      have htext := ih fun entry hentry => hfree entry (List.mem_cons_of_mem _ hentry)
      rw [kept, listed, resolved, EnvOp.over]
      by_cases hempty : resolved sep base earlier = ""
      · -- nothing stands there yet, so the value replaces what does
        rw [entries_eq_nil.mpr hempty] at htext
        have hkept : kept sep base earlier = [] := by
          by_contra hkept
          rw [if_neg hkept] at htext
          exact hkept (List.append_eq_nil_iff.mp htext.symm).2
        rw [if_pos hkept] at htext
        rw [if_pos hempty, if_pos hkept, undropped_cons, if_pos htext.symm]
        exact entries_of_free hvalue
      · have hne : entries sep (resolved sep base earlier) ≠ [] := mt entries_eq_nil.mp hempty
        rw [if_neg hempty, entries_over hvalue hempty, htext]
        rw [htext] at hne
        split_ifs at hne ⊢ with hkept
        · rw [undropped_cons, if_neg hne]
        · rfl

/-- The values listed by the changes are the search path. -/
theorem listed_changes (vars : List EnvVar) (key : String) :
    listed (changes vars key) = searchPath vars key := by
  induction vars using List.reverseRecOn with
  | nil => rfl
  | append_singleton vars v ih =>
    rw [changes_append, searchPath_append, List.foldl_cons, List.foldl_nil, searchStep, ← ih]
    by_cases h : v.key = key
    · rw [if_pos h, if_pos h]
      cases v.op with
      | set value => rfl
      | prepend value => rfl
    · rw [if_neg h, if_neg h]

theorem kept_changes (sep : Char) (base : String) (vars : List EnvVar) (key : String) :
    kept sep base (changes vars key) =
      if vars.any (sets key) then [] else entries sep base := by
  induction vars using List.reverseRecOn with
  | nil => rfl
  | append_singleton vars v ih =>
    rw [changes_append, List.any_append, List.any_cons, List.any_nil, Bool.or_false]
    by_cases h : v.key = key
    · rw [if_pos h, sets]
      cases v.op with
      | set value => simp [kept, h]
      | prepend value => simpa [kept] using ih
    · have hsets : sets key v = false := by
        unfold sets
        cases v.op <;> simp [h]
      rw [if_neg h, ih, hsets, Bool.or_false]

/-- What a process of a session finds in a variable. -/
theorem entries_valueOf {env : EnvSet} {base : ShellQuote.Environment}
    (hfree : ∀ entry ∈ searchPath env.vars key, env.sep ∉ entry.toList) :
    entries env.sep (valueOf env base key) =
      if inherited env base key = [] then undropped (searchPath env.vars key)
      else searchPath env.vars key ++ inherited env base key := by
  have hvalue : valueOf env base key =
      resolved env.sep ((base key).getD "") (changes env.vars key) := by
    rw [valueOf, EnvSet.resolveWith, (lookup_foldl_applyVar env.sep base env.vars key).1,
      valueAfter]
    split
    · next h => rw [h]; rfl
    · rfl
  rw [hvalue, entries_resolved (by rwa [listed_changes]), listed_changes, kept_changes]
  rfl

/-- Contributions come out as they should when they are in their order and none is lost. -/
theorem undropped_eq_iff {own expected inherited : List String}
    (hlength : own.length = expected.length) :
    (if inherited = [] then undropped own else own ++ inherited) = expected ++ inherited ↔
      own = expected ∧ Lossless expected inherited := by
  by_cases hnil : inherited = []
  · subst hnil
    rw [if_pos rfl, List.append_nil]
    constructor
    · intro h
      have hself : undropped own = own :=
        (List.rdropWhile_prefix _ _).eq_of_length ((congrArg List.length h).trans hlength.symm)
      rw [hself] at h
      subst h
      exact ⟨rfl, fun _ => undropped_eq_self.mp hself⟩
    · rintro ⟨rfl, hlast⟩
      exact undropped_eq_self.mpr (hlast rfl)
  · rw [if_neg hnil, List.append_left_inj]
    exact ⟨fun h => ⟨h, fun hnil' => absurd hnil' hnil⟩, And.left⟩

end Entries

/-! ## The order of the contributions -/

section Order

variable {host os : Os} {runtimeEnv : EnvSet} {bundles : List Bundle} {libraryDirs : List String}
  {base : ShellQuote.Environment} {key : String}

/-- Values that are prepended to a variable come out in reverse. -/
theorem foldl_searchStep (key : String) (texts start : List String) :
    (texts.map fun text => (⟨key, .prepend text⟩ : EnvVar)).foldl (searchStep key) start =
      texts.reverse ++ start := by
  induction texts generalizing start with
  | nil => rfl
  | cons text texts ih =>
    rw [List.map_cons, List.foldl_cons, ih, searchStep, if_pos rfl, List.reverse_cons,
      List.append_assoc]
    rfl

theorem foldl_searchStep_of_ne {other : String} (h : other ≠ key) (texts start : List String) :
    (texts.map fun text => (⟨other, .prepend text⟩ : EnvVar)).foldl (searchStep key) start =
      start := by
  induction texts with
  | nil => rfl
  | cons text texts ih => rw [List.map_cons, List.foldl_cons, searchStep, if_neg h, ih]

theorem libKey_ne (os : Os) : libKey os ≠ "PXR_PLUGINPATH_NAME" ∧ libKey os ≠ "PYTHONPATH" := by
  cases os <;> decide

/-- The plugin roots that a bundle adds, the providers from the last one back. -/
def pluginAdded (host : Os) (bundle : Bundle) : List String :=
  portable (bundle.plugInfoRoot host) :: ((bundle.runtimePluginPathDirs host).map portable).reverse

/-- The library directories that a bundle adds, those of the manifest from the last one back. -/
def loaderAdded (host : Os) (bundle : Bundle) : List String :=
  portable (bundle.libDir host) :: ((bundle.runtimeLibDirs host).map portable).reverse

theorem bundleVars_eq (host os : Os) (bundle : Bundle) : bundleVars host os bundle =
    ((bundle.runtimePluginPathDirs host).map portable ++
      [portable (bundle.plugInfoRoot host)]).map
        (fun text => ⟨"PXR_PLUGINPATH_NAME", .prepend text⟩) ++
    ((bundle.runtimeLibDirs host).map portable ++ [portable (bundle.libDir host)]).map
        (fun text => ⟨libKey os, .prepend text⟩) ++
    [portable (bundle.pythonDir host)].map (fun text => ⟨"PYTHONPATH", .prepend text⟩) := by
  simp [bundleVars, Function.comp_def]

/-- A bundle puts its plugin roots in front of a search path. -/
theorem foldl_bundleVars_plugins (bundle : Bundle) (start : List String) :
    (bundleVars host os bundle).foldl (searchStep "PXR_PLUGINPATH_NAME") start =
      pluginAdded host bundle ++ start := by
  rw [bundleVars_eq, List.foldl_append, List.foldl_append, foldl_searchStep,
    foldl_searchStep_of_ne (libKey_ne os).1, foldl_searchStep_of_ne (by decide)]
  simp [pluginAdded]

theorem foldl_bundleVars_libraries (bundle : Bundle) (start : List String) :
    (bundleVars host os bundle).foldl (searchStep (libKey os)) start =
      loaderAdded host bundle ++ start := by
  rw [bundleVars_eq, List.foldl_append, List.foldl_append,
    foldl_searchStep_of_ne (libKey_ne os).1.symm, foldl_searchStep,
    foldl_searchStep_of_ne (libKey_ne os).2.symm]
  simp [loaderAdded]

/-- Bundles that are gone through from the last one back come out in their order. -/
theorem foldl_bundles {added : Bundle → List String}
    (hadded : ∀ bundle start, (bundleVars host os bundle).foldl (searchStep key) start =
      added bundle ++ start) (bundles : List Bundle) (start : List String) :
    (bundles.reverse.flatMap (bundleVars host os)).foldl (searchStep key) start =
      bundles.flatMap added ++ start := by
  induction bundles with
  | nil => rfl
  | cons bundle bundles ih =>
    rw [List.reverse_cons, List.flatMap_append, List.foldl_append, ih, List.flatMap_singleton,
      hadded, List.flatMap_cons, List.append_assoc]

theorem searchPath_plugins (runtimeEnv : EnvSet) (bundles : List Bundle)
    (libraryDirs : List String) :
    searchPath (sessionEnvFromWithLibraryDirs host os runtimeEnv bundles libraryDirs).vars
        "PXR_PLUGINPATH_NAME" =
      bundles.flatMap (pluginAdded host) ++
        searchPath runtimeEnv.vars "PXR_PLUGINPATH_NAME" := by
  have hdirs := foldl_searchStep_of_ne (libKey_ne os).1 (libraryDirs.reverse.map portable)
    (searchPath runtimeEnv.vars "PXR_PLUGINPATH_NAME")
  rw [List.map_map] at hdirs
  rw [sessionEnvFromWithLibraryDirs, searchPath_append, searchPath_append,
    foldl_bundles foldl_bundleVars_plugins]
  exact congrArg _ hdirs

theorem searchPath_libraries (runtimeEnv : EnvSet) (bundles : List Bundle)
    (libraryDirs : List String) :
    searchPath (sessionEnvFromWithLibraryDirs host os runtimeEnv bundles libraryDirs).vars
        (libKey os) =
      bundles.flatMap (loaderAdded host) ++ libraryDirs.map portable ++
        searchPath runtimeEnv.vars (libKey os) := by
  have hdirs := foldl_searchStep (libKey os) (libraryDirs.reverse.map portable)
    (searchPath runtimeEnv.vars (libKey os))
  rw [List.map_map, ← List.map_reverse, List.reverse_reverse] at hdirs
  rw [sessionEnvFromWithLibraryDirs, searchPath_append, searchPath_append,
    foldl_bundles foldl_bundleVars_libraries, List.append_assoc]
  exact congrArg _ hdirs

/-- Sessions add to variables and never set them. -/
theorem inherited_session (host os : Os) (runtimeEnv : EnvSet) (bundles : List Bundle)
    (libraryDirs : List String) (base : ShellQuote.Environment) (key : String) :
    inherited (sessionEnvFromWithLibraryDirs host os runtimeEnv bundles libraryDirs) base key =
      inherited runtimeEnv base key := by
  have hadded : (libraryDirs.reverse.map (fun directory =>
      (⟨libKey os, .prepend (portable directory)⟩ : EnvVar)) ++
        bundles.reverse.flatMap (bundleVars host os)).any (sets key) = false := by
    simp [List.any_eq_false, bundleVars_eq, sets]
  rw [inherited, inherited, sessionEnvFromWithLibraryDirs, List.append_assoc, List.any_append,
    hadded, Bool.or_false]

/-- Blocks of the same lengths agree as a whole when each of them does. -/
theorem flatMap_congr_iff {α β : Type*} {f g : α → List β} (items : List α)
    (hlength : ∀ item, (f item).length = (g item).length) :
    items.flatMap f = items.flatMap g ↔ ∀ item ∈ items, f item = g item := by
  induction items with
  | nil => simp
  | cons item items ih =>
    rw [List.flatMap_cons, List.flatMap_cons, List.forall_mem_cons, ← ih]
    constructor
    · exact fun h => List.append_inj h (hlength item)
    · exact fun h => by rw [h.1, h.2]

/-- A variable to which each bundle adds an entry and others in reverse. -/
theorem entries_valueOf_iff {env : EnvSet} {own : Bundle → String}
    {texts : Bundle → List String} {rest : List String}
    (hpath : searchPath env.vars key =
      bundles.flatMap (fun b => own b :: (texts b).reverse) ++ rest)
    (hfree : ∀ entry ∈ bundles.flatMap (fun b => own b :: texts b) ++ rest,
      env.sep ∉ entry.toList) :
    entries env.sep (valueOf env base key) =
      bundles.flatMap (fun b => own b :: texts b) ++ rest ++ inherited env base key ↔
    (∀ bundle ∈ bundles, Symmetric (texts bundle)) ∧
      Lossless (bundles.flatMap (fun b => own b :: texts b) ++ rest) (inherited env base key) := by
  have hmem : ∀ entry ∈ searchPath env.vars key, env.sep ∉ entry.toList := by
    intro entry hentry
    refine hfree entry ?_
    rw [hpath] at hentry
    simpa using hentry
  have hlength : (searchPath env.vars key).length =
      (bundles.flatMap (fun b => own b :: texts b) ++ rest).length := by
    simp [hpath, List.length_flatMap]
  rw [entries_valueOf hmem, undropped_eq_iff hlength, hpath, List.append_left_inj,
    flatMap_congr_iff bundles fun b => by simp]
  simp only [List.cons.injEq, true_and, Symmetric]

theorem plugins_iff (hfree : ∀ entry ∈ pluginPath host runtimeEnv bundles,
    runtimeEnv.sep ∉ entry.toList) :
    entries runtimeEnv.sep
        (valueOf (sessionEnvFromWithLibraryDirs host os runtimeEnv bundles libraryDirs) base
          "PXR_PLUGINPATH_NAME") =
      pluginPath host runtimeEnv bundles ++ inherited runtimeEnv base "PXR_PLUGINPATH_NAME" ↔
    (∀ bundle ∈ bundles, Symmetric ((bundle.runtimePluginPathDirs host).map portable)) ∧
      Lossless (pluginPath host runtimeEnv bundles)
        (inherited runtimeEnv base "PXR_PLUGINPATH_NAME") := by
  rw [← inherited_session host os runtimeEnv bundles libraryDirs]
  exact entries_valueOf_iff (searchPath_plugins runtimeEnv bundles libraryDirs) hfree

theorem libraries_iff (hfree : ∀ entry ∈ loaderPath host os runtimeEnv bundles libraryDirs,
    runtimeEnv.sep ∉ entry.toList) :
    entries runtimeEnv.sep
        (valueOf (sessionEnvFromWithLibraryDirs host os runtimeEnv bundles libraryDirs) base
          (libKey os)) =
      loaderPath host os runtimeEnv bundles libraryDirs ++ inherited runtimeEnv base (libKey os) ↔
    (∀ bundle ∈ bundles, Symmetric ((bundle.runtimeLibDirs host).map portable)) ∧
      Lossless (loaderPath host os runtimeEnv bundles libraryDirs)
        (inherited runtimeEnv base (libKey os)) := by
  have hpath : loaderPath host os runtimeEnv bundles libraryDirs =
      bundles.flatMap (loaderEntries host) ++
        (libraryDirs.map portable ++ searchPath runtimeEnv.vars (libKey os)) :=
    List.append_assoc _ _ _
  rw [hpath] at hfree ⊢
  rw [← inherited_session host os runtimeEnv bundles libraryDirs]
  exact entries_valueOf_iff
    ((searchPath_libraries runtimeEnv bundles libraryDirs).trans (List.append_assoc _ _ _)) hfree

/-- The search variables list the contributions in order exactly when the providers and the
library directories of each bundle read the same from their end, and no empty text is the last
entry of a variable. -/
theorem ordered_iff (hfree : Free host os runtimeEnv bundles libraryDirs) :
    Ordered host os runtimeEnv bundles libraryDirs base ↔
      (∀ bundle ∈ bundles, Symmetric ((bundle.runtimePluginPathDirs host).map portable) ∧
        Symmetric ((bundle.runtimeLibDirs host).map portable)) ∧
      Lossless (pluginPath host runtimeEnv bundles)
        (inherited runtimeEnv base "PXR_PLUGINPATH_NAME") ∧
      Lossless (loaderPath host os runtimeEnv bundles libraryDirs)
        (inherited runtimeEnv base (libKey os)) := by
  constructor
  · intro h
    obtain ⟨hproviders, hlast⟩ := (plugins_iff hfree.plugins).mp h.plugins
    obtain ⟨hdirs, hlast'⟩ := (libraries_iff hfree.libraries).mp h.libraries
    exact ⟨fun bundle hbundle => ⟨hproviders bundle hbundle, hdirs bundle hbundle⟩, hlast, hlast'⟩
  · rintro ⟨hbundles, hlast, hlast'⟩
    exact ⟨(plugins_iff hfree.plugins).mpr
        ⟨fun bundle hbundle => (hbundles bundle hbundle).1, hlast⟩,
      (libraries_iff hfree.libraries).mpr
        ⟨fun bundle hbundle => (hbundles bundle hbundle).2, hlast'⟩⟩

end Order

/-! ## A bundle with staged providers -/

namespace Sample

def runtimeEnv : EnvSet := ⟨':', [⟨"PXR_PLUGINPATH_NAME", .prepend "/r"⟩]⟩

/-- A bundle with these staged providers. -/
def bundle (providers : List String) : Bundle := ⟨"/b", none, "u/p", [], providers⟩

def base : ShellQuote.Environment := fun _ => none

end Sample

theorem ordered_iff_sample :
    Ordered .linux .linux Sample.runtimeEnv [Sample.bundle ["p"]] ["/l"] Sample.base := by
  have hplugins : pluginPath .linux Sample.runtimeEnv [Sample.bundle ["p"]] =
      ["/b/u", "/b/p", "/r"] := by decide
  have hlibraries : loaderPath .linux .linux Sample.runtimeEnv [Sample.bundle ["p"]] ["/l"] =
      ["/b/lib", "/l"] := by decide
  refine (ordered_iff ⟨?_, ?_⟩).mpr ⟨?_, ?_, ?_⟩
  · rw [hplugins]
    decide
  · rw [hlibraries]
    decide
  · rw [List.forall_mem_singleton]
    decide
  · rw [hplugins]
    exact fun _ => by decide
  · rw [hlibraries]
    exact fun _ => by decide

/-- Two staged providers come out in the order opposite to the one they are declared in. -/
theorem providers_reversed :
    Free .linux .linux Sample.runtimeEnv [Sample.bundle ["p", "q"]] ["/l"] ∧
      ¬Ordered .linux .linux Sample.runtimeEnv [Sample.bundle ["p", "q"]] ["/l"] Sample.base := by
  have hplugins : pluginPath .linux Sample.runtimeEnv [Sample.bundle ["p", "q"]] =
      ["/b/u", "/b/p", "/b/q", "/r"] := by decide
  have hlibraries : loaderPath .linux .linux Sample.runtimeEnv [Sample.bundle ["p", "q"]]
      ["/l"] = ["/b/lib", "/l"] := by decide
  have hfree : Free .linux .linux Sample.runtimeEnv [Sample.bundle ["p", "q"]] ["/l"] := by
    constructor
    · rw [hplugins]
      decide
    · rw [hlibraries]
      decide
  refine ⟨hfree, fun h => ?_⟩
  have hsymmetric := ((plugins_iff hfree.plugins).mp h.plugins).1 _ List.mem_cons_self
  revert hsymmetric
  decide

end OpenStrata.Plugin.Session
