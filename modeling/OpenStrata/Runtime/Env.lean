import OpenStrata.Core.Paths
import OpenStrata.Lib.Overlay
import OpenStrata.Lib.SearchPath
import OpenStrata.Lib.SortBy

/-!
# Environments

The environment that a runtime needs, as an ordered list of changes to variables, and what the
changes come to over a given environment. The directory of the Python package is found by
looking at the runtime's tree.

## Main definitions

* `Layout`: what the file system shows of a tree
* `usdPythonDirFor`: the directory that holds the `pxr` package
* `EnvSet`, `EnvSet.forUsdInstall`: the environment of an installed OpenUSD
* `EnvSet.resolveOver`: the values of the variables

## Main results

* `EnvSet.lookup_resolveOver`: a variable over the empty environment is its search path
-/

namespace OpenStrata.Runtime

open Path (slashed)

/-! ## Layouts -/

/-- A tree as the file system shows it, by paths relative to its root. -/
structure Layout where
  isDir : String → Bool
  isFile : String → Bool
  /-- The names in a directory, in the order they are read. -/
  entries : String → List String

namespace Layout

def sitePackages (name : String) : String := "lib/" ++ name ++ "/site-packages"

/-- The versioned site-packages directories that hold the `pxr` package, sorted. -/
def versionedPython (layout : Layout) : List String :=
  SortBy.sortBy id (((layout.entries "lib").filter fun name =>
    Text.startsWith "python" name && "python".length < name.length).filter fun name =>
      layout.isDir (sitePackages name ++ "/pxr"))

/-- The directory that holds the `pxr` package, `lib/python` when none does. -/
def usdPythonDirFor (layout : Layout) (version : Option String) : String :=
  match ["lib/python", "lib/site-packages", "Lib/site-packages"].find? fun candidate =>
    layout.isDir (candidate ++ "/pxr") with
  | some candidate => candidate
  | none =>
    match version.bind fun want => layout.versionedPython.find? (· == "python" ++ want) with
    | some name => sitePackages name
    | none => (layout.versionedPython.head?.map sitePackages).getD "lib/python"

def usdPythonDir (layout : Layout) : String := layout.usdPythonDirFor none

def imagingStems : List String :=
  ["usdImaging", "usd_usdImaging", "libusdImaging", "libusd_usdImaging", "usd_ms", "libusd_ms"]

/-- The name of a library file of usdImaging. -/
def isImagingLibrary (name : String) : Bool :=
  imagingStems.any fun stem => (Text.stripPrefix stem name).any fun suffix =>
    [".dll", ".lib", ".so", ".dylib"].contains suffix || Text.startsWith ".so." suffix

def hasUsdImagingSdk (layout : Layout) : Bool :=
  layout.isFile "include/pxr/usdImaging/usdImaging/adapterRegistry.h" &&
    ["lib", "bin", "lib64"].any fun dir => (layout.entries dir).any fun name =>
      isImagingLibrary name && layout.isFile (dir ++ "/" ++ name)

end Layout

/-! ## Environments -/

/-- How a variable changes. -/
inductive EnvOp
  | set (value : String)
  | prepend (value : String)
  deriving DecidableEq, Repr

structure EnvVar where
  key : String
  op : EnvOp
  deriving DecidableEq, Repr

/-- An ordered list of changes and the separator of path lists. -/
structure EnvSet where
  sep : Char
  vars : List EnvVar
  deriving DecidableEq, Repr

/-- The variable that the dynamic loader searches. -/
def loaderKey : Os → String
  | .linux => "LD_LIBRARY_PATH"
  | .macos => "DYLD_LIBRARY_PATH"
  | .windows => "PATH"

def listSeparator : Os → Char
  | .linux | .macos => ':'
  | .windows => ';'

namespace EnvSet

/-- The environment of an OpenUSD install. -/
def forUsdInstall (os : Os) (root : String) (layout : Layout) : EnvSet where
  sep := listSeparator os
  vars := [
    ⟨"PATH", .prepend (slashed (Path.join os root "bin"))⟩,
    ⟨loaderKey os, .prepend (slashed (Path.join os root "lib"))⟩,
    ⟨"PYTHONPATH", .prepend (slashed (Path.join os root layout.usdPythonDir))⟩,
    ⟨"CMAKE_PREFIX_PATH", .prepend (slashed root)⟩,
    ⟨"PXR_PLUGINPATH_NAME", .prepend (slashed (Path.join os root "plugin/usd"))⟩]

/-- One change, over the changes so far and the values that were there before. -/
def applyVar (sep : Char) (lookup : String → Option String) (overlay : List (String × String))
    (v : EnvVar) : List (String × String) :=
  match v.op with
  | .set value => Overlay.put Prod.fst (v.key, value) overlay
  | .prepend value =>
    let next := match (overlay.lookup v.key).or (lookup v.key) with
      | some existing => if existing.isEmpty then value else value ++ sep.toString ++ existing
      | none => value
    Overlay.put Prod.fst (v.key, next) overlay

/-- The values of the variables, in the order of their first changes. -/
def resolveWith (env : EnvSet) (lookup : String → Option String) : List (String × String) :=
  env.vars.foldl (applyVar env.sep lookup) []

/-- The values over a given environment, whose names are matched without regard to case. -/
def resolveOver (env : EnvSet) (base : List (String × String)) : List (String × String) :=
  env.resolveWith fun key =>
    (base.find? fun entry => Text.toAsciiLowercase entry.1 == Text.toAsciiLowercase key).map (·.2)

end EnvSet

/-! ## Search paths -/

def EnvOp.value : EnvOp → String
  | .set value | .prepend value => value

/-- One change to the search path of a variable. -/
def searchStep (key : String) (entries : List String) (v : EnvVar) : List String :=
  if v.key = key then
    match v.op with
    | .set value => [value]
    | .prepend value => value :: entries
  else entries

/-- The search path of a variable after the changes. -/
def searchPath (vars : List EnvVar) (key : String) : List String :=
  vars.foldl (searchStep key) []

/-- The value of a variable with a search path; without entries there is none. -/
def pathValue (sep : Char) (entries : List String) : Option String :=
  if entries = [] then none else some (Text.join sep.toString entries)

section Values

variable {sep : Char} {key : String} {vars : List EnvVar} {entries : List String}

theorem searchPath_append (vars vars' : List EnvVar) :
    searchPath (vars ++ vars') key = vars'.foldl (searchStep key) (searchPath vars key) :=
  List.foldl_append

theorem lookup_put (k v key : String) (l : List (String × String)) :
    (Overlay.put Prod.fst (k, v) l).lookup key = if key = k then some v else l.lookup key := by
  induction l with
  | nil =>
    by_cases h : key = k
    · simp [Overlay.put, h]
    · simp [Overlay.put, h, List.lookup_cons, beq_false_of_ne h]
  | cons entry l ih =>
    obtain ⟨k', v'⟩ := entry
    by_cases hk : k' = k
    · subst hk
      by_cases h : key = k'
      · simp [Overlay.put, h]
      · simp [Overlay.put, h, List.lookup_cons, beq_false_of_ne h]
    · rw [Overlay.put, if_neg hk, List.lookup_cons, ih, List.lookup_cons]
      by_cases h : key = k'
      · have hne : key ≠ k := fun heq => hk (h ▸ heq)
        simp [h, hk]
      · simp [beq_false_of_ne h]

theorem join_ne_empty (hentries : ∀ entry ∈ entries, entry ≠ "") (hne : entries ≠ []) :
    Text.join sep.toString entries ≠ "" := by
  obtain ⟨entry, rest, rfl⟩ := List.exists_cons_of_ne_nil hne
  have hentry := hentries entry List.mem_cons_self
  cases rest with
  | nil => exact hentry
  | cons next rest =>
    intro hjoin
    rw [Text.join, String.append_eq_empty_iff, String.append_eq_empty_iff] at hjoin
    · exact hentry hjoin.1.1
    · rintro ⟨⟩

/-- A step of the values is a step of the search path. -/
theorem lookup_applyVar {lookup : String → Option String} (hlookup : lookup key = none)
    {overlay : List (String × String)} (hoverlay : overlay.lookup key = pathValue sep entries)
    (hentries : ∀ entry ∈ entries, entry ≠ "") (v : EnvVar) :
    (EnvSet.applyVar sep lookup overlay v).lookup key =
      pathValue sep (searchStep key entries v) := by
  obtain ⟨k, op⟩ := v
  cases op with
  | set value =>
    rw [EnvSet.applyVar, lookup_put, searchStep]
    by_cases h : k = key
    · simp [h, pathValue, Text.join]
    · rw [if_neg (Ne.symm h), if_neg h, hoverlay]
  | prepend value =>
    dsimp only [EnvSet.applyVar, searchStep]
    rw [lookup_put]
    by_cases h : k = key
    · subst h
      rw [if_pos rfl, if_pos rfl, hoverlay, hlookup, Option.or_none, pathValue]
      by_cases hnil : entries = []
      · subst hnil
        rfl
      · rw [if_neg hnil]
        have hjoin : Text.join sep.toString entries ≠ "" := join_ne_empty hentries hnil
        have hstep : Text.join sep.toString (value :: entries) =
            value ++ sep.toString ++ Text.join sep.toString entries := by
          obtain ⟨entry, rest, rfl⟩ := List.exists_cons_of_ne_nil hnil
          rfl
        rw [pathValue, if_neg (List.cons_ne_nil _ _), hstep]
        exact congrArg some (if_neg (by simpa using hjoin))
    · rw [if_neg (Ne.symm h), if_neg h, hoverlay]

theorem searchStep_ne_empty {v : EnvVar} (hv : v.op.value ≠ "")
    (hentries : ∀ entry ∈ entries, entry ≠ "") :
    ∀ entry ∈ searchStep key entries v, entry ≠ "" := by
  obtain ⟨k, op⟩ := v
  unfold searchStep
  split
  · cases op with
    | set value => exact List.forall_mem_singleton.mpr hv
    | prepend value => exact List.forall_mem_cons.mpr ⟨hv, hentries⟩
  · exact hentries

/-- Over the empty environment, the value of a variable is its search path. -/
theorem EnvSet.lookup_resolveOver (env : EnvSet) (h : ∀ v ∈ env.vars, v.op.value ≠ "")
    (key : String) :
    (env.resolveOver []).lookup key = pathValue env.sep (searchPath env.vars key) := by
  obtain ⟨sep, vars⟩ := env
  suffices hrun : ∀ (overlay : List (String × String)) (entries : List String),
      overlay.lookup key = pathValue sep entries → (∀ entry ∈ entries, entry ≠ "") →
      (vars.foldl (applyVar sep fun _ => none) overlay).lookup key =
        pathValue sep (vars.foldl (searchStep key) entries) by
    exact hrun [] [] rfl nofun
  induction vars with
  | nil => exact fun overlay entries hoverlay _ => hoverlay
  | cons v vars ih =>
    intro overlay entries hoverlay hentries
    have hv := h v List.mem_cons_self
    exact ih (fun v hv => h v (List.mem_cons_of_mem _ hv)) _ _
      (lookup_applyVar rfl hoverlay hentries v) (searchStep_ne_empty hv hentries)

end Values

end OpenStrata.Runtime
