import OpenStrata.Core.Ascii
import OpenStrata.Core.Parts
import OpenStrata.Formation.Conflicts
import OpenStrata.Formation.SdkTree
import OpenStrata.Runtime.Env

/-!
# Activating the SDK

Activation joins the paths that were contributed to a variable to the root of the SDK, and writes
them as one text with the separator of the operating system between them. Whatever reads the
variable splits that text again, and finds the contributed paths below the root, the later
prepended first. No contributed path holds a separator, and a root that holds one is refused. Two
roots are written differently from what they are: one of separators alone, which are trimmed, and
one with a backslash where that separates nothing, which is replaced.

## Main definitions

* `Path.isAbsolute`: `Path::is_absolute`
* `activate`: the environment of an SDK at a root
* `contributedPaths`: the search path that the contributions to a variable make
* `JoinedTo`: an entry names a contributed path below the root
* `ActivatesFaithfully`: every variable splits into its contributed paths below the root

## Main results

* `activate_faithful_iff`: activation is faithful exactly at the roots that are written as they are
-/

namespace OpenStrata

open Std (ExtTreeMap)

namespace Path

/-- A drive letter with its colon. -/
def isDrive (part : String) : Bool :=
  match part.toList with
  | [letter, ':'] => letter.isAlpha
  | _ => false

/-- The parts of an absolute path: of a root, or on Windows of a drive or a share. -/
def isAbsoluteParts : Os → List String → Bool
  | .windows, first :: second :: rest =>
    isDrive first || (first == "" && second == "" &&
      match rest with
      | server :: share :: _ => server != "" && share != ""
      | _ => false)
  | .windows, _ => false
  | _, first :: _ :: _ => first == ""
  | _, _ => false

/-- `Path::is_absolute`. -/
def isAbsolute (os : Os) (path : String) : Bool := isAbsoluteParts os (parts os path)

end Path

namespace RuntimeSdkLayout

open Path (slashed isAbsolute isAbsoluteParts parts components Plain)
open OpenStrata.Runtime (EnvSet EnvVar EnvOp pathValue listSeparator loaderKey)

/-! ## Activation -/

def sdkInvalid (message : String) : Error := .ofCode "COMPOSITION_SDK_INVALID" .validation message

/-- `str::trim_end_matches` of slashes of both kinds. -/
def trimSeparators (path : String) : String :=
  String.ofList (path.toList.rdropWhile ComponentContract.isSlash)

/-- A contributed path as it is written. -/
def activatedPath (os : Os) (root path : String) : String :=
  slashed (trimSeparators (Path.join os root path))

/-- The value of a variable after a contribution, given the one before. -/
def activateValue (separator operation paths : String) (previous : Option String) :
    Result String :=
  if operation = "set" then .ok paths
  else if operation = "prepend" then
    .ok (match previous with
      | none => paths
      | some old => paths ++ separator ++ old)
  else if operation = "append" then
    .ok (match previous with
      | none => paths
      | some old => old ++ separator ++ paths)
  else .error (sdkInvalid "unknown environment operation")

/-- Apply contributions in order. -/
def activateAll (os : Os) (root : String) : ExtTreeMap String String →
    List Formation.EnvironmentContribution → Result (ExtTreeMap String String)
  | values, [] => .ok values
  | values, c :: rest => do
    let separator := (listSeparator os).toString
    let paths := Text.join separator (c.paths.map (activatedPath os root))
    let previous := values[c.key]?.filter (· ≠ "")
    let value ← activateValue separator c.operation paths previous
    activateAll os root (values.insert c.key value) rest

/-- Resolve the contributions for an operating system against an empty environment. -/
def activate (layout : RuntimeSdkLayout) (root : String) (os : Os) : Result EnvSet := do
  Result.failIf (Text.any isPathListChar root ∨
      listSeparator os = ':' ∧ Text.containsChar ':' root)
    (pathInvalid
      "SDK prefix contains an environment/CMake path-list separator or control character")
  let contributions ← Result.okOr (sdkInvalid "missing target environment")
    layout.environment[os.asStr]?
  let values ← activateAll os root ∅ contributions
  let values := layout.settings.toList.foldl (fun values e => values.insert e.1 e.2) values
  return {
    sep := listSeparator os
    vars := values.toList.map fun e => ⟨e.1, .set e.2⟩ }

/-! ## What activation is for -/

/-- A contribution to the search path of a variable. -/
def contribute (key : String) (paths : List String) (c : Formation.EnvironmentContribution) :
    List String :=
  if c.key = key then
    if c.operation = "prepend" then c.paths ++ paths
    else if c.operation = "append" then paths ++ c.paths
    else c.paths
  else paths

/-- The search path of a variable after all contributions, relative to the root. -/
def contributedPaths (key : String) (contributions : List Formation.EnvironmentContribution) :
    List String :=
  contributions.foldl (contribute key) []

/-- An entry of a search path names a path below a root. -/
structure JoinedTo (os : Os) (root path entry : String) : Prop where
  absolute : isAbsolute os entry
  components_eq : components os entry = components os root ++ components os path

/-- The environment gives a variable this value and no other. -/
def Sets (env : EnvSet) (key value : String) : Prop :=
  ∀ v, v ∈ env.vars ∧ v.key = key ↔ v = ⟨key, .set value⟩

/-- Every variable with contributions splits into the contributed paths, each below the root. -/
def ActivatesFaithfully (layout : RuntimeSdkLayout) (root : String) (os : Os) (env : EnvSet) :
    Prop :=
  ∀ contributions, layout.environment[os.asStr]? = some contributions → ∀ c ∈ contributions,
    ∃ value, Sets env c.key value ∧
      List.Forall₂ (JoinedTo os root) (contributedPaths c.key contributions)
        (Text.split (· == listSeparator os) value)

/-! ## Written paths -/

section Written

variable {os : Os} {root path : String} {c : Char}

/-- A path that stays one entry below any root. -/
structure IsEntry (path : String) : Prop where
  plain : ∀ c ∈ path.toList, c ≠ '\\' ∧ c ≠ ':' ∧ c ≠ ';'
  last : path.toList.getLast? ≠ some '/'

theorem isEntry_empty : IsEntry "" := ⟨by simp, by simp⟩

/-- An absolute root stays absolute when more parts take the place of an empty last one. -/
theorem isAbsoluteParts_append {before more : List String}
    (h : isAbsoluteParts os before ∨ isAbsoluteParts os (before ++ [""])) (hmore : more ≠ []) :
    isAbsoluteParts os (before ++ more) := by
  obtain ⟨next, others, rfl⟩ := List.exists_cons_of_ne_nil hmore
  cases os <;>
    rcases before with _ | ⟨first, _ | ⟨second, _ | ⟨server, _ | ⟨share, rest⟩⟩⟩⟩ <;>
    simp [isAbsoluteParts] at h ⊢ <;> grind

theorem isAbsolute_slashed (h : Plain os path) :
    isAbsolute os (slashed path) = isAbsolute os path := by
  rw [isAbsolute, isAbsolute, Path.parts_slashed h]

theorem toList_trimSeparators (path : String) :
    (trimSeparators path).toList = path.toList.rdropWhile ComponentContract.isSlash :=
  String.toList_ofList

theorem mem_of_mem_trimSeparators (h : c ∈ (trimSeparators path).toList) : c ∈ path.toList := by
  rw [toList_trimSeparators] at h
  exact (List.rdropWhile_prefix _ _).mem h

theorem mem_of_mem_slashed (h : c ∈ (slashed path).toList) : c = '/' ∨ c ∈ path.toList := by
  rw [Path.toList_slashed] at h
  obtain ⟨d, hd, rfl⟩ := List.mem_map.mp h
  split_ifs
  · exact .inl rfl
  · exact .inr hd

theorem mem_of_mem_join (h : c ∈ (Path.join os root path).toList) :
    c ∈ root.toList ∨ c ∈ (Path.separator os).toList ∨ c ∈ path.toList := by
  unfold Path.join at h
  split at h
  · rw [String.toList_append, List.mem_append] at h
    exact h.imp_right .inr
  · rw [String.toList_append, String.toList_append, List.mem_append, List.mem_append] at h
    tauto

theorem plain_join (hroot : Plain os root) (hpath : '\\' ∉ path.toList) :
    Plain os (Path.join os root path) := by
  intro hos hmem
  rcases mem_of_mem_join hmem with h | h | h
  · exact hroot hos h
  · cases os with
    | windows => exact hos rfl
    | linux => revert h; decide
    | macos => revert h; decide
  · exact hpath h

/-- A path that is no directory is joined as it is. -/
theorem activatedPath_of_ne (hne : path ≠ "") (h : IsEntry path) :
    activatedPath os root path = slashed (Path.join os root path) := by
  have hlist : path.toList ≠ [] := by
    rwa [Ne, String.toList_eq_nil_iff]
  have hlast : (Path.join os root path).toList.getLast? = some (path.toList.getLast hlist) := by
    unfold Path.join
    split <;> simp [String.toList_append, List.getLast?_append, List.getLast?_eq_some_getLast hlist]
  rw [activatedPath]
  refine congrArg slashed ?_
  rw [trimSeparators, List.rdropWhile_eq_self_iff.mpr, String.ofList_toList]
  intro hjoin hslash
  rw [List.getLast?_eq_some_getLast hjoin] at hlast
  rw [Option.some.inj hlast, ComponentContract.isSlash, Bool.or_eq_true, beq_iff_eq,
    beq_iff_eq] at hslash
  rcases hslash with hslash | hslash
  · exact h.last (by rw [List.getLast?_eq_some_getLast hlist, hslash])
  · exact (h.plain _ (List.getLast_mem hlist)).1 hslash

/-- The root itself is written without its trailing separators. -/
theorem activatedPath_empty (os : Os) (root : String) :
    activatedPath os root "" = slashed (trimSeparators root) := by
  have hseparator : ∃ c, ComponentContract.isSlash c ∧ (Path.separator os).toList = [c] := by
    cases os with
    | windows => exact ⟨'\\', rfl, rfl⟩
    | linux => exact ⟨'/', rfl, rfl⟩
    | macos => exact ⟨'/', rfl, rfl⟩
  obtain ⟨c, hslash, hc⟩ := hseparator
  rw [activatedPath]
  refine congrArg slashed ?_
  unfold Path.join
  split
  · rw [String.append_empty]
  · rw [String.append_empty, trimSeparators, String.toList_append, hc,
      List.rdropWhile_concat_pos _ _ _ hslash, trimSeparators]

/-- Trimming what separates changes no component. -/
theorem components_trimSeparators (hroot : Plain os root) :
    components os (trimSeparators root) = components os root := by
  have hlist (cs : List Char) : (os ≠ .windows → '\\' ∉ cs) →
      components os (String.ofList (cs.rdropWhile ComponentContract.isSlash)) =
        components os (String.ofList cs) := by
    induction cs using List.reverseRecOn with
    | nil => exact fun _ => rfl
    | append_singleton cs c ih =>
      intro hplain
      by_cases hslash : ComponentContract.isSlash c
      · rw [List.rdropWhile_concat_pos _ _ _ hslash,
          ih fun hos hmem => hplain hos (List.mem_append_left _ hmem)]
        have hseparates : Path.isSeparator os c := by
          rw [ComponentContract.isSlash, Bool.or_eq_true, beq_iff_eq, beq_iff_eq] at hslash
          rcases hslash with rfl | rfl
          · exact Path.isSeparator_slash os
          · by_cases hos : os = .windows
            · rw [hos]
              rfl
            · exact absurd (List.mem_append_right cs (List.mem_singleton.mpr rfl)) (hplain hos)
        have hparts : parts os (String.ofList (cs ++ [c])) =
            parts os (String.ofList cs) ++ [""] := by
          have hsplit := Text.split_append_char hseparates (String.toList_ofList (l := [c]))
            (String.ofList cs) ""
          rwa [String.append_empty, ← String.ofList_append] at hsplit
        exact (Path.components_of_parts (.inr hparts)).symm
      · rw [List.rdropWhile_concat_neg _ _ _ hslash]
  have hroot' := hlist root.toList hroot
  rwa [String.ofList_toList] at hroot'

/-- A contributed path is written below the root. -/
theorem joinedTo_of_ne (habsolute : isAbsolute os root) (hroot : Plain os root) (hne : path ≠ "")
    (h : IsEntry path) : JoinedTo os root path (activatedPath os root path) := by
  have hplain : Plain os (Path.join os root path) :=
    plain_join hroot fun hmem => (h.plain _ hmem).1 rfl
  rw [activatedPath_of_ne hne h]
  constructor
  · obtain ⟨before, hbefore, hparts⟩ := Path.parts_join os root
    rw [isAbsolute_slashed hplain, isAbsolute, hparts]
    rw [isAbsolute] at habsolute
    refine isAbsoluteParts_append ?_ (by simp [parts, Text.split])
    rcases hbefore with hbefore | hbefore
    · exact .inl (hbefore ▸ habsolute)
    · exact .inr (hbefore ▸ habsolute)
  · rw [Path.components_slashed hplain, Path.components_join]

theorem components_empty (os : Os) : components os "" = [] := by
  cases os <;> rfl

/-- The root is written as itself exactly when it is one that is written as it is. -/
theorem joinedTo_empty : JoinedTo os root "" (activatedPath os root "") ↔
    isAbsolute os (trimSeparators root) ∧ Plain os root := by
  have htrimmed (hroot : Plain os root) : Plain os (trimSeparators root) := fun hos hmem =>
    hroot hos (mem_of_mem_trimSeparators hmem)
  rw [activatedPath_empty]
  constructor
  · rintro ⟨habsolute, hcomponents⟩
    have hroot : Plain os root := by
      intro hos hmem
      -- the backslash stands in a component of the root, and in none of what is written
      have hkeeps : Path.isSeparator os '\\' = false := by
        cases os with
        | windows => exact absurd rfl hos
        | linux => rfl
        | macos => rfl
      rcases Text.mem_split_of_mem (p := Path.isSeparator os) hmem with hsep | ⟨part, hpart, hin⟩
      · rw [hkeeps] at hsep
        cases hsep
      · have hcomponent : part ∈ components os root := by
          refine List.mem_filter.mpr ⟨hpart, ?_⟩
          rw [Path.isComponent, Bool.and_eq_true, bne_iff_ne, bne_iff_ne]
          constructor
          · rintro rfl
            cases hin
          · rintro rfl
            revert hin
            decide
        rw [components_empty, List.append_nil] at hcomponents
        rw [← hcomponents] at hcomponent
        obtain ⟨chars, hchars, rfl⟩ := List.mem_map.mp (List.mem_filter.mp hcomponent).1
        rw [String.toList_ofList] at hin
        exact Path.backslash_not_mem_slashed _ (Text.mem_of_mem_splitOnP hchars hin)
    refine ⟨?_, hroot⟩
    rw [isAbsolute_slashed (htrimmed hroot)] at habsolute
    exact habsolute
  · rintro ⟨habsolute, hroot⟩
    constructor
    · rw [isAbsolute_slashed (htrimmed hroot)]
      exact habsolute
    · rw [Path.components_slashed (htrimmed hroot), components_trimSeparators hroot,
        components_empty, List.append_nil]

theorem joinedTo_activatedPath (habsolute : isAbsolute os root)
    (htrimmed : isAbsolute os (trimSeparators root)) (hroot : Plain os root) (h : IsEntry path) :
    JoinedTo os root path (activatedPath os root path) := by
  by_cases hne : path = ""
  · rw [hne]
    exact joinedTo_empty.mpr ⟨htrimmed, hroot⟩
  · exact joinedTo_of_ne habsolute hroot hne h

theorem JoinedTo.ne_empty {entry : String} (h : JoinedTo os root path entry) : entry ≠ "" := by
  rintro rfl
  have habsolute := h.absolute
  revert habsolute
  cases os <;> decide

/-- A written path holds no separator of path lists. -/
theorem separator_not_mem (hroot : listSeparator os ∉ root.toList) (h : IsEntry path) :
    listSeparator os ∉ (activatedPath os root path).toList := by
  intro hmem
  have hslash : listSeparator os ≠ '/' ∧ listSeparator os ∉ (Path.separator os).toList := by
    cases os <;> decide
  rcases mem_of_mem_slashed hmem with hmem | hmem
  · exact hslash.1 hmem
  · rcases mem_of_mem_join (mem_of_mem_trimSeparators hmem) with hmem | hmem | hmem
    · exact hroot hmem
    · exact hslash.2 hmem
    · obtain ⟨-, hcolon, hsemicolon⟩ := h.plain _ hmem
      cases os with
      | windows => exact hsemicolon rfl
      | linux => exact hcolon rfl
      | macos => exact hcolon rfl

end Written

/-! ## Values -/

section Values

variable {os : Os} {root : String} {contributions : List Formation.EnvironmentContribution}
  {values values' : ExtTreeMap String String} {key : String}

/-- The written search path of a variable. -/
def writtenPaths (os : Os) (root : String) (paths : List String) : Option String :=
  pathValue (listSeparator os) (paths.map (activatedPath os root))

/-- A contribution that is applied makes its step of the search path. -/
theorem activateValue_ok {operation value : String} {new old : List String} (hnew : new ≠ [])
    (hold : ∀ path ∈ old, activatedPath os root path ≠ "")
    (h : activateValue (listSeparator os).toString operation
      (Text.join (listSeparator os).toString (new.map (activatedPath os root)))
      ((writtenPaths os root old).filter (· ≠ "")) = .ok value) :
    some value = writtenPaths os root
      (if operation = "prepend" then new ++ old
        else if operation = "append" then old ++ new
        else new) := by
  have hnew' : new.map (activatedPath os root) ≠ [] := by
    rwa [Ne, List.map_eq_nil_iff]
  have hwritten (paths : List String) (hne : paths ≠ []) : writtenPaths os root paths =
      some (Text.join (listSeparator os).toString (paths.map (activatedPath os root))) := by
    rw [writtenPaths, pathValue, if_neg]
    rwa [List.map_eq_nil_iff]
  have hprevious : (writtenPaths os root old).filter (· ≠ "") = writtenPaths os root old := by
    by_cases hnil : old = []
    · rw [hnil]
      rfl
    · rw [hwritten old hnil, Option.filter_some, if_pos]
      refine decide_eq_true (Runtime.join_ne_empty ?_ (by rwa [Ne, List.map_eq_nil_iff]))
      rintro entry hentry
      obtain ⟨path, hpath, rfl⟩ := List.mem_map.mp hentry
      exact hold path hpath
  rw [hprevious] at h
  unfold activateValue at h
  by_cases hset : operation = "set"
  · subst hset
    rw [if_pos rfl] at h
    rw [if_neg (by decide), if_neg (by decide), hwritten new hnew, Except.ok.inj h]
  · rw [if_neg hset] at h
    by_cases hnil : old = []
    · subst hnil
      simp only [List.append_nil, List.nil_append, ite_self]
      rw [hwritten new hnew]
      have hnone : writtenPaths os root [] = none := rfl
      rw [hnone] at h
      split_ifs at h
      · exact congrArg some (Except.ok.inj h).symm
      · exact congrArg some (Except.ok.inj h).symm
    · rw [hwritten old hnil] at h
      have hold' : old.map (activatedPath os root) ≠ [] := by
        rwa [Ne, List.map_eq_nil_iff]
      split_ifs at h ⊢
      · rw [hwritten _ (List.append_ne_nil_of_left_ne_nil hnew _), List.map_append,
          Text.join_append hnew' hold', ← Except.ok.inj h]
      · rw [hwritten _ (List.append_ne_nil_of_left_ne_nil hnil _), List.map_append,
          Text.join_append hold' hnew', ← Except.ok.inj h]

/-- Every variable is written as its search path. -/
theorem activateAll_ok {paths : String → List String}
    (hcontributions : ∀ c ∈ contributions, c.paths ≠ [] ∧
      ∀ path ∈ c.paths, activatedPath os root path ≠ "")
    (hpaths : ∀ key, ∀ path ∈ paths key, activatedPath os root path ≠ "")
    (hvalues : ∀ key : String, values[key]? = writtenPaths os root (paths key))
    (h : activateAll os root values contributions = .ok values') (key : String) :
    values'[key]? = writtenPaths os root (contributions.foldl (contribute key) (paths key)) := by
  induction contributions generalizing values paths with
  | nil =>
    obtain rfl := Except.ok.inj h
    exact hvalues key
  | cons c rest ih =>
    obtain ⟨value, hvalue, h⟩ := Result.bind_ok.mp h
    obtain ⟨hne, hentries⟩ := hcontributions c List.mem_cons_self
    rw [hvalues] at hvalue
    refine @ih _ (fun key => contribute key (paths key) c)
      (fun c hc => hcontributions c (List.mem_cons_of_mem _ hc)) ?_ ?_ h
    · intro key path hpath
      unfold contribute at hpath
      split_ifs at hpath
      · exact (List.mem_append.mp hpath).elim (hentries path) (hpaths key path)
      · exact (List.mem_append.mp hpath).elim (hpaths key path) (hentries path)
      · exact hentries path hpath
      · exact hpaths key path hpath
    · intro key
      rw [ExtTreeMap.getElem?_insert, contribute]
      by_cases hkey : c.key = key
      · subst hkey
        rw [if_pos (by simp), if_pos rfl]
        exact activateValue_ok hne (hpaths c.key) hvalue
      · rw [if_neg (by simpa using hkey), if_neg hkey]
        exact hvalues key

theorem activateAll_append (before after : List Formation.EnvironmentContribution) :
    activateAll os root values (before ++ after) =
      (activateAll os root values before >>= fun values => activateAll os root values after) := by
  induction before generalizing values with
  | nil => rfl
  | cons c rest ih =>
    rw [List.cons_append, activateAll, activateAll]
    simp only [ih, bind_assoc]

end Values

/-! ## Contributed paths -/

section Contributed

variable {os : Os} {resolved : ResolvedRuntimeComposition}
  {inventory : List CompositionInventoryEntry} {layout : RuntimeSdkLayout}
  {path value source : String} {c : Char}

/-- A character that can stand in a contributed path. -/
def IsEntryChar (c : Char) : Prop := c ≠ '\\' ∧ c ≠ ':' ∧ c ≠ ';'

theorem isEntryChar_of_portable (h : portable path = .ok value) :
    ∀ c ∈ value.toList, IsEntryChar c := by
  obtain ⟨heq, hparts⟩ := portable_ok h
  intro c hc
  rw [heq] at hc
  rcases Text.mem_toList_join hc with rfl | ⟨part, hpart, hin⟩
  · refine ⟨?_, ?_, ?_⟩ <;> decide
  · have hportable := hparts part hpart
    rw [isPortablePart, Bool.and_eq_true] at hportable
    have hchar := List.all_eq_true.mp hportable.2 c hin
    simp only [isPathListChar, Bool.and_eq_true, bne_iff_ne, Bool.not_eq_true',
      Bool.or_eq_false_iff, beq_eq_false_iff_ne] at hchar
    exact ⟨hchar.1.1.2, hchar.1.2, hchar.2.2⟩

theorem isEntryChar_of_portableId (h : isPortableId source) :
    ∀ c ∈ source.toList, IsEntryChar c := by
  rw [isPortableId, Bool.and_eq_true] at h
  intro c hc
  have hchar := List.all_eq_true.mp h.2 c hc
  refine ⟨?_, ?_, ?_⟩ <;>
  · rintro rfl
    revert hchar
    decide

/-- Whatever stands below a component is an entry once its trailing slashes are trimmed. -/
theorem isEntry_trimEndSlashes (h : ∀ c ∈ path.toList, IsEntryChar c) :
    IsEntry (trimEndSlashes path) := by
  have hlist : (trimEndSlashes path).toList = path.toList.rdropWhile (· == '/') :=
    String.toList_ofList
  constructor
  · intro c hc
    rw [hlist] at hc
    exact h c ((List.rdropWhile_prefix _ _).mem hc)
  · intro hlast
    rw [hlist] at hlast
    have hne : path.toList.rdropWhile (· == '/') ≠ [] := by
      intro hnil
      rw [hnil] at hlast
      cases hlast
    have hnot := List.rdropWhile_last_not _ _ hne
    rw [List.getLast?_eq_some_getLast hne] at hlast
    exact hnot (beq_iff_eq.mpr (Option.some.inj hlast))

theorem isEntryChar_component {tail : String} (hsource : isPortableId source)
    (htail : ∀ c ∈ tail.toList, IsEntryChar c) :
    ∀ c ∈ ("components/" ++ source ++ "/" ++ tail).toList, IsEntryChar c := by
  have hfixed : ∀ c ∈ "components/".toList ++ "/".toList, IsEntryChar c := by
    unfold IsEntryChar
    exact Ascii.forall_mem_of_all (by decide)
  intro c hc
  simp only [String.toList_append, List.mem_append] at hc
  rcases hc with ((hc | hc) | hc) | hc
  · exact hfixed c (List.mem_append_left _ hc)
  · exact isEntryChar_of_portableId hsource c hc
  · exact hfixed c (List.mem_append_right _ hc)
  · exact htail c hc

theorem contributionPaths_ok {inventory : Inventory} {e : ResolvedEnvironmentContribution}
    {values paths : List String} (hsource : isPortableId e.source)
    (h : contributionPaths resolved inventory e values = .ok paths) :
    ∀ path ∈ paths, IsEntry path := by
  induction values generalizing paths with
  | nil =>
    obtain rfl := Except.ok.inj h
    exact nofun
  | cons value rest ih =>
    obtain ⟨clean, hclean, h⟩ := Result.bind_ok.mp h
    obtain ⟨others, hothers, h⟩ := Result.bind_ok.mp h
    have hfirst : IsEntry (trimEndSlashes ("components/" ++ e.source ++ "/" ++ clean)) :=
      isEntry_trimEndSlashes (isEntryChar_component hsource (isEntryChar_of_portable hclean))
    split at h
    · rw [← Except.ok.inj h]
      exact ih hothers
    · rw [← Except.ok.inj h]
      exact List.forall_mem_cons.mpr ⟨hfirst, ih hothers⟩

/-- A contribution that activation writes faithfully. -/
structure IsWritable (c : Formation.EnvironmentContribution) : Prop where
  paths_ne : c.paths ≠ []
  entries : ∀ path ∈ c.paths, IsEntry path
  /-- No setting has the name of the variable. -/
  free : c.key ∉ activationSettings

theorem componentEnvironment_ok {inventory : Inventory} {set : ExtTreeMap String (List String)}
    {environment : List ResolvedEnvironmentContribution}
    {env : List Formation.EnvironmentContribution}
    (hsources : ∀ e ∈ environment, isPortableId e.source)
    (h : componentEnvironment resolved inventory set environment = .ok env) :
    ∀ c ∈ env, IsWritable c := by
  induction environment generalizing set env with
  | nil =>
    obtain rfl := Except.ok.inj h
    exact nofun
  | cons e rest ih =>
    obtain ⟨⟨⟩, hchecked, h⟩ := Result.bind_ok.mp h
    obtain ⟨paths, hpaths, h⟩ := Result.bind_ok.mp h
    obtain ⟨⟨⟩, hfree, -⟩ := Result.bind_ok.mp hchecked
    rw [Result.failIf_ok, ← ExtTreeMap.mem_iff_contains] at hfree
    have hrest := fun {set env} => @ih set env fun e he => hsources e (List.mem_cons_of_mem _ he)
    split_ifs at h with hnil hset
    · exact hrest h
    · obtain ⟨⟨⟩, -, h⟩ := Result.bind_ok.mp h
      obtain ⟨others, hothers, h⟩ := Result.bind_ok.mp h
      rw [← Except.ok.inj h]
      exact List.forall_mem_cons.mpr
        ⟨⟨hnil, contributionPaths_ok (hsources e List.mem_cons_self) hpaths, hfree⟩, hrest hothers⟩
    · obtain ⟨others, hothers, h⟩ := Result.bind_ok.mp h
      rw [← Except.ok.inj h]
      exact List.forall_mem_cons.mpr
        ⟨⟨hnil, contributionPaths_ok (hsources e List.mem_cons_self) hpaths, hfree⟩, hrest hothers⟩

/-- The Python directory that is found is one of the usual ones. -/
theorem isEntry_runtimePythonPath {component target : String} (hid : isPortableId component)
    (h : runtimePythonPath inventory component target = some path) : IsEntry path := by
  obtain ⟨directory, hdirectory, rfl⟩ := Option.map_eq_some_iff.mp h
  obtain ⟨hplain, c, hlast, hc⟩ : (∀ c ∈ directory.toList, IsEntryChar c) ∧
      ∃ c, directory.toList.getLast? = some c ∧ c ≠ '/' := by
    rcases Option.or_eq_some_iff.mp hdirectory with hfound | ⟨-, hfound⟩
    · unfold IsEntryChar
      have hdirectory := List.mem_of_find?_eq_some hfound
      simp only [List.mem_cons, List.not_mem_nil, or_false] at hdirectory
      rcases hdirectory with rfl | rfl | rfl
      all_goals exact ⟨Ascii.forall_mem_of_all (by decide), _, rfl, by decide⟩
    · have hversioned := List.find?_some hfound
      unfold isVersionedSitePackages at hversioned
      split at hversioned
      · cases hversioned
      · rename_i version hversion
        obtain ⟨middle, hmiddle, hsuffix⟩ := Option.bind_eq_some_iff.mp hversion
        rw [Text.stripPrefix_eq_some.mp hmiddle, Text.stripSuffix_eq_some.mp hsuffix]
        simp only [Bool.and_eq_true] at hversioned
        have hfixed : ∀ c ∈ "lib/python".toList ++ "/site-packages".toList, IsEntryChar c := by
          unfold IsEntryChar
          exact Ascii.forall_mem_of_all (by decide)
        constructor
        · intro c hc
          rw [String.toList_append, String.toList_append, List.mem_append, List.mem_append] at hc
          rcases hc with hc | hc | hc
          · exact hfixed c (List.mem_append_left _ hc)
          · have hdigit := List.all_eq_true.mp hversioned.1.2 c hc
            refine ⟨?_, ?_, ?_⟩ <;>
            · rintro rfl
              revert hdigit
              decide
          · exact hfixed c (List.mem_append_right _ hc)
        · refine ⟨'s', ?_, by decide⟩
          rw [String.toList_append, String.toList_append, List.getLast?_append,
            List.getLast?_append]
          rfl
  constructor
  · exact isEntryChar_component hid hplain
  · rw [String.toList_append, List.getLast?_append, hlast, Option.some_or, Ne, Option.some_inj]
    exact hc

/-- The public prefix of the SDK comes last, and with it the root itself. -/
theorem activationEnvironment_ok {env env' : List Formation.EnvironmentContribution}
    (henv : ∀ c ∈ env, IsWritable c) (h : activationEnvironment env os = .ok env') :
    (∀ c ∈ env', IsWritable c) ∧
      ∃ before, env' = before ++ [prependPaths "CMAKE_PREFIX_PATH" "runtime-sdk" [""]] := by
  obtain ⟨⟨⟩, -, h⟩ := Result.bind_ok.mp h
  rw [← Except.ok.inj h]
  have hroots : ∀ root ∈ [("PATH", "bin"), (loaderKey os, "lib"), ("PYTHONPATH", "python"),
      ("NODE_PATH", "node"), ("PXR_PLUGINPATH_NAME", "plugins"), ("CMAKE_PREFIX_PATH", "")],
      root.1 ∉ activationSettings ∧ (∀ c ∈ root.2.toList, c ≠ '\\' ∧ c ≠ ':' ∧ c ≠ ';') ∧
        root.2.toList.getLast? ≠ some '/' := by
    have hloader : loaderKey os ∉ activationSettings := by cases os <;> decide
    simp only [List.forall_mem_cons]
    refine ⟨⟨by decide, ?_⟩, ⟨hloader, ?_⟩, ⟨by decide, ?_⟩,
      ⟨by decide, ?_⟩, ⟨by decide, ?_⟩, ⟨by decide, ?_⟩,
      List.forall_mem_nil _⟩
    all_goals exact ⟨Ascii.forall_mem_of_all (by decide), by decide⟩
  constructor
  · intro c hc
    rcases List.mem_append.mp hc with hc | hc
    · exact henv c hc
    · obtain ⟨root, hroot, rfl⟩ := List.mem_map.mp hc
      obtain ⟨hkey, hplain, hlast⟩ := hroots root hroot
      exact ⟨List.cons_ne_nil _ _, List.forall_mem_singleton.mpr ⟨hplain, hlast⟩, hkey⟩
  · refine ⟨env ++ [prependPaths "PATH" "runtime-sdk" ["bin"],
      prependPaths (loaderKey os) "runtime-sdk" ["lib"],
      prependPaths "PYTHONPATH" "runtime-sdk" ["python"],
      prependPaths "NODE_PATH" "runtime-sdk" ["node"],
      prependPaths "PXR_PLUGINPATH_NAME" "runtime-sdk" ["plugins"]], ?_⟩
    rw [List.append_assoc]
    rfl

/-- The ids of the components of a composition are portable, where it names them. -/
theorem portableIds {codec : Codec} {declared : RuntimeCompositionManifest}
    {records : List ArtifactRecord}
    (h : resolveRuntimeComposition codec declared ⟨records⟩ = .ok resolved) :
    (∀ e ∈ resolved.environment, isPortableId e.source) ∧
      ∀ component ∈ resolved.components, isPortableId component.id := by
  obtain ⟨candidates, s, hunique, hmem, hinv, hfinish⟩ := resolveRuntimeComposition_stages h
  have hvalid : ∀ c ∈ candidates, isPortableId c.contract.id := by
    intro c hc
    obtain ⟨hrecord, hcomponent⟩ := (hmem c).mp hc
    simp only [resolveRuntimeComposition, Result.bind_ok] at h
    obtain ⟨-, -, -, -, collected, hcollect, -⟩ := h
    obtain ⟨hrecords, hall, -⟩ := RuntimeComposition.collectCandidates_ok hcollect
    rw [← hrecords] at hrecord
    obtain ⟨d, hd, heq⟩ := List.mem_map.mp hrecord
    obtain ⟨-, hd', hchecked, -⟩ := RuntimeComposition.candidateOf_ok (hall d hd).1
    rw [heq, hcomponent] at hd'
    rw [Option.some.inj hd']
    obtain ⟨⟨⟩, -, hchecked⟩ := Result.bind_ok.mp hchecked
    obtain ⟨⟨⟩, hid, -⟩ := Result.bind_ok.mp hchecked
    exact ComponentContract.portableId_ok.mp hid
  obtain ⟨-, -, -, henvironment, -⟩ := RuntimeComposition.finish_checks hfinish
  constructor
  · intro e he
    obtain ⟨hperm, -⟩ := RuntimeComposition.resolveEnvironment_ok henvironment
    obtain ⟨⟨c, e⟩, hc, rfl⟩ := List.mem_map.mp (hperm.mem_iff.mp he)
    obtain ⟨c', hselected, he'⟩ := List.mem_flatMap.mp hc
    obtain ⟨e', -, heq⟩ := List.mem_map.mp he'
    obtain ⟨rfl, rfl⟩ := Prod.mk.inj heq
    obtain ⟨id, hid⟩ := TreeMap.mem_values.mp hselected
    exact hvalid _ (hinv.selected_mem id _ hid).1
  · intro component hcomponent
    obtain ⟨chosen, hchosen, hcomponents⟩ := RuntimeComposition.exists_chosen hinv hfinish
    rw [hcomponents] at hcomponent
    obtain ⟨c, hc, rfl⟩ := List.mem_map.mp hcomponent
    obtain ⟨id, hid⟩ := TreeMap.mem_values.mp (hchosen.mem_iff.mp hc)
    exact hvalid _ (hinv.selected_mem id _ hid).1

/-- What a derived layout has for an operating system. -/
theorem environment_of_derive {codec : Codec}
    (h : derive codec resolved inventory = .ok layout) (os : Os) :
    layout.settings = activationSettings ∧ ∃ env,
      environmentFor resolved inventory os = .ok env ∧
        layout.environment[os.asStr]? = some env := by
  obtain ⟨files, -, h⟩ := Result.bind_ok.mp h
  obtain ⟨environment, henvironment, h⟩ := Result.bind_ok.mp h
  obtain rfl := Except.ok.inj h
  refine ⟨rfl, ?_⟩
  simp only [List.mapM_cons, List.mapM_nil, Result.bind_ok] at henvironment
  obtain ⟨_, ⟨linux, hlinux, hl⟩, _, ⟨_, ⟨macos, hmacos, hm⟩, _, ⟨_, ⟨windows, hwindows, hw⟩, _,
    hnil, hlast⟩, hmiddle⟩, hfirst⟩ := henvironment
  cases hl
  cases hm
  cases hw
  cases hnil
  cases hlast
  cases hmiddle
  cases hfirst
  have hget (key : String) := TreeMap.getElem?_foldl_insert
    [(Os.linux.asStr, linux), (Os.macos.asStr, macos), (Os.windows.asStr, windows)] key
  cases os with
  | linux => exact ⟨linux, hlinux, by rw [ExtTreeMap.ofList_eq_foldl]; exact hget _⟩
  | macos => exact ⟨macos, hmacos, by rw [ExtTreeMap.ofList_eq_foldl]; exact hget _⟩
  | windows => exact ⟨windows, hwindows, by rw [ExtTreeMap.ofList_eq_foldl]; exact hget _⟩

/-- The contributions of a derived layout can be written, and the last is the root itself. -/
theorem environmentFor_ok {env : List Formation.EnvironmentContribution}
    (hsources : ∀ e ∈ resolved.environment, isPortableId e.source)
    (hids : ∀ component ∈ resolved.components, isPortableId component.id)
    (h : environmentFor resolved inventory os = .ok env) :
    (∀ c ∈ env, IsWritable c) ∧
      ∃ before, env = before ++ [prependPaths "CMAKE_PREFIX_PATH" "runtime-sdk" [""]] := by
  obtain ⟨own, hown, h⟩ := Result.bind_ok.mp h
  refine activationEnvironment_ok (fun c hc => ?_) h
  rcases List.mem_append.mp hc with hc | hc
  · exact componentEnvironment_ok hsources hown c hc
  · obtain ⟨component, hcomponent, hpath⟩ := List.mem_filterMap.mp hc
    obtain ⟨path, hfound, rfl⟩ := Option.map_eq_some_iff.mp hpath
    have hid := hids component (List.mem_of_mem_filter hcomponent)
    have hfree : "PYTHONPATH" ∉ activationSettings := by decide
    exact ⟨List.cons_ne_nil _ _,
      List.forall_mem_singleton.mpr (isEntry_runtimePythonPath hid hfound), hfree⟩

end Contributed

/-! ## Faithful activation -/

section Activated

variable {codec : Codec} {declared : RuntimeCompositionManifest} {records : List ArtifactRecord}
  {resolved : ResolvedRuntimeComposition} {inventory : List CompositionInventoryEntry}
  {layout : RuntimeSdkLayout} {root : String} {os : Os} {env : EnvSet}

theorem getElem?_foldl_settings {values : ExtTreeMap String String}
    {settings : List (String × String)} {key : String} (h : ∀ e ∈ settings, e.1 ≠ key) :
    (settings.foldl (fun values e => values.insert e.1 e.2) values)[key]? = values[key]? := by
  induction settings generalizing values with
  | nil => rfl
  | cons e rest ih =>
    rw [List.foldl_cons, ih fun e he => h e (List.mem_cons_of_mem _ he)]
    exact TreeMap.getElem?_insert_of_ne (h e List.mem_cons_self)

/-- What an accepted root and the values written for it are. -/
theorem activate_ok {contributions : List Formation.EnvironmentContribution}
    (hget : layout.environment[os.asStr]? = some contributions)
    (hfree : ∀ c ∈ contributions, c.key ∉ layout.settings)
    (h : layout.activate root os = .ok env) : listSeparator os ∉ root.toList ∧
      ∃ values, activateAll os root ∅ contributions = .ok values ∧
        ∀ c ∈ contributions, ∀ value, values[c.key]? = some value → Sets env c.key value := by
  obtain ⟨⟨⟩, hroot, hrest⟩ := Result.bind_ok.mp h
  obtain ⟨found, hfound, hrest'⟩ := Result.bind_ok.mp hrest
  obtain ⟨values, hvalues, henv⟩ := Result.bind_ok.mp hrest'
  obtain rfl := Option.some.inj (hget.symm.trans (Result.okOr_ok.mp hfound))
  obtain rfl := Except.ok.inj henv
  constructor
  · rw [Result.failIf_ok, not_or] at hroot
    intro hmem
    cases os with
    | windows => exact hroot.1 (List.any_eq_true.mpr ⟨';', hmem, rfl⟩)
    | linux => exact hroot.2 ⟨rfl, List.contains_iff_mem.mpr hmem⟩
    | macos => exact hroot.2 ⟨rfl, List.contains_iff_mem.mpr hmem⟩
  · refine ⟨values, hvalues, fun c hc value hvalue v => ?_⟩
    have hkept : (layout.settings.toList.foldl (fun values e => values.insert e.1 e.2)
        values)[c.key]? = values[c.key]? := by
      refine getElem?_foldl_settings fun e he heq => hfree c hc ?_
      rw [← heq, ExtTreeMap.mem_iff_isSome_getElem?,
        ExtTreeMap.mem_toList_iff_getElem?_eq_some.mp he]
      rfl
    rw [hvalue] at hkept
    simp only [List.mem_map]
    constructor
    · rintro ⟨⟨e, he, rfl⟩, hkey⟩
      replace hkey : e.1 = c.key := hkey
      rw [← hkey, ExtTreeMap.mem_toList_iff_getElem?_eq_some.mp he] at hkept
      rw [← Option.some.inj hkept, hkey]
    · rintro rfl
      exact ⟨⟨(c.key, value), ExtTreeMap.mem_toList_iff_getElem?_eq_some.mpr hkept, rfl⟩, rfl⟩

theorem Sets.unique {key value value' : String} (h : Sets env key value)
    (h' : Sets env key value') : value = value' := by
  have hmem := (h ⟨key, .set value⟩).mpr rfl
  have heq := (h' ⟨key, .set value⟩).mp hmem
  cases heq
  rfl

theorem mem_foldl_contribute {key path : String}
    {contributions : List Formation.EnvironmentContribution} {paths : List String}
    (h : path ∈ contributions.foldl (contribute key) paths) :
    path ∈ paths ∨ ∃ c ∈ contributions, path ∈ c.paths := by
  induction contributions generalizing paths with
  | nil => exact .inl h
  | cons c rest ih =>
    rcases ih h with h | ⟨d, hd, hpath⟩
    · unfold contribute at h
      split_ifs at h
      · rcases List.mem_append.mp h with h | h
        · exact .inr ⟨c, List.mem_cons_self, h⟩
        · exact .inl h
      · rcases List.mem_append.mp h with h | h
        · exact .inl h
        · exact .inr ⟨c, List.mem_cons_self, h⟩
      · exact .inr ⟨c, List.mem_cons_self, h⟩
      · exact .inl h
    · exact .inr ⟨d, List.mem_cons_of_mem _ hd, hpath⟩

theorem foldl_contribute_ne {key : String}
    {contributions : List Formation.EnvironmentContribution} {paths : List String}
    (hne : ∀ c ∈ contributions, c.paths ≠ [])
    (h : paths ≠ [] ∨ ∃ c ∈ contributions, c.key = key) :
    contributions.foldl (contribute key) paths ≠ [] := by
  induction contributions generalizing paths with
  | nil => exact h.resolve_right (by rintro ⟨c, hc, -⟩; cases hc)
  | cons c rest ih =>
    refine ih (fun d hd => hne d (List.mem_cons_of_mem _ hd)) ?_
    have hc := hne c List.mem_cons_self
    unfold contribute
    by_cases hkey : c.key = key
    · left
      rw [if_pos hkey]
      split_ifs
      · exact List.append_ne_nil_of_left_ne_nil hc _
      · exact List.append_ne_nil_of_right_ne_nil _ hc
      · exact hc
    · rw [if_neg hkey]
      refine h.imp_right ?_
      rintro ⟨d, hd, hdkey⟩
      rcases List.mem_cons.mp hd with rfl | hd
      · exact absurd hdkey hkey
      · exact ⟨d, hd, hdkey⟩

/-- Where every written path names its own, every variable splits into its search path. -/
theorem activatesFaithfully_of_joined {contributions : List Formation.EnvironmentContribution}
    (hget : layout.environment[os.asStr]? = some contributions)
    (hwritable : ∀ c ∈ contributions, IsWritable c)
    (hfree : ∀ c ∈ contributions, c.key ∉ layout.settings)
    (hjoined : ∀ path, IsEntry path → JoinedTo os root path (activatedPath os root path))
    (h : layout.activate root os = .ok env) : layout.ActivatesFaithfully root os env := by
  obtain ⟨hroot, values, hvalues, hsets⟩ := activate_ok hget hfree h
  intro contributions' hget' c hc
  obtain rfl := Option.some.inj (hget.symm.trans hget')
  have hentries (path : String) (hpath : path ∈ contributedPaths c.key contributions) :
      IsEntry path := by
    rcases mem_foldl_contribute hpath with hnil | ⟨d, hd, hmem⟩
    · cases hnil
    · exact (hwritable d hd).entries path hmem
  have hne : contributedPaths c.key contributions ≠ [] :=
    foldl_contribute_ne (fun d hd => (hwritable d hd).paths_ne) (.inr ⟨c, hc, rfl⟩)
  have hne' : (contributedPaths c.key contributions).map (activatedPath os root) ≠ [] := by
    rwa [Ne, List.map_eq_nil_iff]
  have hwritten : values[c.key]? = writtenPaths os root (contributedPaths c.key contributions) := by
    refine @activateAll_ok os root contributions ∅ values (fun _ => []) (fun d hd => ?_)
      (fun _ => nofun) (fun key => ExtTreeMap.getElem?_empty) hvalues c.key
    exact ⟨(hwritable d hd).paths_ne, fun path hpath =>
      (hjoined path ((hwritable d hd).entries path hpath)).ne_empty⟩
  rw [writtenPaths, pathValue, if_neg hne'] at hwritten
  refine ⟨_, hsets c hc _ hwritten, ?_⟩
  have hsplit : Text.split (· == listSeparator os) (Text.join (listSeparator os).toString
      ((contributedPaths c.key contributions).map (activatedPath os root))) =
        (contributedPaths c.key contributions).map (activatedPath os root) := by
    refine Text.split_join_char (String.toList_singleton _) hne' fun entry hentry => ?_
    obtain ⟨path, hpath, rfl⟩ := List.mem_map.mp hentry
    exact separator_not_mem hroot (hentries path hpath)
  rw [hsplit, List.forall₂_map_right_iff, List.forall₂_same]
  exact fun path hpath => hjoined path (hentries path hpath)

/-- When activation is faithful, the root itself is written as it is. -/
theorem joined_root_of_activatesFaithfully
    {before : List Formation.EnvironmentContribution}
    (hget : layout.environment[os.asStr]? =
      some (before ++ [prependPaths "CMAKE_PREFIX_PATH" "runtime-sdk" [""]]))
    (hfree : ∀ c ∈ before ++ [prependPaths "CMAKE_PREFIX_PATH" "runtime-sdk" [""]],
      c.key ∉ layout.settings)
    (h : layout.activate root os = .ok env)
    (hfaithful : layout.ActivatesFaithfully root os env) :
    JoinedTo os root "" (activatedPath os root "") := by
  obtain ⟨hroot, values, hvalues, hsets⟩ := activate_ok hget hfree h
  have hlast := List.mem_append_right before
    (List.mem_singleton.mpr (Eq.refl (prependPaths "CMAKE_PREFIX_PATH" "runtime-sdk" [""])))
  obtain ⟨value, hsetsValue, hsplit⟩ := hfaithful _ hget _ hlast
  -- the last contribution puts the root in front of what was there
  obtain ⟨others, hothers⟩ : ∃ others, Text.split (· == listSeparator os) value =
      activatedPath os root "" :: others := by
    rw [activateAll_append] at hvalues
    obtain ⟨earlier, -, hvalues⟩ := Result.bind_ok.mp hvalues
    obtain ⟨written, hwritten, hvalues⟩ := Result.bind_ok.mp hvalues
    obtain rfl := Except.ok.inj hvalues
    have hvalue := hsetsValue.unique (hsets _ hlast written ExtTreeMap.getElem?_insert_self)
    have hone : Text.split (· == listSeparator os) (activatedPath os root "") =
        [activatedPath os root ""] := by
      refine Text.split_of_not_mem fun c hc => ?_
      rw [beq_eq_false_iff_ne]
      rintro rfl
      exact separator_not_mem hroot isEntry_empty hc
    rw [hvalue]
    have hprepend : (prependPaths "CMAKE_PREFIX_PATH" "runtime-sdk" [""]).operation = "prepend" :=
      rfl
    unfold activateValue at hwritten
    rw [hprepend, if_neg (by decide), if_pos rfl] at hwritten
    split at hwritten
    · rw [← Except.ok.inj hwritten]
      exact ⟨[], hone⟩
    · rename_i old _
      rw [← Except.ok.inj hwritten]
      have hsplitAt := @Text.split_append_char (· == listSeparator os) (listSeparator os)
        (beq_self_eq_true _) (listSeparator os).toString (String.toList_singleton _)
        (activatedPath os root "") old
      rw [hone] at hsplitAt
      exact ⟨_, hsplitAt⟩
  have hcontributed : contributedPaths "CMAKE_PREFIX_PATH"
      (before ++ [prependPaths "CMAKE_PREFIX_PATH" "runtime-sdk" [""]]) =
        "" :: contributedPaths "CMAKE_PREFIX_PATH" before := by
    rw [contributedPaths, List.foldl_append]
    rfl
  replace hsplit : List.Forall₂ (JoinedTo os root) (contributedPaths "CMAKE_PREFIX_PATH"
      (before ++ [prependPaths "CMAKE_PREFIX_PATH" "runtime-sdk" [""]]))
        (Text.split (· == listSeparator os) value) := hsplit
  rw [hcontributed, hothers] at hsplit
  exact (List.forall₂_cons.mp hsplit).1

/-- Activation at an accepted absolute root is faithful exactly when the root is still absolute
without its trailing separators, and has no backslash where that is no separator. -/
theorem activate_faithful_iff
    (hresolved : resolveRuntimeComposition codec declared ⟨records⟩ = .ok resolved)
    (hlayout : derive codec resolved inventory = .ok layout) (habsolute : isAbsolute os root)
    (h : layout.activate root os = .ok env) :
    layout.ActivatesFaithfully root os env ↔
      isAbsolute os (trimSeparators root) ∧ Plain os root := by
  obtain ⟨hsources, hids⟩ := portableIds hresolved
  obtain ⟨hsettings, contributions, hcontributions, hget⟩ := environment_of_derive hlayout os
  obtain ⟨hwritable, before, rfl⟩ := environmentFor_ok hsources hids hcontributions
  have hfree : ∀ c ∈ before ++ [prependPaths "CMAKE_PREFIX_PATH" "runtime-sdk" [""]],
      c.key ∉ layout.settings := by
    rw [hsettings]
    exact fun c hc => (hwritable c hc).free
  constructor
  · intro hfaithful
    exact joinedTo_empty.mp (joined_root_of_activatesFaithfully hget hfree h hfaithful)
  · rintro ⟨htrimmed, hroot⟩
    exact activatesFaithfully_of_joined hget hwritable hfree
      (fun path hpath => joinedTo_activatedPath habsolute htrimmed hroot hpath) h

end Activated

namespace Sample

def first : ComponentContract := { RuntimeComposition.Sample.renderer with install := [] }

def second : ComponentContract := { RuntimeComposition.Sample.usd with install := [] }

/-- The records of two components that install nothing and are searched for programs. -/
def bare : List ArtifactRecord :=
  [RuntimeComposition.Sample.record first RuntimeComposition.Sample.artifactB,
    RuntimeComposition.Sample.record second RuntimeComposition.Sample.artifactA]

/-- Activate the SDK of the two components at two roots. -/
def activated : Result (EnvSet × EnvSet) := do
  let resolved ← resolveRuntimeComposition RuntimeComposition.Sample.codec
    RuntimeComposition.Sample.manifest ⟨bare⟩
  let layout ← derive RuntimeComposition.Sample.codec resolved []
  return (← layout.activate "/opt" .linux, ← layout.activate "/" .linux)

theorem activated_ok : activated.toOption.isSome := by
  unfold activated
  rw [bare, RuntimeComposition.Sample.resolve_pair _ (by simp) (by simp) (by decide)
    (by decide) (by decide)]
  decide

end Sample

theorem activate_faithful_sample : ∃ resolved layout env,
    resolveRuntimeComposition RuntimeComposition.Sample.codec RuntimeComposition.Sample.manifest
      ⟨Sample.bare⟩ = .ok resolved ∧
    derive RuntimeComposition.Sample.codec resolved [] = .ok layout ∧
    layout.activate "/opt" .linux = .ok env ∧
    layout.ActivatesFaithfully "/opt" .linux env := by
  obtain ⟨envs, henvs⟩ := Result.exists_ok Sample.activated_ok
  obtain ⟨resolved, hresolved, henvs⟩ := Result.bind_ok.mp henvs
  obtain ⟨layout, hlayout, henvs⟩ := Result.bind_ok.mp henvs
  obtain ⟨env, henv, -⟩ := Result.bind_ok.mp henvs
  have habsolute : isAbsolute .linux "/opt" := by decide
  have htrimmed : isAbsolute .linux (trimSeparators "/opt") := by decide
  have hplain : Plain .linux "/opt" := fun _ => by decide
  have hiff := activate_faithful_iff hresolved hlayout habsolute henv
  exact ⟨resolved, layout, env, hresolved, hlayout, henv, hiff.mpr ⟨htrimmed, hplain⟩⟩

/-- At the root of the file system the variable that names the root itself gets an entry that is
empty. -/
theorem activate_unfaithful : ∃ resolved layout env,
    resolveRuntimeComposition RuntimeComposition.Sample.codec RuntimeComposition.Sample.manifest
      ⟨Sample.bare⟩ = .ok resolved ∧
    derive RuntimeComposition.Sample.codec resolved [] = .ok layout ∧ isAbsolute .linux "/" ∧
    layout.activate "/" .linux = .ok env ∧ ¬ layout.ActivatesFaithfully "/" .linux env := by
  obtain ⟨envs, henvs⟩ := Result.exists_ok Sample.activated_ok
  obtain ⟨resolved, hresolved, henvs⟩ := Result.bind_ok.mp henvs
  obtain ⟨layout, hlayout, henvs⟩ := Result.bind_ok.mp henvs
  obtain ⟨_, -, henvs'⟩ := Result.bind_ok.mp henvs
  obtain ⟨env, henv, -⟩ := Result.bind_ok.mp henvs'
  have habsolute : isAbsolute .linux "/" := by decide
  refine ⟨resolved, layout, env, hresolved, hlayout, habsolute, henv, fun hfaithful => ?_⟩
  obtain ⟨hsources, hids⟩ := portableIds hresolved
  obtain ⟨hsettings, contributions, hcontributions, hget⟩ := environment_of_derive hlayout .linux
  obtain ⟨hwritable, before, rfl⟩ := environmentFor_ok hsources hids hcontributions
  have hjoined := joined_root_of_activatesFaithfully hget
    (fun c hc => by rw [hsettings]; exact (hwritable c hc).free) henv hfaithful
  have htrimmed := (joinedTo_empty.mp hjoined).1
  revert htrimmed
  decide

end RuntimeSdkLayout

end OpenStrata
