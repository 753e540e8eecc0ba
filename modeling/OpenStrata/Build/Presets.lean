import OpenStrata.Core.Json
import OpenStrata.Core.Text
import OpenStrata.Lib.SortBy
import OpenStrata.Lib.TreeMap

/-!
# Editing CMake presets

The includes that the tool manages are wired into a presets document of the user and taken out
again, any number of times and in any order. Only two keys are ever written. Taking includes out
keeps the order of what stays; wiring them in sorts the list, so that the order of the user's own
includes is kept up to that and no further.

## Main definitions

* `ensureIncludes`, `retainManagedIncludes`, `removeManagedIncludes`: the three operations
* `PresetsOp`, `run`: their sequences
* `userIncludes`: the includes that the tool does not manage

## Main results

* `getElem?_run`: the frame
* `userIncludes_run`: what becomes of the user's includes
* `presets_conservative`: what every sequence of operations keeps
-/

namespace OpenStrata.Presets

open Std (ExtTreeMap)
open SortBy

/-- The first version of the format that knows includes. -/
def PRESETS_VERSION : ℕ := 4

/-- A presets document: the fields of its root. -/
abbrev Doc := ExtTreeMap String Json

def managedInclude (id : String) : String := ".strata/targets/" ++ id ++ "/CMakePresets.json"

def isManagedInclude (path : String) : Bool :=
  Text.startsWith ".strata/targets/" path && Text.endsWith "/CMakePresets.json" path

/-- The entries of the `include` array; none when it is missing or no array. -/
def entries (root : Doc) : List Json := (root["include"]?.bind Json.asArr?).getD []

/-- The entries that are texts. -/
def includesOf (root : Doc) : List String := (entries root).filterMap Json.asStr?

/-- `sort` and `dedup`. -/
def sortedSet (paths : List String) : List String := (sortBy id paths).destutter (· ≠ ·)

/-- Append what is not there yet, one path after the other. -/
def addMissing (includes want : List String) : List String :=
  want.foldl (fun includes w => if w ∈ includes then includes else includes ++ [w]) includes

def versionOf (root : Doc) : Option ℕ := root["version"]?.bind Json.asU64?

/-- Whether the version had to be raised, and the document with it. -/
def ensureVersion (root : Doc) : Bool × Doc :=
  match versionOf root with
  | some v => if v ≥ PRESETS_VERSION then (false, root)
    else (true, root.insert "version" (.int PRESETS_VERSION))
  | none => (true, root.insert "version" (.int PRESETS_VERSION))

/-- The `include` value that wires `want` in. -/
def wired (root : Doc) (want : List String) : Json :=
  .arr ((sortedSet (addMissing (includesOf root) want)).map .str)

def ensureIncludes (root : Doc) (want : List String) : Bool × Doc :=
  let versioned := ensureVersion root
  if versioned.2["include"]? = some (wired versioned.2 want) then versioned
  else (true, versioned.2.insert "include" (wired versioned.2 want))

/-- An entry that is taken out: a managed path that is not to be kept. -/
def isDropped (keep : String → Bool) (entry : Json) : Bool :=
  entry.asStr?.any fun path => isManagedInclude path && !keep path

/-- The removed paths, and the document without them. An array that becomes empty goes. -/
def retainManagedIncludes (keep : String → Bool) (root : Doc) : List String × Doc :=
  match root["include"]?.bind Json.asArr? with
  | none => ([], root)
  | some arr =>
    let removed := (arr.filter (isDropped keep)).filterMap Json.asStr?
    let kept := arr.filter fun entry => !isDropped keep entry
    if removed = [] then (removed, root)
    else if kept = [] then (removed, root.erase "include")
    else (removed, root.insert "include" (.arr kept))

def removeManagedIncludes (root : Doc) : List String × Doc :=
  retainManagedIncludes (fun _ => false) root

/-! ## Sequences of operations -/

inductive PresetsOp
  | ensure (want : List String)
  | retain (keep : String → Bool)
  | remove

namespace PresetsOp

def apply (root : Doc) : PresetsOp → Doc
  | ensure want => (ensureIncludes root want).2
  | retain keep => (retainManagedIncludes keep root).2
  | remove => (removeManagedIncludes root).2

/-- The paths that an operation wires in although the tool does not manage them. -/
def foreign : PresetsOp → List String
  | ensure want => want.filter fun path => !isManagedInclude path
  | retain _ | remove => []

def isEnsure : PresetsOp → Bool
  | ensure _ => true
  | retain _ | remove => false

end PresetsOp

/-- The document after a sequence of operations. -/
def run (root : Doc) (ops : List PresetsOp) : Doc := ops.foldl PresetsOp.apply root

/-- An entry that the tool manages. -/
def isManagedEntry (entry : Json) : Bool := entry.asStr?.any isManagedInclude

/-- The entries that the tool does not manage, texts or not. -/
def userEntries (root : Doc) : List Json := (entries root).filter fun e => !isManagedEntry e

/-- The paths that the tool does not manage. -/
def userIncludes (root : Doc) : List String :=
  (includesOf root).filter fun path => !isManagedInclude path

section Lists

variable {paths paths' includes want : List String} {p : String}

theorem mem_sortedSet : p ∈ sortedSet paths ↔ p ∈ paths := by
  rw [sortedSet, mem_destutter, mem_sortBy]

/-- Lists with the same elements give the same sorted set. -/
theorem sortedSet_congr (h : ∀ p, p ∈ paths ↔ p ∈ paths') : sortedSet paths = sortedSet paths' :=
  destutter_sortBy_eq h fun _ _ _ _ heq => heq

theorem pairwise_sortedSet (paths : List String) : (sortedSet paths).Pairwise (· < ·) :=
  pairwise_destutter_sortBy fun _ _ _ _ heq => heq

/-- A list that is strictly sorted is its own sorted set. -/
theorem sortedSet_eq_self (h : paths.Pairwise (· < ·)) : sortedSet paths = paths := by
  refine List.Perm.eq_of_pairwise (fun a b _ _ hab hba => absurd hab (lt_asymm hba))
    (pairwise_sortedSet paths) h ?_
  refine (List.perm_ext_iff_of_nodup ?_ ?_).mpr fun p => mem_sortedSet
  · exact (pairwise_sortedSet paths).imp fun hlt => hlt.ne
  · exact h.imp fun hlt => hlt.ne

theorem mem_addMissing : p ∈ addMissing includes want ↔ p ∈ includes ∨ p ∈ want := by
  induction want generalizing includes with
  | nil => simp [addMissing]
  | cons w want ih =>
    rw [addMissing, List.foldl_cons]
    show p ∈ addMissing _ want ↔ _
    rw [ih]
    by_cases hw : w ∈ includes
    · rw [if_pos hw, List.mem_cons]
      constructor
      · rintro (h | h)
        · exact .inl h
        · exact .inr (.inr h)
      · rintro (h | rfl | h)
        · exact .inl h
        · exact .inl hw
        · exact .inr h
    · rw [if_neg hw, List.mem_append, List.mem_singleton, List.mem_cons, or_assoc]

/-- Filtering a sorted set leaves the sorted set of what was filtered. -/
theorem filter_sortedSet (f : String → Bool) (paths : List String) :
    (sortedSet paths).filter f = sortedSet (paths.filter f) := by
  rw [← sortedSet_eq_self ((pairwise_sortedSet paths).filter f)]
  refine sortedSet_congr fun p => ?_
  rw [List.mem_filter, List.mem_filter, mem_sortedSet]

theorem filterMap_asStr_map (paths : List String) :
    (paths.map Json.str).filterMap Json.asStr? = paths := by
  rw [List.filterMap_map]
  exact List.filterMap_some

end Lists

section Operations

variable {root : Doc} {want : List String} {keep : String → Bool} {key : String}

/-! ## Wiring includes in -/

theorem getElem?_ensureVersion (h : key ≠ "version") : (ensureVersion root).2[key]? = root[key]? := by
  have hinsert : (root.insert "version" (.int PRESETS_VERSION))[key]? = root[key]? :=
    TreeMap.getElem?_insert_of_ne (Ne.symm h)
  unfold ensureVersion
  cases versionOf root with
  | none => exact hinsert
  | some v =>
    by_cases hv : v ≥ PRESETS_VERSION
    · simp only [if_pos hv]
    · simpa only [if_neg hv] using hinsert

theorem entries_ensureVersion : entries (ensureVersion root).2 = entries root := by
  rw [entries, entries, getElem?_ensureVersion (by decide)]

theorem wired_ensureVersion : wired (ensureVersion root).2 want = wired root want := by
  rw [wired, wired, includesOf, includesOf, entries_ensureVersion]

theorem versionOf_insert :
    versionOf (root.insert "version" (.int PRESETS_VERSION)) = some PRESETS_VERSION := by
  rw [versionOf, ExtTreeMap.getElem?_insert_self]
  rfl

/-- The version that a document has afterwards suffices, and is no lower than before. -/
theorem versionOf_ensureVersion (root : Doc) : ∃ v, versionOf (ensureVersion root).2 = some v ∧
    PRESETS_VERSION ≤ v ∧ ∀ before, versionOf root = some before → before ≤ v := by
  unfold ensureVersion
  cases hversion : versionOf root with
  | none => exact ⟨PRESETS_VERSION, versionOf_insert, le_rfl, fun before h => nomatch h⟩
  | some v =>
    by_cases hv : v ≥ PRESETS_VERSION
    · simp only [if_pos hv]
      exact ⟨v, hversion, hv, fun before h => (Option.some.inj h).ge⟩
    · simp only [if_neg hv]
      refine ⟨PRESETS_VERSION, versionOf_insert, le_rfl, fun before h => ?_⟩
      obtain rfl := Option.some.inj h
      exact (not_le.mp hv).le

theorem ensureVersion_of_le {v : ℕ} (h : versionOf root = some v) (hv : PRESETS_VERSION ≤ v) :
    ensureVersion root = (false, root) := by
  rw [ensureVersion, h]
  exact if_pos hv

/-- What wiring in leaves under each key. -/
theorem getElem?_ensureIncludes : (ensureIncludes root want).2[key]? =
    if key = "include" then some (wired root want) else (ensureVersion root).2[key]? := by
  simp only [ensureIncludes, wired_ensureVersion]
  by_cases hsame : (ensureVersion root).2["include"]? = some (wired root want)
  · rw [if_pos hsame]
    by_cases hkey : key = "include"
    · rw [if_pos hkey, hkey, hsame]
    · rw [if_neg hkey]
  · rw [if_neg hsame]
    by_cases hkey : key = "include"
    · rw [if_pos hkey, hkey, ExtTreeMap.getElem?_insert_self]
    · rw [if_neg hkey, TreeMap.getElem?_insert_of_ne (Ne.symm hkey)]

theorem includesOf_ensureIncludes : includesOf (ensureIncludes root want).2 =
    sortedSet (addMissing (includesOf root) want) := by
  rw [includesOf, entries, getElem?_ensureIncludes, if_pos rfl]
  exact filterMap_asStr_map _

theorem versionOf_ensureIncludes (root : Doc) (want : List String) :
    versionOf (ensureIncludes root want).2 = versionOf (ensureVersion root).2 := by
  rw [versionOf, getElem?_ensureIncludes, if_neg (by decide), versionOf]

/-- Wiring in what is there already changes nothing. -/
theorem ensureIncludes_idempotent :
    ensureIncludes (ensureIncludes root want).2 want = (false, (ensureIncludes root want).2) := by
  obtain ⟨v, hversion, hv, -⟩ := versionOf_ensureVersion root
  have hraised := ensureVersion_of_le ((versionOf_ensureIncludes root want).trans hversion) hv
  have hwired : wired (ensureIncludes root want).2 want = wired root want := by
    rw [wired, wired, includesOf_ensureIncludes]
    congr 2
    refine sortedSet_congr fun p => ?_
    rw [mem_addMissing, mem_sortedSet, mem_addMissing]
    tauto
  conv_lhs => rw [ensureIncludes, hraised]
  simp only [hwired, getElem?_ensureIncludes, if_true]

/-! ## Taking includes out -/

/-- The paths that are removed are those of the entries that are dropped. -/
theorem filterMap_dropped_eq_nil {arr : List Json} :
    (arr.filter (isDropped keep)).filterMap Json.asStr? = [] ↔
      (arr.filter fun entry => !isDropped keep entry) = arr := by
  rw [List.filter_eq_self, List.filterMap_eq_nil_iff]
  simp only [List.mem_filter, and_imp, Bool.not_eq_eq_eq_not, Bool.not_true]
  refine forall_congr' fun entry => forall_congr' fun _ => ?_
  unfold isDropped
  cases entry.asStr? with
  | none => simp
  | some path => simp

/-- The entries that stay, in their order. -/
theorem entries_retain : entries (retainManagedIncludes keep root).2 =
    (entries root).filter fun entry => !isDropped keep entry := by
  unfold retainManagedIncludes
  cases harr : root["include"]?.bind Json.asArr? with
  | none => simp [entries, harr]
  | some arr =>
    simp only [filterMap_dropped_eq_nil]
    have hentries : entries root = arr := by rw [entries, harr, Option.getD_some]
    rw [hentries]
    by_cases hkept : (arr.filter fun entry => !isDropped keep entry) = arr
    · rw [if_pos hkept, hentries, hkept]
    · rw [if_neg hkept]
      by_cases hnil : (arr.filter fun entry => !isDropped keep entry) = []
      · rw [if_pos hnil, hnil, entries, ExtTreeMap.getElem?_erase_self]
        rfl
      · rw [if_neg hnil, entries, ExtTreeMap.getElem?_insert_self]
        rfl

theorem getElem?_retain (h : key ≠ "include") :
    (retainManagedIncludes keep root).2[key]? = root[key]? := by
  unfold retainManagedIncludes
  cases root["include"]?.bind Json.asArr? with
  | none => rfl
  | some arr =>
    simp only
    split_ifs
    · rfl
    · rw [ExtTreeMap.getElem?_erase, if_neg (by simpa using Ne.symm h)]
    · rw [TreeMap.getElem?_insert_of_ne (Ne.symm h)]

/-- Only managed entries are dropped. -/
theorem isManagedEntry_of_isDropped {entry : Json} (h : isDropped keep entry = true) :
    isManagedEntry entry = true := by
  unfold isDropped at h
  unfold isManagedEntry
  cases hpath : entry.asStr? with
  | none => simp [hpath] at h
  | some path =>
    simp only [hpath, Option.any_some, Bool.and_eq_true] at h
    exact h.1

theorem userEntries_retain : userEntries (retainManagedIncludes keep root).2 = userEntries root := by
  rw [userEntries, entries_retain, List.filter_filter, userEntries]
  refine List.filter_congr fun entry _ => ?_
  by_cases hdropped : isDropped keep entry = true
  · rw [isManagedEntry_of_isDropped hdropped]
    rfl
  · simp [hdropped]

/-- The paths of the user are those of the entries that the tool does not manage. -/
theorem userIncludes_eq (root : Doc) : userIncludes root = (userEntries root).filterMap Json.asStr? := by
  rw [userIncludes, userEntries, includesOf]
  induction entries root with
  | nil => rfl
  | cons entry rest ih =>
    cases hpath : entry.asStr? with
    | none =>
      rw [List.filterMap_cons_none hpath, ih, List.filter_cons_of_pos (by simp [isManagedEntry, hpath]),
        List.filterMap_cons_none hpath]
    | some path =>
      rw [List.filterMap_cons_some hpath]
      by_cases hmanaged : isManagedInclude path = true
      · rw [List.filter_cons_of_neg (by simp [hmanaged]), ih,
          List.filter_cons_of_neg (by simp [isManagedEntry, hpath, hmanaged])]
      · rw [List.filter_cons_of_pos (by simp [hmanaged]), ih,
          List.filter_cons_of_pos (by simp [isManagedEntry, hpath, hmanaged]),
          List.filterMap_cons_some hpath]

theorem userIncludes_ensure : userIncludes (ensureIncludes root want).2 =
    sortedSet (userIncludes root ++ want.filter fun path => !isManagedInclude path) := by
  rw [userIncludes, includesOf_ensureIncludes, filter_sortedSet]
  refine sortedSet_congr fun p => ?_
  simp only [userIncludes, List.mem_filter, mem_addMissing, List.mem_append]
  tauto

end Operations

/-! ## Every sequence -/

section Sequences

variable {root : Doc} {ops : List PresetsOp} {want : List String}

theorem run_cons (root : Doc) (op : PresetsOp) (ops : List PresetsOp) :
    run root (op :: ops) = run (op.apply root) ops := rfl

/-- No operation writes a key besides the two. -/
theorem getElem?_run {key : String} (hversion : key ≠ "version") (hinclude : key ≠ "include") :
    (run root ops)[key]? = root[key]? := by
  induction ops generalizing root with
  | nil => rfl
  | cons op ops ih =>
    rw [run_cons, ih]
    cases op with
    | ensure want =>
      show (ensureIncludes root want).2[key]? = _
      rw [getElem?_ensureIncludes, if_neg hinclude, getElem?_ensureVersion hversion]
    | retain keep => exact getElem?_retain hinclude
    | remove => exact getElem?_retain hinclude

/-- A version that is a number of the format is never lowered. -/
theorem versionOf_run {v : ℕ} (h : versionOf root = some v) :
    ∃ v', versionOf (run root ops) = some v' ∧ v ≤ v' := by
  induction ops generalizing root v with
  | nil => exact ⟨v, h, le_rfl⟩
  | cons op ops ih =>
    have hkept : ∀ keep, versionOf (retainManagedIncludes keep root).2 = some v := fun keep => by
      rw [versionOf, getElem?_retain (by decide)]
      exact h
    rw [run_cons]
    cases op with
    | ensure want =>
      obtain ⟨v', hv', -, hle⟩ := versionOf_ensureVersion root
      obtain ⟨v'', hrun, hle'⟩ := ih ((versionOf_ensureIncludes root want).trans hv')
      exact ⟨v'', hrun, (hle v h).trans hle'⟩
    | retain keep => exact ih (hkept keep)
    | remove => exact ih (hkept _)

/-- Taking includes out never touches an entry of the user. -/
theorem userEntries_run (h : ops.any PresetsOp.isEnsure = false) :
    userEntries (run root ops) = userEntries root := by
  induction ops generalizing root with
  | nil => rfl
  | cons op ops ih =>
    rw [List.any_cons, Bool.or_eq_false_iff] at h
    rw [run_cons, ih h.2]
    cases op with
    | ensure want => cases h.1
    | retain keep => exact userEntries_retain
    | remove => exact userEntries_retain

/-- The paths of the user stay as they are until includes are wired in, which sorts them together
with what was wired in and leaves out repetitions. -/
theorem userIncludes_run : userIncludes (run root ops) =
    if ops.any PresetsOp.isEnsure then sortedSet (userIncludes root ++ ops.flatMap PresetsOp.foreign)
    else userIncludes root := by
  induction ops generalizing root with
  | nil => rfl
  | cons op ops ih =>
    have hretain : ∀ keep, userIncludes (retainManagedIncludes keep root).2 = userIncludes root :=
      fun keep => by rw [userIncludes_eq, userEntries_retain, ← userIncludes_eq]
    rw [run_cons, ih, List.any_cons, List.flatMap_cons]
    cases op with
    | ensure want =>
      show (if _ then sortedSet (userIncludes (ensureIncludes root want).2 ++ _)
        else userIncludes (ensureIncludes root want).2) = sortedSet (_ ++ (_ ++ _))
      rw [userIncludes_ensure]
      by_cases hany : ops.any PresetsOp.isEnsure = true
      · rw [if_pos hany]
        refine sortedSet_congr fun p => ?_
        rw [List.mem_append, mem_sortedSet, ← List.mem_append, List.append_assoc]
        rfl
      · rw [if_neg hany]
        -- nothing else wires in a path
        have hnone : ops.flatMap PresetsOp.foreign = [] := by
          refine List.flatMap_eq_nil_iff.mpr fun op hop => ?_
          cases op with
          | ensure want => exact absurd (List.any_eq_true.mpr ⟨_, hop, rfl⟩) hany
          | retain keep => rfl
          | remove => rfl
        rw [hnone, List.append_nil]
        rfl
    | retain keep =>
      show (if _ then sortedSet (userIncludes (retainManagedIncludes keep root).2 ++ _)
        else userIncludes (retainManagedIncludes keep root).2) = _
      rw [hretain]
      rfl
    | remove =>
      show (if _ then sortedSet (userIncludes (retainManagedIncludes _ root).2 ++ _)
        else userIncludes (retainManagedIncludes _ root).2) = _
      rw [hretain]
      rfl

theorem isDropped_of_isManagedEntry (entry : Json) :
    isDropped (fun _ => false) entry = isManagedEntry entry := by
  unfold isDropped isManagedEntry
  cases entry.asStr? with
  | none => rfl
  | some path => exact Bool.and_true _

/-- Managed includes that are wired in and taken out leave the user's own, sorted. -/
theorem includesOf_remove_ensure (h : ∀ p ∈ want, isManagedInclude p = true) :
    includesOf (removeManagedIncludes (ensureIncludes root want).2).2 =
      sortedSet (userIncludes root) := by
  have hforeign : (want.filter fun path => !isManagedInclude path) = [] := by
    refine List.filter_eq_nil_iff.mpr fun p hp => ?_
    simp [h p hp]
  rw [includesOf, removeManagedIncludes, entries_retain]
  simp only [isDropped_of_isManagedEntry]
  show (userEntries (ensureIncludes root want).2).filterMap Json.asStr? = _
  rw [← userIncludes_eq, userIncludes_ensure, hforeign, List.append_nil]

/-- **What editing keeps.** Every key besides the version and the includes; the user's includes,
in their order as long as includes are only taken out and as a sorted set once some were wired in;
and the version, which is never lowered. Wiring in twice is wiring in once, and managed includes
that are wired in and taken out leave the user's own as a sorted set. -/
theorem presets_conservative (root : Doc) (ops : List PresetsOp) (want : List String) :
    (∀ key, key ≠ "version" → key ≠ "include" → (run root ops)[key]? = root[key]?) ∧
    (ops.any PresetsOp.isEnsure = false → userEntries (run root ops) = userEntries root) ∧
    userIncludes (run root ops) =
      (if ops.any PresetsOp.isEnsure then
        sortedSet (userIncludes root ++ ops.flatMap PresetsOp.foreign)
      else userIncludes root) ∧
    (∀ v, versionOf root = some v → ∃ v', versionOf (run root ops) = some v' ∧ v ≤ v') ∧
    ensureIncludes (ensureIncludes root want).2 want = (false, (ensureIncludes root want).2) ∧
    ((∀ p ∈ want, isManagedInclude p = true) →
      includesOf (removeManagedIncludes (ensureIncludes root want).2).2 =
        sortedSet (userIncludes root)) :=
  ⟨fun _ hversion hinclude => getElem?_run hversion hinclude, userEntries_run, userIncludes_run,
    fun _ h => versionOf_run h, ensureIncludes_idempotent, includesOf_remove_ensure⟩

/-- Wiring in reorders the includes of the user. -/
theorem presets_reordered :
    ¬ ∀ (root : Doc) (ops : List PresetsOp),
      (userIncludes root).Sublist (includesOf (run root ops)) := by
  intro h
  let doc : Doc := (∅ : Doc).insert "include" (.arr [.str "b", .str "a"])
  have hincludes : includesOf doc = ["b", "a"] := by
    rw [includesOf, entries, ExtTreeMap.getElem?_insert_self]
    rfl
  have hsorted := h doc [.ensure []]
  rw [show run doc [.ensure []] = (ensureIncludes doc []).2 from rfl, includesOf_ensureIncludes,
    userIncludes, hincludes] at hsorted
  exact absurd hsorted (by decide)

end Sequences

end OpenStrata.Presets
