import OpenStrata.Formation.SdkTree
import OpenStrata.Lib.RangeScan

/-!
# The links of the SDK

A link of a component is pointed at the place where its target was installed, written relative to
the link's own place. The relative link leads there. Whether it leads to all that was installed
from below a directory is another matter: a file whose destination does not end as its source does
below that directory is left out when the directory's place is looked for, and nothing is said.

## Main definitions

* `IsNormalised`: a relative path with nothing redundant
* `Installs`: an install mapping takes an entry of the inventory to a path
* `LeadsTo`: what was installed from a target is found at a path, and below it
* `LinksFaithful`: every installed link leads to what its target became
* `TailsKept`: what is installed from below a link's target ends as it does there

## Main results

* `linkDestination_relativeLink`: a relative link leads to its target
* `links_faithful_iff`: the links of a layout are faithful exactly when the tails are kept
-/

namespace OpenStrata

open Std (ExtTreeMap)
open SortBy (sortBy)

namespace RuntimeSdkLayout

/-! ## Relative links -/

/-- A relative path with nothing redundant, and no character that a link cannot have. -/
def IsNormalised (path : String) : Prop :=
  ∀ part ∈ Text.segments path, Text.isOrdinary part ∧ ':' ∉ part.toList ∧ '\\' ∉ part.toList

section Relative

variable {path target : String} {parts rest : List String}

theorem followLink_replicate {n : ℕ} (h : n ≤ parts.length) :
    followLink parts (List.replicate n ".." ++ rest) =
      followLink (parts.take (parts.length - n)) rest := by
  induction n generalizing parts with
  | zero => simp
  | succ n ih =>
    have hne : parts ≠ [] := by
      rintro rfl
      simp at h
    rw [List.replicate_succ, List.cons_append, followLink, if_neg (by decide), if_pos rfl,
      if_neg hne, ih (by rw [List.length_dropLast]; omega), List.dropLast_eq_take, List.take_take]
    congr 2
    simp
    omega

theorem followLink_ordinary (h : ∀ part ∈ rest, Text.isOrdinary part) :
    followLink parts rest = .ok (parts ++ rest) := by
  induction rest generalizing parts with
  | nil => simp [followLink]
  | cons part rest ih =>
    have hpart := h part List.mem_cons_self
    simp only [Text.isOrdinary, Bool.and_eq_true, bne_iff_ne] at hpart
    rw [followLink, if_neg (by simp [hpart]), if_neg hpart.2,
      ih fun other hother => h other (List.mem_cons_of_mem _ hother), List.append_assoc,
      List.singleton_append]

theorem commonLength_le : ∀ as bs : List String,
    commonLength as bs ≤ as.length ∧ commonLength as bs ≤ bs.length ∧
      as.take (commonLength as bs) = bs.take (commonLength as bs)
  | [], _ => by simp [commonLength]
  | _ :: _, [] => by simp [commonLength]
  | a :: as, b :: bs => by
    obtain ⟨has, hbs, htake⟩ := commonLength_le as bs
    by_cases h : a = b
    · subst h
      simp [commonLength, has, hbs, htake]
    · simp [commonLength, h]

/-- The components of a relative link. -/
def linkParts (path target : String) : List String :=
  let start := (Text.segments path).dropLast
  let goal := Text.segments target
  List.replicate (start.length - commonLength start goal) ".." ++ goal.drop (commonLength start goal)

theorem relativeLink_eq : relativeLink path target =
    if linkParts path target = [] then "." else Text.join "/" (linkParts path target) := rfl

theorem mem_linkParts {part : String} (h : part ∈ linkParts path target) :
    part = ".." ∨ part ∈ Text.segments target := by
  rcases List.mem_append.mp h with h | h
  · exact .inl (List.eq_of_mem_replicate h)
  · exact .inr (List.mem_of_mem_drop h)

/-- Climbing to the common directory and descending from it ends at the target. -/
theorem followLink_linkParts (htarget : IsNormalised target) :
    followLink (Text.segments path).dropLast (linkParts path target) =
      .ok (Text.segments target) := by
  obtain ⟨hle, -, htake⟩ :=
    commonLength_le (Text.segments path).dropLast (Text.segments target)
  rw [linkParts, followLink_replicate (Nat.sub_le _ _), Nat.sub_sub_self hle, htake,
    followLink_ordinary fun part hpart => (htarget part (List.mem_of_mem_drop hpart)).1,
    List.take_append_drop]

/-- A relative link is one that the projection accepts. -/
theorem relativeLink_safe (htarget : IsNormalised target) :
    ¬ (Text.startsWith "/" (relativeLink path target) ∨
      Text.startsWith "\\" (relativeLink path target) ∨
      Text.containsChar ':' (relativeLink path target) ∨
      Text.containsChar '\\' (relativeLink path target)) := by
  rw [relativeLink_eq]
  by_cases hnil : linkParts path target = []
  · rw [if_pos hnil]
    decide
  · rw [if_neg hnil]
    have hfree (c : Char) (hslash : c ≠ '/') (hdots : c ∉ "..".toList)
        (hparts : ∀ part ∈ Text.segments target, c ∉ part.toList) :
        c ∉ (Text.join "/" (linkParts path target)).toList := by
      intro hmem
      rcases Text.mem_toList_join hmem with rfl | ⟨part, hpart, hin⟩
      · exact hslash rfl
      · rcases mem_linkParts hpart with rfl | hpart
        · exact hdots hin
        · exact hparts part hpart hin
    have hcolon := hfree ':' (by decide) (by decide) fun part hpart => (htarget part hpart).2.1
    have hback := hfree '\\' (by decide) (by decide) fun part hpart => (htarget part hpart).2.2
    rintro (h | h | h | h)
    · -- a leading slash would make the first component empty
      obtain ⟨rest, hrest⟩ := Text.startsWith_iff.mp h
      have hsegments : Text.segments (Text.join "/" (linkParts path target)) =
          linkParts path target := by
        refine Text.segments_join hnil fun part hpart => ?_
        rcases mem_linkParts hpart with rfl | hpart
        · decide
        · exact Text.slash_not_mem_segment hpart
      have hempty : "" ∈ linkParts path target := by
        rw [← hsegments, hrest, show "/" ++ rest = "" ++ "/" ++ rest by simp,
          Text.segments_append_slash]
        exact List.mem_append_left _ (by decide)
      rcases mem_linkParts hempty with heq | hsegment
      · exact absurd heq (by decide)
      · exact absurd (htarget "" hsegment).1 (by decide)
    · obtain ⟨rest, hrest⟩ := Text.startsWith_iff.mp h
      refine hback ?_
      rw [hrest, String.toList_append]
      exact List.mem_append_left _ (by decide)
    · exact hcolon (by simpa [Text.containsChar] using h)
    · exact hback (by simpa [Text.containsChar] using h)

/-- A link from one normalised path to another leads there. -/
theorem linkDestination_relativeLink (htarget : IsNormalised target) :
    linkDestination path (relativeLink path target) = .ok target := by
  have hfollow : followLink (Text.split (· == '/') path).dropLast
      (Text.split (· == '/') (relativeLink path target)) = .ok (Text.segments target) := by
    have hparts := @followLink_linkParts path _ htarget
    by_cases hnil : linkParts path target = []
    · rw [hnil] at hparts
      rw [relativeLink_eq, if_pos hnil]
      exact hparts
    · rw [relativeLink_eq, if_neg hnil]
      refine Eq.trans (congrArg _ ?_) hparts
      refine Text.segments_join hnil fun part hpart => ?_
      rcases mem_linkParts hpart with rfl | hpart
      · decide
      · exact Text.slash_not_mem_segment hpart
  refine Result.bind_ok.mpr ⟨(), Result.failIf_ok.mpr (relativeLink_safe htarget),
    Result.bind_ok.mpr ⟨_, hfollow, ?_⟩⟩
  rw [Text.join_segments]
  rfl

end Relative

/-! ## What is installed -/

/-- A mapping takes an entry of its component to a path of the SDK. -/
def Installs (mapping : ResolvedInstallMapping) (entry : CompositionInventoryEntry)
    (path : String) : Prop :=
  ∃ source destination inside target, portable mapping.source = .ok source ∧
    sdkDestination mapping.destination = .ok destination ∧
    Text.stripPrefix ("components/" ++ mapping.component ++ "/") entry.file.path = some inside ∧
    mapped inside source destination = some target ∧ portable target = .ok path

/-- The file that an entry becomes. -/
def sdkFile (entry : CompositionInventoryEntry) (path : String) : SdkFile where
  component := entry.component
  artifact := entry.artifact
  source := entry.file.path
  file := { entry.file with path }

/-- The entry stands in the inventory under its path. -/
def Listed (inventory : Inventory) (entry : CompositionInventoryEntry) : Prop :=
  inventory[entry.file.path]? = some entry

instance (inventory : Inventory) (entry : CompositionInventoryEntry) :
    Decidable (Listed inventory entry) :=
  inferInstanceAs (Decidable (_ = _))

section Installed

variable {inventory : Inventory} {entries : List CompositionInventoryEntry}
  {entry : CompositionInventoryEntry} {files files' : Files} {key : String} {file : SdkFile}

/-- Every entry of an inventory stands under its own path. -/
def Keyed (inventory : Inventory) : Prop :=
  ∀ (key : String) (entry : CompositionInventoryEntry),
    inventory[key]? = some entry → entry.file.path = key

theorem keyed_inventoryOf (list : List CompositionInventoryEntry) :
    Keyed (inventoryOf list) := by
  intro key entry h
  rw [inventoryOf, ExtTreeMap.ofList_eq_foldl, TreeMap.getElem?_foldl_insert,
    TreeMap.lastValue] at h
  obtain ⟨e, he, rfl⟩ := List.mem_map.mp (List.mem_of_getLast? h)
  obtain ⟨hmem, hkey⟩ := List.mem_filter.mp he
  obtain ⟨entry, -, rfl⟩ := List.mem_map.mp hmem
  exact beq_iff_eq.mp hkey

theorem mem_descendantsOf (hkeyed : Keyed inventory) {directory : String} :
    entry ∈ descendantsOf inventory directory ↔
      Listed inventory entry ∧ ∃ tail, entry.file.path = directory ++ "/" ++ tail := by
  have hscan (e : String × CompositionInventoryEntry) :
      e ∈ (inventory.toList.dropWhile fun e => e.1 < directory ++ "/").takeWhile
        (fun e => Text.startsWith (directory ++ "/") e.1) ↔
      inventory[e.1]? = some e.2 ∧ ∃ tail, e.1 = directory ++ "/" ++ tail := by
    rw [← Text.startsWith_iff, Text.startsWith, List.isPrefixOf_iff_prefix]
    exact RangeScan.mem_scan
  show entry ∈ List.map _ _ ↔ _
  rw [List.mem_map]
  constructor
  · rintro ⟨e, he, rfl⟩
    obtain ⟨hget, hbelow⟩ := (hscan e).mp he
    have hpath := hkeyed _ _ hget
    rw [Listed, hpath]
    exact ⟨hget, hbelow⟩
  · rintro ⟨hlisted, hbelow⟩
    exact ⟨(entry.file.path, entry), (hscan _).mpr ⟨hlisted, hbelow⟩, rfl⟩

/-- The entries that a mapping visits are its source and what stands below it. -/
theorem mem_visited (hkeyed : Keyed inventory) {source : String} :
    entry ∈ inventory[source]?.toList ++ descendantsOf inventory source ↔
      Listed inventory entry ∧
        (entry.file.path = source ∨ ∃ tail, entry.file.path = source ++ "/" ++ tail) := by
  rw [List.mem_append, mem_descendantsOf hkeyed, and_or_left]
  refine or_congr_left ?_
  rw [Option.mem_toList]
  constructor
  · intro h
    have hpath := hkeyed _ _ h
    exact ⟨by rw [Listed, hpath]; exact h, hpath⟩
  · rintro ⟨hlisted, hpath⟩
    rw [← hpath]
    exact hlisted

/-- The files after projecting entries are those from before, and those of the entries. -/
theorem getElem?_projectEntries {root source destination : String} {found found' : Bool}
    (h : projectEntries root source destination files found entries = .ok (files', found')) :
    files'[key]? = some file ↔ files[key]? = some file ∨
      ∃ entry ∈ entries, ∃ target path,
        mapped ((Text.stripPrefix root entry.file.path).getD entry.file.path) source destination =
          some target ∧ portable target = .ok path ∧ key = Text.toAsciiLowercase path ∧
        file = sdkFile entry path := by
  induction entries generalizing files found with
  | nil =>
    cases h
    simp
  | cons entry rest ih =>
    rw [projectEntries] at h
    simp only [List.mem_cons, exists_eq_or_imp]
    cases hmapped : mapped ((Text.stripPrefix root entry.file.path).getD entry.file.path) source
        destination with
    | none =>
      simp only [hmapped] at h
      rw [ih h]
      simp
    | some target =>
      simp only [hmapped] at h
      obtain ⟨path, hpath, h⟩ := Result.bind_ok.mp h
      obtain ⟨⟨⟩, hfree, h⟩ := Result.bind_ok.mp h
      have hnone : files[Text.toAsciiLowercase path]? = none := by
        rwa [Result.failIf_ok, ExtTreeMap.contains_eq_isSome_getElem?,
          Option.not_isSome_iff_eq_none] at hfree
      rw [ih h, ExtTreeMap.getElem?_insert]
      have hentry : (∃ target' path', some target = some target' ∧ portable target' = .ok path' ∧
          key = Text.toAsciiLowercase path' ∧ file = sdkFile entry path') ↔
          key = Text.toAsciiLowercase path ∧ file = sdkFile entry path := by
        constructor
        · rintro ⟨target', path', heq, hpath', hkey, hfile⟩
          obtain rfl := Option.some.inj heq
          obtain rfl := Except.ok.inj (hpath.symm.trans hpath')
          exact ⟨hkey, hfile⟩
        · rintro ⟨hkey, hfile⟩
          exact ⟨target, path, rfl, hpath, hkey, hfile⟩
      rw [hentry]
      by_cases hkey : Text.toAsciiLowercase path = key
      · subst hkey
        rw [if_pos (by simp), hnone]
        simp [sdkFile, eq_comm]
      · rw [if_neg (by simpa using hkey)]
        simp [show key ≠ Text.toAsciiLowercase path from fun heq => hkey heq.symm]

theorem mapped_iff {path source destination target : String} :
    mapped path source destination = some target ↔
      (path = source ∧ target = destination) ∨ path ≠ source ∧ ∃ tail,
        path = source ++ "/" ++ tail ∧ target = destination ++ "/" ++ tail := by
  unfold mapped
  split_ifs with h
  · simp [h, eq_comm]
  · rw [Option.map_eq_some_iff]
    simp only [Text.stripPrefix_eq_some, h, false_and, ne_eq, not_false_eq_true, true_and,
      false_or]
    exact exists_congr fun tail => and_congr_right fun _ => eq_comm

/-- A mapping that is projected adds what it installs. -/
theorem getElem?_projectMapping (hkeyed : Keyed inventory) {mapping : ResolvedInstallMapping}
    (h : projectMapping inventory files mapping = .ok files') :
    files'[key]? = some file ↔ files[key]? = some file ∨
      ∃ entry path, Listed inventory entry ∧ Installs mapping entry path ∧
        key = Text.toAsciiLowercase path ∧ file = sdkFile entry path := by
  obtain ⟨source, hsource, h⟩ := Result.bind_ok.mp h
  obtain ⟨destination, hdestination, h⟩ := Result.bind_ok.mp h
  obtain ⟨⟨⟩, -, h⟩ := Result.bind_ok.mp h
  obtain ⟨⟨projected, found⟩, hentries, h⟩ := Result.bind_ok.mp h
  obtain ⟨⟨⟩, -, h⟩ := Result.bind_ok.mp h
  obtain rfl := Except.ok.inj h
  rw [getElem?_projectEntries hentries]
  refine or_congr_right ⟨?_, ?_⟩
  · rintro ⟨entry, hvisited, target, path, hmapped, hpath, hkey, hfile⟩
    obtain ⟨hlisted, hwhere⟩ := (mem_visited hkeyed).mp hvisited
    obtain ⟨inside, hpathEq⟩ : ∃ inside, entry.file.path =
        ("components/" ++ mapping.component ++ "/") ++ inside := by
      rcases hwhere with hwhere | ⟨tail, hwhere⟩
      · exact ⟨source, hwhere⟩
      · exact ⟨source ++ "/" ++ tail, by rw [hwhere]; simp only [String.append_assoc]⟩
    have hinside := Text.stripPrefix_eq_some.mpr hpathEq
    rw [hinside, Option.getD_some] at hmapped
    exact ⟨entry, path, hlisted,
      ⟨source, destination, inside, target, hsource, hdestination, hinside, hmapped, hpath⟩,
      hkey, hfile⟩
  · rintro ⟨entry, path, hlisted, ⟨source', destination', inside, target, hsource', hdestination',
      hinside, hmapped, hpath⟩, hkey, hfile⟩
    obtain rfl := Except.ok.inj (hsource.symm.trans hsource')
    obtain rfl := Except.ok.inj (hdestination.symm.trans hdestination')
    refine ⟨entry, (mem_visited hkeyed).mpr ⟨hlisted, ?_⟩, target, path, ?_, hpath, hkey, hfile⟩
    · rw [Text.stripPrefix_eq_some.mp hinside]
      rcases mapped_iff.mp hmapped with ⟨rfl, -⟩ | ⟨-, tail, rfl, -⟩
      · exact .inl rfl
      · refine .inr ⟨tail, ?_⟩
        simp only [String.append_assoc]
    · rwa [hinside, Option.getD_some]

/-- The projected files are those that the mappings install. -/
theorem getElem?_projectMappings (hkeyed : Keyed inventory)
    {install : List ResolvedInstallMapping}
    (h : projectMappings inventory files install = .ok files') :
    files'[key]? = some file ↔ files[key]? = some file ∨
      ∃ mapping ∈ install, ∃ entry path, Listed inventory entry ∧ Installs mapping entry path ∧
        key = Text.toAsciiLowercase path ∧ file = sdkFile entry path := by
  induction install generalizing files with
  | nil =>
    cases h
    simp
  | cons mapping rest ih =>
    obtain ⟨next, hnext, h⟩ := Result.bind_ok.mp h
    simp only [List.mem_cons, exists_eq_or_imp]
    rw [ih h, getElem?_projectMapping hkeyed hnext, or_assoc]

end Installed

/-! ## Following the links -/

section Layout

variable {codec : Codec} {inventory : Inventory} {install : List ResolvedInstallMapping}
  {original files : List SdkFile} {f g : SdkFile}

/-- What was installed from the target, or from below it, is found at the path, or below it. -/
structure LeadsTo (files : List SdkFile) (target path : String) : Prop where
  self : ∀ g ∈ files, g.source = target → g.file.path = path
  below : ∀ g ∈ files, ∀ tail, g.source = target ++ "/" ++ tail →
    g.file.path = path ++ "/" ++ tail
  installed : ∃ g ∈ files, (g.source = target ∧ g.file.path = path) ∨
    ∃ tail, g.source = target ++ "/" ++ tail ∧ g.file.path = path ++ "/" ++ tail

/-- The directory of a component in the inventory. -/
def componentRoot (component : String) : String := "components/" ++ component ++ "/"

/-- The entry is a link, and its target is this path of the inventory. -/
def PointsTo (entry : CompositionInventoryEntry) (target : String) : Prop :=
  ∃ link inside, entry.file.linkTarget = some link ∧
    linkDestination ((Text.stripPrefix (componentRoot entry.component) entry.file.path).getD
      entry.file.path) link = .ok inside ∧ target = componentRoot entry.component ++ inside

/-- Every installed link leads from its place to what its target became. -/
def LinksFaithful (inventory : Inventory) (files : List SdkFile) : Prop :=
  ∀ f ∈ files, ∀ entry, Listed inventory entry → f.source = entry.file.path →
    entry.file.linkTarget ≠ none → ∃ target link path, PointsTo entry target ∧
      f.file.linkTarget = some link ∧ linkDestination f.file.path link = .ok path ∧
      LeadsTo files target path

/-- What a mapping installs from below the target of an installed link ends there as it does below
the target. -/
def TailsKept (inventory : Inventory) (install : List ResolvedInstallMapping) : Prop :=
  ∀ link, Listed inventory link → (∃ mapping ∈ install, ∃ path, Installs mapping link path) →
    ∀ target, PointsTo link target → ∀ entry, Listed inventory entry → ∀ tail,
      entry.file.path = target ++ "/" ++ tail → ∀ mapping ∈ install, ∀ path,
        Installs mapping entry path → ∃ directory, path = directory ++ "/" ++ tail

theorem PointsTo.unique {entry : CompositionInventoryEntry} {target target' : String}
    (h : PointsTo entry target) (h' : PointsTo entry target') : target = target' := by
  obtain ⟨link, inside, hlink, hinside, rfl⟩ := h
  obtain ⟨link', inside', hlink', hinside', rfl⟩ := h'
  obtain rfl := Option.some.inj (hlink.symm.trans hlink')
  rw [Except.ok.inj (hinside.symm.trans hinside')]

theorem installedAt_eq_some {target path : String} :
    installedAt target g = some path ↔ (g.source = target ∧ g.file.path = path) ∨
      ∃ tail, g.source = target ++ "/" ++ tail ∧ g.file.path = path ++ "/" ++ tail := by
  have hlonger (tail : String) : target ++ "/" ++ tail ≠ target := by
    intro heq
    have hlength := congrArg (fun s => s.toList.length) heq
    simp only [String.toList_append, List.length_append] at hlength
    have hone : "/".toList.length = 1 := rfl
    omega
  have hsuffix (tail : String) : Text.stripSuffix ("/" ++ tail) g.file.path = some path ↔
      g.file.path = path ++ "/" ++ tail := by
    rw [Text.stripSuffix_eq_some, String.append_assoc]
  unfold installedAt
  split_ifs with hself
  · simp only [Option.some_inj, hself, true_and]
    refine (or_iff_left ?_).symm
    rintro ⟨tail, heq, -⟩
    exact hlonger tail heq.symm
  · rw [Option.bind_eq_some_iff]
    simp only [hself, false_and, false_or, Text.stripPrefix_eq_some, hsuffix]

/-- With one place for what was installed from the target and from below it, the target is found
there with all of it exactly when every tail is kept. -/
theorem leadsTo_iff {target path : String}
    (h : (original.filterMap (installedAt target)).dedup = [path]) :
    LeadsTo original target path ↔ ∀ g ∈ original, ∀ tail, g.source = target ++ "/" ++ tail →
      ∃ directory, g.file.path = directory ++ "/" ++ tail := by
  have hplace (place : String) :
      (∃ g ∈ original, installedAt target g = some place) ↔ place = path := by
    rw [← List.mem_filterMap, ← List.mem_dedup, h, List.mem_singleton]
  constructor
  · intro hleads g hg tail htail
    exact ⟨path, hleads.below g hg tail htail⟩
  · intro hkept
    refine ⟨fun g hg hsource => ?_, fun g hg tail hsource => ?_, ?_⟩
    · exact (hplace _).mp ⟨g, hg, installedAt_eq_some.mpr (.inl ⟨hsource, rfl⟩)⟩
    · obtain ⟨directory, hdirectory⟩ := hkept g hg tail hsource
      rw [hdirectory]
      rw [(hplace directory).mp
        ⟨g, hg, installedAt_eq_some.mpr (.inr ⟨tail, hsource, hdirectory⟩)⟩]
    · obtain ⟨g, hg, hinstalled⟩ := (hplace path).mpr rfl
      exact ⟨g, hg, installedAt_eq_some.mp hinstalled⟩

/-- What a rewritten file keeps, and what becomes of its link. -/
theorem rewriteLink_ok (h : rewriteLink codec original g = .ok f) :
    f.source = g.source ∧ f.file.path = g.file.path ∧
      ∀ link, g.file.linkTarget = some link → ∃ inside path,
        linkDestination ((Text.stripPrefix (componentRoot g.component) g.source).getD g.source)
          link = .ok inside ∧
        (original.filterMap (installedAt (componentRoot g.component ++ inside))).dedup = [path] ∧
        f.file.linkTarget = some (relativeLink g.file.path path) := by
  unfold rewriteLink at h
  split at h
  · rename_i hnone
    obtain rfl := Except.ok.inj h
    exact ⟨rfl, rfl, fun link hlink => by simp [hnone] at hlink⟩
  · rename_i link hsome
    obtain ⟨inside, hinside, h⟩ := Result.bind_ok.mp h
    obtain ⟨path, hpath, h⟩ := Result.bind_ok.mp h
    obtain rfl := Except.ok.inj h
    refine ⟨rfl, rfl, fun link' hlink' => ?_⟩
    obtain rfl := Option.some.inj (hsome.symm.trans hlink')
    refine ⟨inside, path, hinside, ?_, rfl⟩
    rw [Result.okOr_ok] at hpath
    split at hpath
    · rename_i hdedup
      rwa [← Option.some.inj hpath]
    · cases hpath

/-- The files of an SDK are those that the mappings install, each with its link rewritten among
them. -/
theorem deriveFiles_installs (hkeyed : Keyed inventory)
    (h : deriveFiles codec inventory install = .ok files) : ∃ original : List SdkFile,
      (∀ g, g ∈ original ↔ ∃ mapping ∈ install, ∃ entry path, Listed inventory entry ∧
        Installs mapping entry path ∧ g = sdkFile entry path) ∧
      (∀ g ∈ original, PortablePath g.file.path) ∧
      original.mapM (rewriteLink codec original) = .ok files := by
  obtain ⟨projected, hprojected, h⟩ := Result.bind_ok.mp h
  obtain ⟨⟨⟩, -, h⟩ := Result.bind_ok.mp h
  obtain ⟨⟨⟩, -, h⟩ := Result.bind_ok.mp h
  have hget (key : String) (g : SdkFile) : projected[key]? = some g ↔
      ∃ mapping ∈ install, ∃ entry path, Listed inventory entry ∧ Installs mapping entry path ∧
        key = Text.toAsciiLowercase path ∧ g = sdkFile entry path := by
    rw [getElem?_projectMappings hkeyed hprojected]
    simp
  have hmem (g : SdkFile) : g ∈ sortBy (·.file.path) (TreeMap.values projected) ↔
      ∃ key : String, projected[key]? = some g := by
    rw [SortBy.mem_sortBy, TreeMap.mem_values]
  refine ⟨_, fun g => ?_, fun g hg => ?_, h⟩
  · rw [hmem]
    constructor
    · rintro ⟨key, hkey⟩
      obtain ⟨mapping, hmapping, entry, path, hlisted, hinstalls, -, hg⟩ := (hget key g).mp hkey
      exact ⟨mapping, hmapping, entry, path, hlisted, hinstalls, hg⟩
    · rintro ⟨mapping, hmapping, entry, path, hlisted, hinstalls, hg⟩
      exact ⟨Text.toAsciiLowercase path, (hget _ g).mpr
        ⟨mapping, hmapping, entry, path, hlisted, hinstalls, rfl, hg⟩⟩
  · obtain ⟨key, hkey⟩ := (hmem g).mp hg
    refine (projectMappings_ok ?_ hprojected key g hkey).portable
    intro key file hnone
    exact absurd hnone (by simp)

/-- A portable path, and a directory of one, is normalised. -/
theorem isNormalised_of_portablePath {path : String} (h : PortablePath path) :
    IsNormalised path := by
  intro part hpart
  have hportable := h part hpart
  simp only [isPortablePart, Bool.and_eq_true] at hportable
  obtain ⟨⟨⟨hordinary, -⟩, -⟩, hall⟩ := hportable
  refine ⟨hordinary, fun hmem => ?_, fun hmem => ?_⟩
  · simpa using List.all_eq_true.mp hall _ hmem
  · simpa using List.all_eq_true.mp hall _ hmem

/-- The place of what is installed is normalised. -/
theorem isNormalised_of_installedAt {target path : String} (hportable : PortablePath g.file.path)
    (h : installedAt target g = some path) : IsNormalised path := by
  rcases installedAt_eq_some.mp h with ⟨-, rfl⟩ | ⟨tail, -, hpath⟩
  · exact isNormalised_of_portablePath hportable
  · rw [hpath] at hportable
    exact isNormalised_of_portablePath (portablePath_append.mp hportable).1

/-- Where a target is found depends on the sources and the paths of the files only. -/
theorem LeadsTo.congr {files' : List SdkFile} {target path : String}
    (h : LeadsTo files target path)
    (hto : ∀ f ∈ files, ∃ g ∈ files', g.source = f.source ∧ g.file.path = f.file.path)
    (hfrom : ∀ g ∈ files', ∃ f ∈ files, g.source = f.source ∧ g.file.path = f.file.path) :
    LeadsTo files' target path := by
  obtain ⟨hself, hbelow, f, hf, hinstalled⟩ := h
  obtain ⟨g, hg, hsource, hpath⟩ := hto f hf
  refine ⟨fun g hg => ?_, fun g hg => ?_, g, hg, by rwa [hsource, hpath]⟩
  · obtain ⟨f, hf, hsource, hpath⟩ := hfrom g hg
    rw [hsource, hpath]
    exact hself f hf
  · obtain ⟨f, hf, hsource, hpath⟩ := hfrom g hg
    rw [hsource, hpath]
    exact hbelow f hf

/-- Rewriting the links moves no file. -/
theorem leadsTo_rewritten {target path : String}
    (h : original.mapM (rewriteLink codec original) = .ok files) :
    LeadsTo files target path ↔ LeadsTo original target path := by
  obtain ⟨hleft, hright⟩ := Result.mem_mapM h
  have hto : ∀ f ∈ files, ∃ g ∈ original, f.source = g.source ∧ f.file.path = g.file.path := by
    intro f hf
    obtain ⟨g, hg, hrewritten⟩ := hright f hf
    obtain ⟨hsource, hpath, -⟩ := rewriteLink_ok hrewritten
    exact ⟨g, hg, hsource, hpath⟩
  have hfrom : ∀ g ∈ original, ∃ f ∈ files, f.source = g.source ∧ f.file.path = g.file.path := by
    intro g hg
    obtain ⟨f, hf, hrewritten⟩ := hleft g hg
    obtain ⟨hsource, hpath, -⟩ := rewriteLink_ok hrewritten
    exact ⟨f, hf, hsource, hpath⟩
  constructor
  · intro h
    exact h.congr (fun f hf => (hto f hf).imp fun g hg => ⟨hg.1, hg.2.1.symm, hg.2.2.symm⟩)
      fun g hg => (hfrom g hg).imp fun f hf => ⟨hf.1, hf.2.1.symm, hf.2.2.symm⟩
  · intro h
    exact h.congr hfrom hto

/-- What a faithful link leads to has all that was installed from below its target. -/
theorem tailsKept_of_linksFaithful (hkeyed : Keyed inventory)
    (h : deriveFiles codec inventory install = .ok files)
    (hfaithful : LinksFaithful inventory files) : TailsKept inventory install := by
  obtain ⟨original, hinstalled, -, hrewritten⟩ := deriveFiles_installs hkeyed h
  rintro link hlink ⟨mapping, hmapping, path, hinstalls⟩ target htarget entry hentry tail hbelow
    mapping' hmapping' path' hinstalls'
  have horiginal := (hinstalled _).mpr ⟨mapping, hmapping, link, path, hlink, hinstalls, rfl⟩
  obtain ⟨f, hf, hrewrite⟩ := (Result.mem_mapM hrewritten).1 _ horiginal
  obtain ⟨hsource, -⟩ := rewriteLink_ok hrewrite
  have hsome : link.file.linkTarget ≠ none := by
    obtain ⟨text, -, htext, -⟩ := htarget
    simp [htext]
  obtain ⟨target', -, place, htarget', -, -, hleads⟩ := hfaithful f hf link hlink hsource hsome
  obtain rfl := htarget.unique htarget'
  have hbelowLink := (leadsTo_rewritten hrewritten).mp hleads |>.below
  exact ⟨place, hbelowLink _ ((hinstalled _).mpr
    ⟨mapping', hmapping', entry, path', hentry, hinstalls', rfl⟩) tail hbelow⟩

/-- When the tails are kept, every link is rewritten to lead to what its target became. -/
theorem linksFaithful_of_tailsKept (hkeyed : Keyed inventory)
    (h : deriveFiles codec inventory install = .ok files) (hkept : TailsKept inventory install) :
    LinksFaithful inventory files := by
  obtain ⟨original, hinstalled, hportable, hrewritten⟩ := deriveFiles_installs hkeyed h
  intro f hf entry hentry hsource hsome
  obtain ⟨g, hg, hrewrite⟩ := (Result.mem_mapM hrewritten).2 f hf
  obtain ⟨hgsource, hgpath, hlinks⟩ := rewriteLink_ok hrewrite
  obtain ⟨mapping, hmapping, entry', path, hentry', hinstalls, rfl⟩ := (hinstalled g).mp hg
  -- the entry that a file comes from is the one listed under its source
  have hsame : entry' = entry := by
    have hpaths : entry'.file.path = entry.file.path := hgsource.symm.trans hsource
    rw [Listed, hpaths] at hentry'
    exact Option.some.inj (hentry'.symm.trans hentry)
  subst hsame
  obtain ⟨link, hlink⟩ := Option.ne_none_iff_exists'.mp hsome
  obtain ⟨inside, place, hinside, hplace, hrelative⟩ := hlinks link hlink
  have htarget : PointsTo entry' (componentRoot entry'.component ++ inside) :=
    ⟨link, inside, hlink, hinside, rfl⟩
  have hnormalised : IsNormalised place := by
    have hmem : place ∈ (original.filterMap
        (installedAt (componentRoot entry'.component ++ inside))).dedup := by
      show place ∈ _
      rw [show (sdkFile entry' path).component = entry'.component from rfl] at hplace
      rw [hplace]
      exact List.mem_singleton.mpr rfl
    obtain ⟨g', hg', hinstalledAt⟩ := List.mem_filterMap.mp (List.mem_dedup.mp hmem)
    exact isNormalised_of_installedAt (hportable g' hg') hinstalledAt
  refine ⟨_, _, place, htarget, hrelative, ?_, ?_⟩
  · rw [hgpath]
    exact linkDestination_relativeLink hnormalised
  · refine (leadsTo_rewritten hrewritten).mpr ((leadsTo_iff hplace).mpr ?_)
    intro g' hg' tail hbelow
    obtain ⟨mapping', hmapping', entry'', path', hentry'', hinstalls', rfl⟩ :=
      (hinstalled g').mp hg'
    exact hkept entry' hentry' ⟨mapping, hmapping, path, hinstalls⟩ _ htarget entry'' hentry'' tail
      hbelow mapping' hmapping' path' hinstalls'

end Layout

theorem deriveFiles_of_derive {codec : Codec} {resolved : ResolvedRuntimeComposition}
    {inventory : List CompositionInventoryEntry} {layout : RuntimeSdkLayout}
    (h : derive codec resolved inventory = .ok layout) :
    deriveFiles codec (inventoryOf inventory) resolved.install = .ok layout.files := by
  obtain ⟨files, hfiles, h⟩ := Result.bind_ok.mp h
  obtain ⟨environment, -, h⟩ := Result.bind_ok.mp h
  obtain rfl := Except.ok.inj h
  exact hfiles

/-- A relative link leads to its target, and the links of a derived layout lead to all that was
installed from their targets exactly when the tails are kept. -/
theorem links_faithful_iff {codec : Codec} {resolved : ResolvedRuntimeComposition}
    {inventory : List CompositionInventoryEntry} {layout : RuntimeSdkLayout}
    (h : derive codec resolved inventory = .ok layout) :
    (∀ path target, IsNormalised target →
      linkDestination path (relativeLink path target) = .ok target) ∧
    (LinksFaithful (inventoryOf inventory) layout.files ↔
      TailsKept (inventoryOf inventory) resolved.install) := by
  have hfiles := deriveFiles_of_derive h
  exact ⟨fun _ _ => linkDestination_relativeLink,
    tailsKept_of_linksFaithful (keyed_inventoryOf inventory) hfiles,
    linksFaithful_of_tailsKept (keyed_inventoryOf inventory) hfiles⟩

theorem links_faithful_sample : ∃ layout,
    derive Sample.codec Sample.resolved Sample.inventory = .ok layout ∧
      (LinksFaithful (inventoryOf Sample.inventory) layout.files ↔
        TailsKept (inventoryOf Sample.inventory) Sample.resolved.install) := by
  obtain ⟨layout, hlayout, -⟩ := Result.exists_of_map_eq Sample.derives
  exact ⟨layout, hlayout, (links_faithful_iff hlayout).2⟩

namespace Sample

/-- A link to a directory whose files are installed apart, one of them under another name. -/
def apart : List CompositionInventoryEntry :=
  [⟨"c", "a", "components/c/d/x", "", 1, none, false⟩,
    ⟨"c", "a", "components/c/d/y", "", 1, none, false⟩,
    ⟨"c", "a", "components/c/l", "", 1, some "d", false⟩]

def resolvedApart : ResolvedRuntimeComposition :=
  { resolved with
    install := [⟨"p/x", "c", "a", "d/x"⟩, ⟨"q/z", "c", "a", "d/y"⟩, ⟨"l", "c", "a", "l"⟩] }

theorem derives_apart : (derive codec resolvedApart apart).toOption.map
    (fun layout => layout.files.map fun f => (f.file.path, f.file.linkTarget)) =
      some [("l", some "p"), ("p/x", none), ("q/z", none)] := by
  decide

end Sample

/-- A link is rewritten to lead to a directory that has one of the files below its target. -/
theorem links_unfaithful : ∃ layout,
    derive Sample.codec Sample.resolvedApart Sample.apart = .ok layout ∧
      ¬ LinksFaithful (inventoryOf Sample.apart) layout.files := by
  obtain ⟨layout, hlayout, -⟩ := Result.exists_of_map_eq Sample.derives_apart
  refine ⟨layout, hlayout, fun hfaithful => ?_⟩
  have hkept := tailsKept_of_linksFaithful (keyed_inventoryOf Sample.apart)
    (deriveFiles_of_derive hlayout) hfaithful
  obtain ⟨directory, hdirectory⟩ := hkept ⟨"c", "a", "components/c/l", "", 1, some "d", false⟩
    (by decide)
    ⟨⟨"l", "c", "a", "l"⟩, by decide, "l",
      "l", "l", "l", "l", by decide, by decide, by decide,
      by decide, by decide⟩
    "components/c/d" ⟨"d", "d", rfl, by decide, by decide⟩
    ⟨"c", "a", "components/c/d/y", "", 1, none, false⟩ (by decide) "y" (by decide)
    ⟨"q/z", "c", "a", "d/y"⟩ (by decide) "q/z"
    ⟨"d/y", "q/z", "d/y", "q/z", by decide, by decide, by decide,
      by decide, by decide⟩
  rw [String.append_assoc] at hdirectory
  have hstrip := Text.stripSuffix_eq_some.mpr hdirectory
  revert hstrip
  rw [show Text.stripSuffix ("/" ++ "y") "q/z" = none by decide]
  exact nofun

end RuntimeSdkLayout

end OpenStrata
