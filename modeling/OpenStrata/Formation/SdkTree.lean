import OpenStrata.Core.Find
import OpenStrata.Core.Paths
import OpenStrata.Formation.Conflicts
import OpenStrata.Formation.Sdk
import OpenStrata.Lib.TreeMap

/-!
# The tree of the SDK

What the checks of the SDK projection leave of its files: they form a tree that a file system
without letter case can hold, out of the reserved roots. The case folded is the one the
projection folds, `str::to_ascii_lowercase`.

## Main definitions

* `PortablePath`: a relative path whose components are portable
* `IsAncestor`: a proper ancestor of a path
* `WellFormedTree`: the paths of files that can stand together

## Main results

* `RuntimeSdkLayout.projectMappings_ok`: every projected file is portable, under its folded path,
  and outside the reserved roots
* `RuntimeSdkLayout.derive_wellFormed`: the files of every derived layout form such a tree
-/

namespace OpenStrata

open Std (ExtTreeMap)
open SortBy (sortBy)

/-! ## Paths -/

/-- A component of a portable path. -/
def isPortablePart (part : String) : Bool :=
  Text.isOrdinary part && !Text.endsWith "." part && !Text.endsWith " " part &&
    Text.all (fun c => c != '/' && c != '\\' && c != ':' && !RuntimeSdkLayout.isPathListChar c) part

/-- A relative path that is not empty, whose components are portable: no backslash, no colon, no
component that is empty or a dot reference. -/
def PortablePath (path : String) : Prop := ∀ part ∈ Text.segments path, isPortablePart part

instance (path : String) : Decidable (PortablePath path) :=
  inferInstanceAs (Decidable (∀ part ∈ Text.segments path, _))

/-- The first component of a path. -/
def topOf (path : String) : String := (Text.segments path).headD ""

def IsAncestor (directory path : String) : Prop := ∃ rest, path = directory ++ "/" ++ rest

/-- The files of these paths stand together on a file system without letter case, outside the
reserved roots. -/
structure WellFormedTree (paths : List String) : Prop where
  portable : ∀ path ∈ paths, PortablePath path
  distinct : (paths.map Text.toAsciiLowercase).Nodup
  leaves : ∀ path ∈ paths, ∀ other ∈ paths,
    ¬ IsAncestor (Text.toAsciiLowercase path) (Text.toAsciiLowercase other)
  spelling : ∀ path ∈ paths, ∀ other ∈ paths, ∀ directory directory',
    IsAncestor directory path → IsAncestor directory' other →
      Text.toAsciiLowercase directory = Text.toAsciiLowercase directory' → directory = directory'
  unreserved : ∀ path ∈ paths,
    Text.toAsciiLowercase (topOf path) ∉ ["components", "metadata"]

section Paths

variable {path directory rest : String}

theorem topOf_join {part : String} {parts : List String}
    (h : ∀ p ∈ part :: parts, '/' ∉ p.toList) : topOf (Text.join "/" (part :: parts)) = part := by
  rw [topOf, Text.segments_join (List.cons_ne_nil _ _) h]
  rfl

theorem slash_not_mem_of_portable {part : String} (h : isPortablePart part) :
    '/' ∉ part.toList := by
  intro hmem
  rw [isPortablePart, Bool.and_eq_true] at h
  simpa using List.all_eq_true.mp h.2 '/' hmem

theorem portablePath_join {parts : List String} (hne : parts ≠ [])
    (h : ∀ part ∈ parts, isPortablePart part) : PortablePath (Text.join "/" parts) := by
  rw [PortablePath, Text.segments_join hne fun part hpart => slash_not_mem_of_portable (h part hpart)]
  exact h

theorem portablePath_append :
    PortablePath (directory ++ "/" ++ rest) ↔ PortablePath directory ∧ PortablePath rest := by
  rw [PortablePath, Text.segments_append_slash]
  exact List.forall_mem_append

/-- A portable path has no backslash. -/
theorem PortablePath.backslash_not_mem (h : PortablePath path) : '\\' ∉ path.toList := by
  intro hmem
  rw [← Text.join_segments path] at hmem
  rcases Text.mem_toList_join hmem with hslash | ⟨part, hpart, hc⟩
  · cases hslash
  · have hportable := h part hpart
    rw [isPortablePart, Bool.and_eq_true] at hportable
    simpa using List.all_eq_true.mp hportable.2 '\\' hc

end Paths

namespace RuntimeSdkLayout

/-! ## What the path functions return -/

section Portable

variable {path out : String}

theorem portableParts_ok {parts out : List String} (h : portableParts parts = .ok out) :
    out = parts.filter Path.isComponent ∧
      ∀ part ∈ out, part ≠ ".." ∧ Text.endsWith "." part = false ∧ Text.endsWith " " part = false := by
  induction parts generalizing out with
  | nil =>
    obtain rfl := Except.ok.inj h
    exact ⟨rfl, fun part hpart => absurd hpart List.not_mem_nil⟩
  | cons part rest ih =>
    rw [portableParts] at h
    by_cases hskip : part = "" ∨ part = "."
    · rw [if_pos hskip] at h
      obtain ⟨rfl, hall⟩ := ih h
      refine ⟨?_, hall⟩
      rw [List.filter_cons_of_neg]
      rcases hskip with rfl | rfl <;> decide
    · rw [if_neg hskip] at h
      split_ifs at h with hclimb hend
      obtain ⟨out', hrest, h⟩ := Result.bind_ok.mp h
      obtain rfl := Except.ok.inj h
      obtain ⟨rfl, hall⟩ := ih hrest
      constructor
      · rw [List.filter_cons_of_pos]
        simpa [Path.isComponent, not_or] using hskip
      · rintro other hother
        rcases List.mem_cons.mp hother with rfl | hother
        · rw [not_or, Bool.not_eq_true, Bool.not_eq_true] at hend
          exact ⟨hclimb, hend⟩
        · exact hall other hother

/-- The components of a slashed path, and nothing else, when all of them are portable. -/
theorem portable_ok (h : portable path = .ok out) :
    out = Text.join "/" ((Text.segments (Path.slashed path)).filter Path.isComponent) ∧
      ∀ part ∈ (Text.segments (Path.slashed path)).filter Path.isComponent, isPortablePart part := by
  obtain ⟨⟨⟩, hsafe, h⟩ := Result.bind_ok.mp h
  obtain ⟨parts, hparts, h⟩ := Result.bind_ok.mp h
  have hout := Except.ok.inj h
  obtain ⟨hfiltered, hall⟩ := portableParts_ok hparts
  rw [hfiltered] at hout hall
  refine ⟨hout.symm, fun part hpart => ?_⟩
  obtain ⟨hclimb, hdot, hspace⟩ := hall part hpart
  obtain ⟨hmem, hcomponent⟩ := List.mem_filter.mp hpart
  obtain ⟨hempty, hcurrent⟩ : part ≠ "" ∧ part ≠ "." := by
    simpa [Path.isComponent] using hcomponent
  rw [Result.failIf_ok, not_or, not_or] at hsafe
  obtain ⟨-, hcolons, hlists⟩ := hsafe
  rw [isPortablePart, hdot, hspace, Text.isOrdinary]
  simp only [Bool.not_false, Bool.and_true, Bool.and_eq_true, bne_iff_ne]
  refine ⟨⟨⟨hempty, hcurrent⟩, hclimb⟩, List.all_eq_true.mpr fun c hc => ?_⟩
  have hin : c ∈ (Path.slashed path).toList := Text.mem_of_mem_segment hmem hc
  have hslash : c ≠ '/' := fun h => Text.slash_not_mem_segment hmem (h ▸ hc)
  have hback : c ≠ '\\' := fun h => Path.backslash_not_mem_slashed path (h ▸ hin)
  have hcolon : c ≠ ':' := by
    rintro rfl
    exact hcolons (List.contains_iff_mem.mpr hin)
  have hlist : isPathListChar c = false := by
    by_contra hbad
    exact hlists (List.any_eq_true.mpr ⟨c, hin, by simpa using hbad⟩)
  simp [hslash, hback, hcolon, hlist]

/-- A portable path is empty or its components are portable. -/
theorem portablePath_of_portable (h : portable path = .ok out) : out = "" ∨ PortablePath out := by
  obtain ⟨hout, hall⟩ := portable_ok h
  rw [hout]
  rcases eq_or_ne ((Text.segments (Path.slashed path)).filter Path.isComponent) [] with hnil | hne
  · rw [hnil]
    exact .inl rfl
  · exact .inr (portablePath_join hne hall)

theorem filter_segments_of_portablePath (h : PortablePath path) :
    (Text.segments path).filter Path.isComponent = Text.segments path := by
  refine List.filter_eq_self.mpr fun part hpart => ?_
  have hportable := h part hpart
  simp only [isPortablePart, Text.isOrdinary, Bool.and_eq_true, bne_iff_ne] at hportable
  obtain ⟨⟨⟨⟨⟨hempty, hcurrent⟩, -⟩, -⟩, -⟩, -⟩ := hportable
  simp [Path.isComponent, hempty, hcurrent]

/-- Below a portable path stay portable paths, under the same first component. -/
theorem portable_below {directory : String} (hdirectory : PortablePath directory)
    (hpath : path = directory ∨ IsAncestor directory path) (h : portable path = .ok out) :
    PortablePath out ∧ topOf out = topOf directory := by
  obtain ⟨hout, hall⟩ := portable_ok h
  rw [hout]
  obtain ⟨below, hparts⟩ : ∃ below, (Text.segments (Path.slashed path)).filter Path.isComponent =
      Text.segments directory ++ below := by
    have hslashed := Path.slashed_eq_self hdirectory.backslash_not_mem
    rcases hpath with rfl | ⟨rest, rfl⟩
    · refine ⟨[], ?_⟩
      rw [hslashed, filter_segments_of_portablePath hdirectory, List.append_nil]
    · refine ⟨(Text.segments (Path.slashed rest)).filter Path.isComponent, ?_⟩
      rw [Path.slashed_append, Path.slashed_append, hslashed,
        show Path.slashed "/" = "/" from rfl, Text.segments_append_slash, List.filter_append,
        filter_segments_of_portablePath hdirectory]
  obtain ⟨first, others, hsegments⟩ := List.exists_cons_of_ne_nil (Text.segments_ne_nil directory)
  rw [hparts, hsegments, List.cons_append] at hall ⊢
  refine ⟨portablePath_join (List.cons_ne_nil _ _) hall, ?_⟩
  rw [topOf_join fun part hpart => slash_not_mem_of_portable (hall part hpart), topOf, hsegments]
  rfl

/-- A mapping's destination is empty or portable. -/
theorem sdkDestination_ok (h : sdkDestination path = .ok out) : out = "" ∨ PortablePath out := by
  obtain ⟨clean, hclean, h⟩ := Result.bind_ok.mp h
  rcases portablePath_of_portable hclean with rfl | hportable
  · obtain rfl := Except.ok.inj h
    exact .inl rfl
  · cases hfind : SDK_ROOTS.find? (equalIgnoringCase · ((Text.splitOnce "/" clean).getD (clean, "")).1) with
    | none =>
      simp only [hfind] at h
      obtain rfl := Except.ok.inj h
      exact .inr hportable
    | some root =>
      simp only [hfind] at h
      have hroot : PortablePath root := by
        have hroots : ∀ root ∈ SDK_ROOTS, PortablePath root := by decide
        exact hroots root (List.mem_of_find?_eq_some hfind)
      obtain rfl := Except.ok.inj h
      right
      cases hsplit : Text.splitOnce "/" clean with
      | none => exact hroot
      | some parts =>
        split
        · exact hroot
        · obtain rfl := Text.splitOnce_eq (by decide) hsplit
          exact portablePath_append.mpr ⟨hroot, (portablePath_append.mp hportable).2⟩

end Portable

/-! ## Projecting -/

def reservedRoots : List String := ["components", "metadata"]

/-- A projected file under its folded path: portable, outside the reserved roots. -/
structure Projects (key : String) (file : SdkFile) : Prop where
  folded : key = Text.toAsciiLowercase file.file.path
  portable : PortablePath file.file.path
  unreserved : Text.toAsciiLowercase (topOf file.file.path) ∉ reservedRoots

def Projected (files : Files) : Prop := ∀ key file, files[key]? = some file → Projects key file

theorem equalIgnoringCase_iff {a b : String} :
    equalIgnoringCase a b ↔ Text.toAsciiLowercase a = Text.toAsciiLowercase b := beq_iff_eq

theorem mapped_eq_some {path source destination target : String}
    (h : mapped path source destination = some target) :
    target = destination ∨ IsAncestor destination target := by
  unfold mapped at h
  split_ifs at h
  · exact .inl (Option.some.inj h).symm
  · obtain ⟨tail, -, rfl⟩ := Option.map_eq_some_iff.mp h
    exact .inr ⟨tail, rfl⟩

section Project

variable {files files' : Files}

theorem Projected.insert (hfiles : Projected files) {key : String} {file : SdkFile}
    (hfile : Projects key file) : Projected (files.insert key file) := by
  intro key' file' h
  rw [ExtTreeMap.getElem?_insert] at h
  split_ifs at h with heq
  · obtain rfl := Option.some.inj h
    obtain rfl : key = key' := by simpa using heq
    exact hfile
  · exact hfiles key' file' h

theorem projectEntries_ok {root source destination : String} {found found' : Bool}
    {entries : List CompositionInventoryEntry} (hdestination : PortablePath destination)
    (hunreserved : Text.toAsciiLowercase (topOf destination) ∉ reservedRoots)
    (hfiles : Projected files)
    (h : projectEntries root source destination files found entries = .ok (files', found')) :
    Projected files' := by
  induction entries generalizing files found with
  | nil =>
    cases h
    exact hfiles
  | cons entry rest ih =>
    rw [projectEntries] at h
    cases hmapped : mapped ((Text.stripPrefix root entry.file.path).getD entry.file.path) source
        destination with
    | none =>
      simp only [hmapped] at h
      exact ih hfiles h
    | some target =>
      simp only [hmapped] at h
      obtain ⟨path, hpath, h⟩ := Result.bind_ok.mp h
      obtain ⟨⟨⟩, -, h⟩ := Result.bind_ok.mp h
      obtain ⟨hportable, htop⟩ := portable_below hdestination (mapped_eq_some hmapped) hpath
      refine ih (hfiles.insert ?_) h
      exact ⟨rfl, hportable, by rw [htop]; exact hunreserved⟩

theorem projectMapping_ok {inventory : Inventory} {mapping : ResolvedInstallMapping}
    (hfiles : Projected files) (h : projectMapping inventory files mapping = .ok files') :
    Projected files' := by
  obtain ⟨source, -, h⟩ := Result.bind_ok.mp h
  obtain ⟨destination, hdestination, h⟩ := Result.bind_ok.mp h
  obtain ⟨⟨⟩, hreserved, h⟩ := Result.bind_ok.mp h
  obtain ⟨⟨projected, found⟩, hentries, h⟩ := Result.bind_ok.mp h
  obtain ⟨⟨⟩, -, h⟩ := Result.bind_ok.mp h
  obtain rfl := Except.ok.inj h
  rw [Result.failIf_ok, not_or, not_or] at hreserved
  obtain ⟨hne, hcomponents, hmetadata⟩ := hreserved
  have hportable : PortablePath destination := by
    refine (sdkDestination_ok hdestination).resolve_left ?_
    rintro rfl
    exact hne rfl
  refine projectEntries_ok hportable ?_ hfiles hentries
  -- the reserved roots are spelled in lower case
  rw [equalIgnoringCase_iff, show Text.toAsciiLowercase "components" = "components" by decide]
    at hcomponents
  rw [equalIgnoringCase_iff, show Text.toAsciiLowercase "metadata" = "metadata" by decide]
    at hmetadata
  intro hmem
  rcases List.mem_cons.mp hmem with heq | hmem
  · exact hcomponents heq
  · exact hmetadata (List.mem_singleton.mp hmem)

/-- Every projected file is portable, under its folded path, and outside the reserved roots. -/
theorem projectMappings_ok {inventory : Inventory} {install : List ResolvedInstallMapping}
    (hfiles : Projected files) (h : projectMappings inventory files install = .ok files') :
    Projected files' := by
  induction install generalizing files with
  | nil =>
    obtain rfl := Except.ok.inj h
    exact hfiles
  | cons mapping rest ih =>
    obtain ⟨next, hnext, h⟩ := Result.bind_ok.mp h
    exact ih (projectMapping_ok hfiles hnext) h

end Project

/-! ## The checks of the tree -/

/-- The ancestors the checks walk are all there are. -/
theorem mem_parents {path directory : String} :
    directory ∈ parents path ↔ IsAncestor directory path := by
  unfold parents
  simp only [List.mem_map, List.mem_reverse, List.mem_range]
  constructor
  · rintro ⟨n, hn, rfl⟩
    have hlength : n + 1 < (Text.segments path).length := Nat.add_lt_of_lt_sub hn
    refine ⟨Text.join "/" ((Text.segments path).drop (n + 1)), ?_⟩
    calc path = Text.join "/" (Text.segments path) := (Text.join_segments path).symm
      _ = Text.join "/" ((Text.segments path).take (n + 1) ++ (Text.segments path).drop (n + 1)) := by
        rw [List.take_append_drop]
      _ = _ := by
        refine Text.join_append ?_ ?_
        · exact List.ne_nil_of_length_pos (by rw [List.length_take]; omega)
        · exact List.ne_nil_of_length_pos (by rw [List.length_drop]; omega)
  · rintro ⟨rest, rfl⟩
    have hdirectory := List.length_pos_of_ne_nil (Text.segments_ne_nil directory)
    have hrest := List.length_pos_of_ne_nil (Text.segments_ne_nil rest)
    refine ⟨(Text.segments directory).length - 1, ?_, ?_⟩
    · change _ < (Text.segments _).length - 1
      rw [Text.segments_append_slash, List.length_append]
      omega
    · change Text.join "/" ((Text.segments _).take _) = _
      rw [Text.segments_append_slash, Nat.sub_add_cancel hdirectory, List.take_left,
        Text.join_segments]

theorem checkFiles_ok {files : Files} {u : Unit} (h : checkFiles files = .ok u) :
    ∀ key ∈ files, ∀ other ∈ files, ¬ IsAncestor key other := by
  intro key hkey other hother hancestor
  obtain ⟨⟨⟩, hparents, -⟩ := Result.bind_ok.mp
    (Result.forAll_ok.mp h other (ExtTreeMap.mem_keys.mpr hother))
  exact Result.failIf_ok.mp (Result.forAll_ok.mp hparents key (mem_parents.mpr hancestor))
    (ExtTreeMap.mem_iff_contains.mp hkey)

theorem checkSpelling_ok {directories : ExtTreeMap String String} {walked : List String} {u : Unit}
    (h : checkSpelling directories walked = .ok u) :
    (∀ d ∈ walked, ∀ previous, directories[Text.toAsciiLowercase d]? = some previous →
        previous = d) ∧
      ∀ d ∈ walked, ∀ d' ∈ walked, Text.toAsciiLowercase d = Text.toAsciiLowercase d' → d = d' := by
  induction walked generalizing directories with
  | nil => exact ⟨fun d hd => absurd hd List.not_mem_nil, fun d hd => absurd hd List.not_mem_nil⟩
  | cons first rest ih =>
    obtain ⟨⟨⟩, hsame, h⟩ := Result.bind_ok.mp h
    obtain ⟨hprevious, hrest⟩ := ih h
    have hfirst : ∀ previous, directories[Text.toAsciiLowercase first]? = some previous →
        previous = first := by
      intro previous hget
      rw [Result.failIf_ok, hget] at hsame
      simpa using hsame
    -- a later spelling of the same directory meets the one just kept
    have hlater : ∀ d ∈ rest, Text.toAsciiLowercase first = Text.toAsciiLowercase d → first = d := by
      intro d hd heq
      refine hprevious d hd first ?_
      rw [← heq]
      exact ExtTreeMap.getElem?_insert_self
    constructor
    · intro d hd previous hget
      rcases List.mem_cons.mp hd with rfl | hd
      · exact hfirst previous hget
      · by_cases heq : Text.toAsciiLowercase first = Text.toAsciiLowercase d
        · rw [← heq] at hget
          exact (hfirst previous hget).trans (hlater d hd heq)
        · exact hprevious d hd previous ((TreeMap.getElem?_insert_of_ne heq).trans hget)
    · intro d hd d' hd' heq
      rcases List.mem_cons.mp hd with rfl | hin <;> rcases List.mem_cons.mp hd' with rfl | hin'
      · rfl
      · exact hlater d' hin' heq
      · exact (hlater d hin heq.symm).symm
      · exact hrest d hin d' hin' heq

/-- Links are pointed elsewhere in place. -/
theorem rewriteLink_path {codec : Codec} {original : List SdkFile} {file file' : SdkFile}
    (h : rewriteLink codec original file = .ok file') : file'.file.path = file.file.path := by
  unfold rewriteLink at h
  split at h
  · obtain rfl := Except.ok.inj h
    rfl
  · obtain ⟨target, -, h⟩ := Result.bind_ok.mp h
    obtain ⟨destination, -, h⟩ := Result.bind_ok.mp h
    obtain rfl := Except.ok.inj h
    rfl

theorem mapM_rewriteLink_path {codec : Codec} {original files files' : List SdkFile}
    (h : files.mapM (rewriteLink codec original) = .ok files') :
    files'.map (·.file.path) = files.map (·.file.path) := by
  induction files generalizing files' with
  | nil =>
    obtain rfl := Except.ok.inj h
    rfl
  | cons file rest ih =>
    rw [List.mapM_cons] at h
    obtain ⟨file', hfile, h⟩ := Result.bind_ok.mp h
    obtain ⟨rest', hrest, h⟩ := Result.bind_ok.mp h
    obtain rfl := Except.ok.inj h
    rw [List.map_cons, List.map_cons, ih hrest, rewriteLink_path hfile]

/-- What the checks leave of the projected files. -/
theorem deriveFiles_wellFormed {codec : Codec} {inventory : Inventory}
    {install : List ResolvedInstallMapping} {files : List SdkFile}
    (h : deriveFiles codec inventory install = .ok files) :
    WellFormedTree (files.map (·.file.path)) := by
  obtain ⟨projected, hprojected, h⟩ := Result.bind_ok.mp h
  obtain ⟨⟨⟩, hfiles, h⟩ := Result.bind_ok.mp h
  obtain ⟨⟨⟩, hspelling, h⟩ := Result.bind_ok.mp h
  have hall : Projected projected := by
    refine projectMappings_ok ?_ hprojected
    intro key file hget
    exact absurd hget (by simp)
  have hperm := SortBy.perm_sortBy (·.file.path) (TreeMap.values projected)
  rw [mapM_rewriteLink_path h]
  have hkey : ∀ file ∈ sortBy (·.file.path) (TreeMap.values projected),
      Projects (Text.toAsciiLowercase file.file.path) file ∧
        Text.toAsciiLowercase file.file.path ∈ projected := by
    intro file hfile
    obtain ⟨key, hget⟩ := TreeMap.mem_values.mp (SortBy.mem_sortBy.mp hfile)
    have hprojects := hall key file hget
    rw [← hprojects.folded]
    exact ⟨hprojects, ExtTreeMap.mem_iff_isSome_getElem?.mpr (by rw [hget]; rfl)⟩
  constructor
  · intro path hpath
    obtain ⟨file, hfile, rfl⟩ := List.mem_map.mp hpath
    exact (hkey file hfile).1.portable
  · -- the folded paths are the keys of a map
    rw [List.map_map]
    refine ((hperm.map _).nodup_iff).mpr ?_
    have hkeys : (TreeMap.values projected).map (fun file => Text.toAsciiLowercase file.file.path) =
        projected.keys := by
      rw [TreeMap.values, List.map_map, ← ExtTreeMap.map_fst_toList_eq_keys]
      refine List.map_congr_left fun e he => ?_
      exact (hall e.1 e.2 (ExtTreeMap.mem_toList_iff_getElem?_eq_some.mp he)).folded.symm
    exact hkeys ▸ projected.nodup_keys
  · intro path hpath other hother
    obtain ⟨file, hfile, rfl⟩ := List.mem_map.mp hpath
    obtain ⟨file', hfile', rfl⟩ := List.mem_map.mp hother
    exact checkFiles_ok hfiles _ (hkey file hfile).2 _ (hkey file' hfile').2
  · intro path hpath other hother directory directory' hdirectory hdirectory' heq
    obtain ⟨file, hfile, rfl⟩ := List.mem_map.mp hpath
    obtain ⟨file', hfile', rfl⟩ := List.mem_map.mp hother
    refine (checkSpelling_ok hspelling).2 directory ?_ directory' ?_ heq
    · exact List.mem_flatMap.mpr ⟨file, hfile, mem_parents.mpr hdirectory⟩
    · exact List.mem_flatMap.mpr ⟨file', hfile', mem_parents.mpr hdirectory'⟩
  · intro path hpath
    obtain ⟨file, hfile, rfl⟩ := List.mem_map.mp hpath
    exact (hkey file hfile).1.unreserved

/-- The files of every derived layout form a well-formed tree. -/
theorem derive_wellFormed {codec : Codec} {resolved : ResolvedRuntimeComposition}
    {inventory : List CompositionInventoryEntry} {layout : RuntimeSdkLayout}
    (h : derive codec resolved inventory = .ok layout) :
    WellFormedTree (layout.files.map (·.file.path)) := by
  obtain ⟨files, hfiles, h⟩ := Result.bind_ok.mp h
  obtain ⟨environment, -, h⟩ := Result.bind_ok.mp h
  obtain rfl := Except.ok.inj h
  exact deriveFiles_wellFormed hfiles

namespace Sample

/-- SHA-256 on the one link that is rewritten. -/
def codec : Codec where
  sha256 _ := bytesOfHex
    "57cc2f4953b082aded774779487743ed119aac3980e0fece83d39944d824b48e".toList
  parse _ := none

def digest : String := "ab279d45b762a3116dbe6c81cd3b54dc5abe46ca6550258860d85ae58b2dc368"

/-- A library of a component and a link to it. -/
def inventory : List CompositionInventoryEntry :=
  [⟨"usd", "a", "components/usd/Lib/a.so", digest, 1, none, false⟩,
    ⟨"usd", "a", "components/usd/Lib/b.so", digest, 4, some "a.so", false⟩]

def resolved : ResolvedRuntimeComposition where
  schema := "openstrata.runtime-composition.resolved/v1alpha1"
  name := "sample"
  target := "linux"
  manifestDigest := digest
  compositionDigest := digest
  components := []
  providers := []
  environment := []
  install := [⟨"Lib", "usd", "a", "Lib"⟩]
  conflicts := []

theorem derives : (derive codec resolved inventory).toOption.map
    (fun layout => layout.files.map (·.file.path)) = some ["lib/a.so", "lib/b.so"] := by
  decide +kernel

end Sample

theorem derive_wellFormed_sample : ∃ layout,
    derive Sample.codec Sample.resolved Sample.inventory = .ok layout ∧
      WellFormedTree (layout.files.map (·.file.path)) := by
  obtain ⟨layout, hlayout, -⟩ := Result.exists_of_map_eq Sample.derives
  exact ⟨layout, hlayout, derive_wellFormed hlayout⟩

end RuntimeSdkLayout

end OpenStrata
