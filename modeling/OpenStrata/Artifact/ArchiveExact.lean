import OpenStrata.Artifact.Archive
import Mathlib.Data.List.Perm.Subperm

/-!
# The comparison of an archive with its manifest is exact

A comparison without findings means that neither list names a path twice and that both list the
same files. The two passes share no state: the one over the manifest finds what is missing or
different, the one over the archive what is extra, and what each leaves unsaid the other says.

## Main results

* `compareArchiveFiles_exact`: when the comparison passes, and what it then counts
-/

namespace OpenStrata

/-- The manifest entry that lists an archived file. -/
def ArchiveFile.listing (f : ArchiveFile) : ManifestFile where
  path := f.path
  sha256 := f.sha256
  size := f.size
  linkTarget := f.linkTarget
  executable := f.executable

@[simp] theorem ArchiveFile.listing_path (f : ArchiveFile) : f.listing.path = f.path := rfl

theorem map_path_listing (actual : List ArchiveFile) :
    (actual.map ArchiveFile.listing).map (·.path) = actual.map (·.path) := by
  simp only [List.map_map, Function.comp_def, ArchiveFile.listing_path]

/-- Same path and same content, target and mode: the same file. -/
theorem listing_eq_iff (f : ArchiveFile) (want : ManifestFile) :
    f.listing = want ↔ f.path = want.path ∧ sameFile f want = true := by
  cases want
  simp only [ArchiveFile.listing, sameFile, ManifestFile.mk.injEq, Bool.and_eq_true, beq_iff_eq]
  tauto

/-! ## The pass over the manifest -/

/-- The pass over the manifest finds nothing. -/
def FileComparison.Clean (cmp : FileComparison) : Prop :=
  cmp.mismatched = [] ∧ cmp.missing = []

/-- The first archived file of the wanted path is the wanted file. -/
def FoundFirst (actual : List ArchiveFile) (want : ManifestFile) : Prop :=
  ∃ f, actual.find? (·.path == want.path) = some f ∧ sameFile f want = true

/-- The manifest's pass is clean when no path repeats and each file is found first. -/
theorem compareExpected_clean (actual : List ArchiveFile) (expected : List ManifestFile)
    (seen : List String) :
    (compareExpected actual seen expected).Clean ↔
      (expected.map (·.path)).Nodup ∧ (∀ want ∈ expected, want.path ∉ seen) ∧
        ∀ want ∈ expected, FoundFirst actual want := by
  induction expected generalizing seen with
  | nil => simp [compareExpected, FileComparison.Clean]
  | cons want rest ih =>
    unfold compareExpected
    by_cases hseen : want.path ∈ seen
    · simp [hseen, FileComparison.Clean]
    · -- the rest is judged with this path among those seen
      have hrest := ih (want.path :: seen)
      have hsplit : (∀ w ∈ rest, w.path ∉ want.path :: seen) ↔
          want.path ∉ rest.map (·.path) ∧ ∀ w ∈ rest, w.path ∉ seen := by
        simp only [List.mem_cons, not_or, List.mem_map, not_exists, not_and]
        constructor
        · exact fun h => ⟨fun w hw => (h w hw).1, fun w hw => (h w hw).2⟩
        · exact fun h w hw => ⟨h.1 w hw, h.2 w hw⟩
      rw [hsplit] at hrest
      simp only [if_neg hseen, List.map_cons, List.nodup_cons, List.forall_mem_cons, FoundFirst]
      cases hfind : actual.find? (·.path == want.path) with
      | none => simp [FileComparison.Clean]
      | some f =>
        by_cases hsame : sameFile f want = true
        · simp only [hsame, if_true]
          rw [show FileComparison.Clean
            { compareExpected actual (want.path :: seen) rest with
              matched := (compareExpected actual (want.path :: seen) rest).matched + 1 } ↔
            (compareExpected actual (want.path :: seen) rest).Clean from Iff.rfl, hrest]
          simp only [Option.some.injEq, exists_eq_left', hsame, true_and, hseen,
            not_false_eq_true, FoundFirst]
          tauto
        · simp [hsame, FileComparison.Clean]

/-- A clean pass over the manifest counts every file of it. -/
theorem compareExpected_matched {actual : List ArchiveFile} {expected : List ManifestFile}
    {seen : List String} (h : (compareExpected actual seen expected).Clean) :
    (compareExpected actual seen expected).matched = expected.length := by
  induction expected generalizing seen with
  | nil => rfl
  | cons want rest ih =>
    unfold compareExpected at h ⊢
    by_cases hseen : want.path ∈ seen
    · simp [hseen, FileComparison.Clean] at h
    · simp only [if_neg hseen] at h ⊢
      cases hfind : actual.find? (·.path == want.path) with
      | none => simp [hfind, FileComparison.Clean] at h
      | some f =>
        by_cases hsame : sameFile f want = true
        · simp only [hfind, hsame, if_true] at h ⊢
          rw [ih h, List.length_cons]
        · simp [hfind, hsame, FileComparison.Clean] at h

/-! ## The pass over the archive -/

/-- The archive's pass finds nothing when no path repeats and the manifest lists each. -/
theorem extraFiles_eq_nil (expected : List ManifestFile) (actual : List ArchiveFile)
    (seen : List String) :
    extraFiles expected seen actual = [] ↔
      (actual.map (·.path)).Nodup ∧ (∀ f ∈ actual, f.path ∉ seen) ∧
        ∀ f ∈ actual, f.path ∈ expected.map (·.path) := by
  induction actual generalizing seen with
  | nil => simp [extraFiles]
  | cons f rest ih =>
    have hlisted : expected.any (·.path == f.path) = true ↔ f.path ∈ expected.map (·.path) := by
      simp only [List.any_eq_true, beq_iff_eq, List.mem_map]
    unfold extraFiles
    by_cases hextra : f.path ∈ seen ∨ ¬ expected.any (·.path == f.path)
    · rw [if_pos hextra]
      simp only [reduceCtorEq, false_iff, List.forall_mem_cons]
      rintro ⟨-, ⟨hseen, -⟩, hin, -⟩
      exact hextra.elim hseen fun h => h (hlisted.mpr hin)
    · rw [if_neg hextra, ih]
      have hnot : f.path ∉ seen := fun h => hextra (.inl h)
      have hin : f.path ∈ expected.map (·.path) := by
        by_contra hout
        exact hextra (.inr (mt hlisted.mp hout))
      simp only [List.map_cons, List.nodup_cons, List.forall_mem_cons]
      constructor
      · rintro ⟨hnodup, hfresh, hall⟩
        refine ⟨⟨?_, hnodup⟩, ⟨hnot, fun g hg hs => ?_⟩, hin, hall⟩
        · intro hmem
          obtain ⟨g, hg, hpath⟩ := List.mem_map.mp hmem
          exact hfresh g hg (hpath ▸ List.mem_cons_self)
        · exact hfresh g hg (List.mem_cons_of_mem _ hs)
      · rintro ⟨⟨hfirst, hnodup⟩, ⟨-, hfresh⟩, -, hall⟩
        refine ⟨hnodup, fun g hg hs => ?_, hall⟩
        rcases List.mem_cons.mp hs with hpath | hs
        · exact hfirst (hpath ▸ List.mem_map_of_mem hg)
        · exact hfresh g hg hs

/-! ## Both passes -/

/-- Where no path repeats, the first file of a path is the only one. -/
theorem foundFirst_iff {actual : List ArchiveFile} (hnodup : (actual.map (·.path)).Nodup)
    (want : ManifestFile) : FoundFirst actual want ↔ want ∈ actual.map ArchiveFile.listing := by
  simp only [FoundFirst, List.mem_map, listing_eq_iff]
  constructor
  · rintro ⟨f, hfind, hsame⟩
    have hpath := List.find?_some hfind
    exact ⟨f, List.mem_of_find?_eq_some hfind, by simpa using hpath, hsame⟩
  · rintro ⟨f, hmem, hpath, hsame⟩
    cases hfind : actual.find? (·.path == want.path) with
    | none =>
      have hnone := List.find?_eq_none.mp hfind f hmem
      simp [hpath] at hnone
    | some g =>
      have hg : g.path = f.path := by
        have := List.find?_some hfind
        rw [hpath]
        simpa using this
      have heq : g = f :=
        List.inj_on_of_nodup_map hnodup (List.mem_of_find?_eq_some hfind) hmem hg
      exact ⟨g, rfl, heq ▸ hsame⟩

/-- The comparison passes when neither list names a path twice and both list the same files. -/
theorem passed_iff (actual : List ArchiveFile) (expected : List ManifestFile) :
    (compareArchiveFiles actual expected).passed = true ↔
      (actual.map (·.path)).Nodup ∧ (expected.map (·.path)).Nodup ∧
        ∀ file, file ∈ actual.map ArchiveFile.listing ↔ file ∈ expected := by
  have hpassed : (compareArchiveFiles actual expected).passed = true ↔
      (compareExpected actual [] expected).Clean ∧ extraFiles expected [] actual = [] := by
    simp only [FileComparison.passed, compareArchiveFiles, FileComparison.Clean,
      Bool.and_eq_true, beq_iff_eq]
  rw [hpassed, compareExpected_clean, extraFiles_eq_nil]
  simp only [List.not_mem_nil, not_false_eq_true, implies_true, true_and]
  constructor
  · rintro ⟨⟨hexpected, hfound⟩, hactual, hlisted⟩
    refine ⟨hactual, hexpected, fun file => ⟨fun hfile => ?_, fun hfile => ?_⟩⟩
    · -- the manifest's file of this path was found, and the archive has but one of it
      obtain ⟨f, hf, rfl⟩ := List.mem_map.mp hfile
      obtain ⟨want, hwant, hpath⟩ := List.mem_map.mp (hlisted f hf)
      obtain ⟨g, hg, heq⟩ := List.mem_map.mp ((foundFirst_iff hactual want).mp (hfound want hwant))
      have hsame : g.path = f.path := by rw [← hpath, ← heq, ArchiveFile.listing_path]
      rw [← List.inj_on_of_nodup_map hactual hg hf hsame, heq]
      exact hwant
    · exact (foundFirst_iff hactual file).mp (hfound file hfile)
  · rintro ⟨hactual, hexpected, hsame⟩
    refine ⟨⟨hexpected, fun want hwant => ?_⟩, hactual, fun f hf => ?_⟩
    · exact (foundFirst_iff hactual want).mpr ((hsame want).mpr hwant)
    · exact List.mem_map.mpr ⟨f.listing, (hsame _).mp (List.mem_map_of_mem hf), rfl⟩

/-- The comparison passes exactly when no path repeats in either list and both list the same
files; what it counts is then the length of either. -/
theorem compareArchiveFiles_exact (actual : List ArchiveFile) (expected : List ManifestFile) :
    ((compareArchiveFiles actual expected).passed = true ↔
      (actual.map (·.path)).Nodup ∧ (expected.map (·.path)).Nodup ∧
        ∀ file, file ∈ actual.map ArchiveFile.listing ↔ file ∈ expected) ∧
    ((compareArchiveFiles actual expected).passed = true →
      (compareArchiveFiles actual expected).matched = actual.length ∧
      (compareArchiveFiles actual expected).matched = expected.length) := by
  refine ⟨passed_iff actual expected, fun hpassed => ?_⟩
  obtain ⟨hactual, hexpected, hsame⟩ := (passed_iff actual expected).mp hpassed
  have hclean : (compareExpected actual [] expected).Clean := by
    simp only [FileComparison.passed, compareArchiveFiles, Bool.and_eq_true, beq_iff_eq] at hpassed
    exact hpassed.1
  have hmatched : (compareArchiveFiles actual expected).matched = expected.length :=
    compareExpected_matched hclean
  have hnodup : (actual.map ArchiveFile.listing).Nodup := by
    rw [← map_path_listing] at hactual
    exact hactual.of_map
  have hperm : (actual.map ArchiveFile.listing).Perm expected :=
    (List.perm_ext_iff_of_nodup hnodup hexpected.of_map).mpr hsame
  have hlength : actual.length = expected.length := by
    rw [← hperm.length_eq, List.length_map]
  exact ⟨hmatched.trans hlength.symm, hmatched⟩

end OpenStrata
