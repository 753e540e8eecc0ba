import OpenStrata.Core.Find
import OpenStrata.Core.Parts
import OpenStrata.Plugin.Golden

/-!
# Layer identifiers

OpenUSD joins the file-format arguments of a layer to its path without escaping. Loading a bundle
refuses arguments that would be read back as others. The path comes first in the identifier and is
not looked at.

## Main definitions

* `checkFileFormatArguments`: the arguments that a manifest may declare
* `splitIdentifier`: how OpenUSD reads an identifier
* `Unmarked`: no marker begins in a path

## Main results

* `identifier_decodes_iff`: an identifier is read back as its path and its arguments exactly when
  no marker begins in the path
-/

namespace OpenStrata.Plugin.Golden

def MARKER : String := ":SDF_FORMAT_ARGS:"

/-- `check_file_format_arguments`. -/
def checkFileFormatArguments (fixture : SmokeFixture) : Result Unit :=
  Result.forAll (fun entry => do
    Result.failIf entry.1.isEmpty
      (.config ("tests.smoke file_format_arguments for '" ++ fixture.pathOf ++
        "' contains an empty key"))
    Result.failIf (Text.any (fun c => c == '&' || c == '=') entry.1 ∨
        Text.containsChar (Char.ofNat 0) entry.1)
      (.config ("tests.smoke file_format_arguments key '" ++ entry.1 ++ "' for '" ++
        fixture.pathOf ++ "' cannot contain '&', '=', or NUL"))
    Result.failIf (Text.containsChar '&' entry.2 ∨ Text.containsChar (Char.ofNat 0) entry.2)
      (.config ("tests.smoke file_format_arguments value for '" ++ entry.1 ++ "' in '" ++
        fixture.pathOf ++ "' cannot contain '&' or NUL")))
    fixture.fileFormatArguments

/-- OpenUSD's reading: the path is before the first marker, the arguments are separated by `&`,
and a key ends at the first `=`. -/
def splitIdentifier (identifier : String) : String × List (String × String) :=
  match Text.splitOnce MARKER identifier with
  | none => (identifier, [])
  | some (path, arguments) =>
    (path, (Text.split (· == '&') arguments).filterMap (Text.splitOnce "="))

/-- In a path with a marker after it, that marker is the first. -/
def Unmarked (path : String) : Prop :=
  ∀ p q, path ++ MARKER = p ++ MARKER ++ q → path.length ≤ p.length

section Identifier

variable {fixture : ResolvedFixture} {source : SmokeFixture} {path : String} {entry : String × String}

/-- What is after the marker does not matter for what begins in the path. -/
theorem unmarked_iff (arguments : String) : Unmarked path ↔
    ∀ p q, path ++ MARKER ++ arguments = p ++ MARKER ++ q → path.length ≤ p.length := by
  refine ⟨fun h p q hpq => ?_, fun h p q hpq => h p (q ++ arguments) ?_⟩
  · by_contra! hlt
    have hearly : (p ++ MARKER).toList <+: (path ++ MARKER ++ arguments).toList :=
      ⟨q.toList, by rw [hpq]; simp⟩
    have hfirst : (path ++ MARKER).toList <+: (path ++ MARKER ++ arguments).toList :=
      ⟨arguments.toList, by simp⟩
    have hlength : (p ++ MARKER).toList.length ≤ (path ++ MARKER).toList.length := by
      simp only [String.toList_append, List.length_append, String.length_toList]
      omega
    obtain ⟨rest, hrest⟩ := List.prefix_of_prefix_length_le hearly hfirst hlength
    have hsplit : path ++ MARKER = p ++ MARKER ++ String.ofList rest := by
      rw [← String.toList_inj, ← hrest]
      simp
    have hle := h p (String.ofList rest) hsplit
    omega
  · rw [hpq]
    simp only [String.append_assoc]

/-- The path is read back when no marker begins in it, and a shorter one otherwise. -/
theorem splitOnce_marker_iff (arguments : String) : (∃ rest, Text.splitOnce MARKER (path ++ MARKER ++ arguments) =
    some (path, rest)) ↔ Unmarked path := by
  have hne : MARKER ≠ "" := by decide
  rw [unmarked_iff arguments]
  constructor
  · rintro ⟨rest, h⟩
    exact ((Text.splitOnce_iff hne).mp h).2
  · exact fun h => ⟨arguments, (Text.splitOnce_iff hne).mpr ⟨rfl, h⟩⟩

/-- The separators that an accepted argument does not have. -/
theorem checkFileFormatArguments_ok (h : checkFileFormatArguments source = .ok ())
    (hentry : entry ∈ source.fileFormatArguments) :
    '&' ∉ entry.1.toList ∧ '=' ∉ entry.1.toList ∧ '&' ∉ entry.2.toList := by
  have hcheck := Result.forAll_ok.mp h entry hentry
  obtain ⟨⟨⟩, -, hcheck⟩ := Result.bind_ok.mp hcheck
  obtain ⟨⟨⟩, hkey, hvalue⟩ := Result.bind_ok.mp hcheck
  have hkey := (not_or.mp (Result.failIf_ok.mp hkey)).1
  have hvalue := (not_or.mp (Result.failIf_ok.mp hvalue)).1
  refine ⟨fun hmem => hkey ?_, fun hmem => hkey ?_, fun hmem => hvalue ?_⟩
  · exact List.any_eq_true.mpr ⟨'&', hmem, by decide⟩
  · exact List.any_eq_true.mpr ⟨'=', hmem, by decide⟩
  · simpa [Text.containsChar] using hmem

theorem identifier_eq (hsource : fixture.source = some source)
    (hargs : source.fileFormatArguments ≠ []) :
    fixture.identifier = fixture.path ++ MARKER ++ Text.join "&"
      ((SortBy.sortBy (·.1) source.fileFormatArguments).map fun entry =>
        entry.1 ++ "=" ++ entry.2) := by
  unfold ResolvedFixture.identifier
  simp only [hsource, Option.map_some, Option.getD_some, List.isEmpty_iff, hargs, if_false]
  rfl

/-- Accepted arguments are read back from their text. -/
theorem split_arguments {entries : List (String × String)} (hne : entries ≠ [])
    (hall : ∀ e ∈ entries, '&' ∉ e.1.toList ∧ '=' ∉ e.1.toList ∧ '&' ∉ e.2.toList) :
    (Text.split (· == '&') (Text.join "&" (entries.map fun e => e.1 ++ "=" ++ e.2))).filterMap
      (Text.splitOnce "=") = entries := by
  have hparts : ∀ part ∈ entries.map (fun e => e.1 ++ "=" ++ e.2), '&' ∉ part.toList := by
    intro part hpart
    obtain ⟨e, he, rfl⟩ := List.mem_map.mp hpart
    obtain ⟨hkey, -, hvalue⟩ := hall e he
    simp [hkey, hvalue]
  rw [Text.split_join_char rfl (by simpa using hne) hparts, List.filterMap_map]
  have hsplit : ∀ e ∈ entries, (Text.splitOnce "=" ∘ fun e => e.1 ++ "=" ++ e.2) e = some e :=
    fun e he => Text.splitOnce_append rfl (hall e he).2.1
  rw [List.filterMap_congr hsplit, List.filterMap_some]

/-- An identifier is read back as its path and its arguments exactly when no marker begins in the
path. -/
theorem identifier_decodes_iff (hsource : fixture.source = some source)
    (hargs : source.fileFormatArguments ≠ [])
    (haccepted : checkFileFormatArguments source = .ok ()) :
    ((splitIdentifier fixture.identifier).1 = fixture.path ∧
      (splitIdentifier fixture.identifier).2.Perm source.fileFormatArguments) ↔
        Unmarked fixture.path := by
  rw [identifier_eq hsource hargs]
  generalize htext : Text.join "&" ((SortBy.sortBy (·.1) source.fileFormatArguments).map
    fun entry => entry.1 ++ "=" ++ entry.2) = arguments
  rw [← splitOnce_marker_iff arguments, splitIdentifier]
  cases hsplit : Text.splitOnce MARKER (fixture.path ++ MARKER ++ arguments) with
  | none =>
    refine iff_of_false (fun h => ?_) (by simp)
    have hlength := congrArg String.length h.1
    simp only [String.length_append] at hlength
    have hmarker : MARKER.length = 17 := by decide
    omega
  | some parts =>
    obtain ⟨before, after⟩ := parts
    simp only [Option.some.injEq, Prod.mk.injEq, exists_and_left, exists_eq', and_true]
    refine ⟨fun h => h.1, fun h => ⟨h, ?_⟩⟩
    subst h
    have hafter : after = arguments := by
      have heq := ((Text.splitOnce_iff (by decide)).mp hsplit).1
      rw [← String.toList_inj] at heq ⊢
      simpa using heq.symm
    have hsorted := SortBy.perm_sortBy (·.1) source.fileFormatArguments
    rw [hafter, ← htext, split_arguments]
    · exact hsorted
    · exact fun h => hargs (List.perm_nil.mp (h ▸ hsorted.symm))
    · exact fun e he => checkFileFormatArguments_ok haccepted (hsorted.mem_iff.mp he)

end Identifier

namespace Sample

def source (rel : String) : SmokeFixture := .structured rel [("target", "a=b"), ("frame", "1")]

def fixture (rel : String) : ResolvedFixture := ⟨rel, "/b/" ++ rel, some (source rel)⟩

end Sample

theorem identifier_decodes_iff_sample :
    ((splitIdentifier (Sample.fixture "a.usd").identifier).1 = "/b/a.usd" ∧
      (splitIdentifier (Sample.fixture "a.usd").identifier).2.Perm
        [("target", "a=b"), ("frame", "1")]) ↔ Unmarked "/b/a.usd" :=
  identifier_decodes_iff
    (show (Sample.fixture "a.usd").source = some (Sample.source "a.usd") from rfl)
    (by simp [Sample.source, SmokeFixture.fileFormatArguments]) (by decide)

/-- A fixture whose path has a marker is accepted, and read back with a shorter path. -/
theorem marked_path_cut : checkSafeRelative "test fixture" "xy:SDF_FORMAT_ARGS:z" = .ok () ∧
    checkFileFormatArguments (Sample.source "xy:SDF_FORMAT_ARGS:z") = .ok () ∧
    (splitIdentifier (Sample.fixture "xy:SDF_FORMAT_ARGS:z").identifier).1 = "/b/xy" := by
  decide

end OpenStrata.Plugin.Golden
