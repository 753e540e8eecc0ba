import OpenStrata.Artifact.Reference
import OpenStrata.Core.Find

/-!
# Locators of references

The locator of a parsed reference names the same reference. A colon separates a port, a tag or a
drive letter, a slash the registry or a directory; none of them shifts when the parts are printed
and read again, because no part contains the separator that ends it.

## Main definitions

* `OciReference.WellFormed`: the parts a parsed registry reference has

## Main results

* `RemoteReference.parse_locator`: the round trip
-/

namespace OpenStrata

/-! ## Separators

The alphabets of the parts leave out the separators around them. -/

theorem not_mem_of_all {p : Char → Bool} {s : String} {c : Char} (h : Text.all p s)
    (hc : p c = false) : c ∉ s.toList := by
  intro hmem
  have := List.all_eq_true.mp h c hmem
  rw [hc] at this
  cases this

/-- The first character of a tag is one of those that may follow it. -/
theorem tag_alphabet {tag : String} (h : isValidOciTag tag) :
    Text.all (fun c => c.isAlphanum || c == '.' || c == '_' || c == '-') tag := by
  unfold isValidOciTag at h
  cases htag : tag.toList with
  | nil =>
    rw [htag] at h
    cases h
  | cons first rest =>
    rw [htag] at h
    simp only [Bool.and_eq_true, Bool.or_eq_true, beq_iff_eq] at h
    obtain ⟨⟨-, hfirst⟩, hrest⟩ := h
    rw [Text.all, htag, List.all_cons, hrest, Bool.and_true]
    rcases hfirst with hfirst | rfl
    · simp [hfirst]
    · rfl

namespace OciReference

/-- The parts of a parsed registry reference. -/
structure WellFormed (r : OciReference) : Prop where
  registry_nonempty : r.registry.isEmpty = false
  registry : Text.all isRegistryChar r.registry
  repository_nonempty : r.repository.isEmpty = false
  repository : Text.all isRepositoryChar r.repository
  tag : ∀ tag, r.tag = some tag → isValidOciTag tag
  digest : ∀ digest, r.digest = some digest → isSha256Ref digest

theorem wellFormed_of_parseRest {input rest : String} {r : OciReference}
    (h : parseRest input rest = .ok r) : r.WellFormed := by
  obtain ⟨hne, hreg, hrne, hrepo, hdigest⟩ := parseRest_ok h
  refine ⟨hne, hreg, hrne, hrepo, ?_, hdigest⟩
  simp only [parseRest, Result.bind_ok, Result.failIf_ok] at h
  obtain ⟨⟨head, digest⟩, -, ⟨registry, repoAndTag⟩, -, _, -, _, -, _, -, _, -, _, htag, hr⟩ := h
  cases hr
  intro tag heq
  have heq : (splitTag repoAndTag).2 = some tag := heq
  simpa [heq] using htag

/-- The repository with its tag, as the locator writes it. -/
def repoAndTag (r : OciReference) : String :=
  r.repository ++ r.tag.elim "" fun tag => ":" ++ tag

theorem splitTag_repoAndTag {r : OciReference} (h : r.WellFormed) :
    splitTag r.repoAndTag = (r.repository, r.tag) := by
  have hrepo : ':' ∉ r.repository.toList := not_mem_of_all h.repository rfl
  unfold splitTag repoAndTag
  cases htag : r.tag with
  | none =>
    simp only [Option.elim_none, String.append_empty, Text.rsplitOnce_eq_none hrepo]
  | some tag =>
    have halphabet := tag_alphabet (h.tag tag htag)
    have hcolon : ':' ∉ tag.toList := not_mem_of_all halphabet rfl
    have hslash : '/' ∉ tag.toList := not_mem_of_all halphabet rfl
    have hsplit : Text.rsplitOnce ':' (r.repository ++ (":" ++ tag)) =
        some (r.repository, tag) := by
      rw [← String.append_assoc]
      exact Text.rsplitOnce_append rfl hcolon
    have hcontains : ¬ Text.containsChar '/' tag := by
      rw [Text.containsChar, List.contains_iff_mem]
      exact hslash
    simp only [Option.elim_some, hsplit]
    rw [if_pos (.inr hcontains)]

/-- What the locator writes after the scheme. -/
def locatorRest (r : OciReference) : String :=
  r.registry ++ "/" ++ r.repoAndTag ++ r.digest.elim "" fun digest => "@" ++ digest

theorem locator_eq (r : OciReference) : r.locator = "oci://" ++ r.locatorRest := by
  simp only [locator, locatorRest, repoAndTag, String.append_assoc]

/-- No sign that begins a digest occurs before it. -/
theorem at_not_mem {r : OciReference} (h : r.WellFormed) :
    '@' ∉ (r.registry ++ "/" ++ r.repoAndTag).toList := by
  have hregistry : '@' ∉ r.registry.toList := not_mem_of_all h.registry rfl
  have hrepository : '@' ∉ r.repository.toList := not_mem_of_all h.repository rfl
  have htag : '@' ∉ (r.tag.elim "" fun tag => ":" ++ tag).toList := by
    cases htag : r.tag with
    | none => simp
    | some tag => simpa using not_mem_of_all (tag_alphabet (h.tag tag htag)) rfl
  simp only [repoAndTag, String.toList_append, List.mem_append, not_or]
  exact ⟨⟨hregistry, by decide⟩, hrepository, htag⟩

theorem parseDigest_locatorRest {r : OciReference} (h : r.WellFormed) (input : String) :
    parseDigest input r.locatorRest = .ok (r.registry ++ "/" ++ r.repoAndTag, r.digest) := by
  have hat := at_not_mem h
  unfold parseDigest locatorRest
  cases hdigest : r.digest with
  | none =>
    rw [Option.elim_none, String.append_empty, Text.splitOnce_eq_none rfl hat]
  | some digest =>
    rw [Option.elim_some, ← String.append_assoc, Text.splitOnce_append rfl hat]
    exact if_pos (h.digest digest hdigest)

/-- The printed parts of a well-formed reference are read back as they are. -/
theorem parseRest_locatorRest {r : OciReference} (h : r.WellFormed) (input : String) :
    parseRest input r.locatorRest = .ok r := by
  have hslash : '/' ∉ r.registry.toList := not_mem_of_all h.registry rfl
  have hsplit : Text.splitOnce "/" (r.registry ++ "/" ++ r.repoAndTag) =
      some (r.registry, r.repoAndTag) := Text.splitOnce_append rfl hslash
  have htag : (r.tag.any fun tag => !isValidOciTag tag) = false := by
    cases htag : r.tag with
    | none => rfl
    | some tag => simp [h.tag tag htag]
  have hregistry : ¬ r.registry.isEmpty := by simp [h.registry_nonempty]
  have hrepository : ¬ r.repository.isEmpty := by simp [h.repository_nonempty]
  simp only [parseRest, Result.bind_ok, Result.failIf_ok, Result.okOr_ok]
  refine ⟨_, parseDigest_locatorRest h input, _, hsplit, (), hregistry, (), ?_, ?_⟩
  · exact not_not_intro h.registry
  · simp only [splitTag_repoAndTag h]
    exact ⟨(), hrepository, (), not_not_intro h.repository, (), by simp [htag], rfl⟩

end OciReference

namespace FileReference

/-- The path that a file reference names. -/
def namedPath (rest : String) : String :=
  match rest.toList with
  | '/' :: a :: ':' :: c :: tail =>
    if a.isAlpha then String.ofList (a :: ':' :: c :: tail) else rest
  | _ => rest

theorem parseRest_ok {input rest : String} {r : FileReference} :
    parseRest input rest = .ok r ↔ r.path = namedPath rest ∧ (namedPath rest).isEmpty = false := by
  have hparse : parseRest input rest = if (namedPath rest).isEmpty then
      .error (.usage ("'" ++ input ++
        "' has an empty file path (expected file://<package-output-dir>)"))
    else .ok { path := namedPath rest } := rfl
  rw [hparse]
  cases hempty : (namedPath rest).isEmpty with
  | true => simp
  | false =>
    obtain ⟨path⟩ := r
    simp [eq_comm]

/-- A named path is not cut a second time: it begins with a drive letter, or it was not cut. -/
theorem namedPath_namedPath (rest : String) : namedPath (namedPath rest) = namedPath rest := by
  have hcases : namedPath rest = rest ∨
      ∃ a c tail, a.isAlpha ∧ namedPath rest = String.ofList (a :: ':' :: c :: tail) := by
    unfold namedPath
    split
    · next a c tail _ =>
      split_ifs with ha
      · exact .inr ⟨a, c, tail, ha, rfl⟩
      · exact .inl rfl
    · exact .inl rfl
  rcases hcases with heq | ⟨a, c, tail, ha, heq⟩
  · rw [heq, heq]
  · rw [heq]
    unfold namedPath
    split
    · next hlist =>
      rw [String.toList_ofList, List.cons.injEq] at hlist
      -- a drive letter is no slash
      rw [hlist.1] at ha
      cases ha
    · rfl

theorem parseRest_path {input rest : String} {r : FileReference}
    (h : parseRest input rest = .ok r) (input' : String) : parseRest input' r.path = .ok r := by
  obtain ⟨hpath, hne⟩ := parseRest_ok.mp h
  rw [parseRest_ok, hpath, namedPath_namedPath]
  exact ⟨rfl, hne⟩

end FileReference

namespace RemoteReference

def sampleDigest : String :=
  "sha256:efefefefefefefefefefefefefefefefefefefefefefefefefefefefefefefef"

/-- The locator of every accepted reference parses to that reference. -/
theorem parse_locator {s : String} {r : RemoteReference} (h : parse s = .ok r) :
    parse r.locator = .ok r := by
  unfold parse at h
  cases hoci : Text.stripPrefix "oci://" s with
  | some rest =>
    simp only [hoci, Result.bind_ok] at h
    obtain ⟨oci, hrest, hr⟩ := h
    cases hr
    have hwf := OciReference.wellFormed_of_parseRest hrest
    simp only [parse, locator, OciReference.locator_eq, Text.stripPrefix_append,
      OciReference.parseRest_locatorRest hwf]
    rfl
  | none =>
    cases hfile : Text.stripPrefix "file://" s with
    | none =>
      rw [hoci, hfile] at h
      cases h
    | some rest =>
      simp only [hoci, hfile, Result.bind_ok] at h
      obtain ⟨file, hrest, hr⟩ := h
      cases hr
      have hscheme : Text.stripPrefix "oci://" ("file://" ++ file.path) = none := by
        simp [Text.stripPrefix, Text.startsWith, String.toList_append]
      simp only [parse, locator, FileReference.locator, hscheme, Text.stripPrefix_append,
        FileReference.parseRest_path hrest]
      rfl

theorem parse_locator_port :
    parse ("oci://localhost:5000/fixtures/rt:v2" ++ "@" ++ sampleDigest) =
      .ok (.oci ⟨"localhost:5000", "fixtures/rt", some "v2", some sampleDigest⟩) ∧
    parse (RemoteReference.oci
      ⟨"localhost:5000", "fixtures/rt", some "v2", some sampleDigest⟩).locator =
      .ok (.oci ⟨"localhost:5000", "fixtures/rt", some "v2", some sampleDigest⟩) := by
  have hparse : parse ("oci://localhost:5000/fixtures/rt:v2" ++ "@" ++ sampleDigest) =
      .ok (.oci ⟨"localhost:5000", "fixtures/rt", some "v2", some sampleDigest⟩) := by
    decide
  exact ⟨hparse, parse_locator hparse⟩

example : parse "file:///C:/dist/out" = .ok (.file ⟨"C:/dist/out"⟩) := by decide

end RemoteReference

end OpenStrata
