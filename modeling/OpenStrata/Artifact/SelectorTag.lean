import Mathlib.Data.List.DropRight
import OpenStrata.Artifact.Reference
import OpenStrata.Core.Ascii
import OpenStrata.Platform.SelectorCanonical

/-!
# Selectors as tags

A selector is published as an annotation that is read back as a tag. The selector of the
current schema normalises its readable part and cuts it to the length that a tag has room for;
the one of the first schema takes the platform as it is.

## Main definitions

* `isTagChar`: the characters of a tag
* `IsTagPrefix`: what stands before the hash of a valid selector
* `ResolvedOpenUsdCompatibility.FitsTag`: a readable part that a tag has room for as it is

## Main results

* `isTagPrefix_tagPrefix`: a normalised readable part is one
* `isValidOciTag_selector_iff`: when a selector is a valid tag
* `selector_canonical_iff`: when it is one that depends on its identity as sets
-/

namespace OpenStrata

/-- A character that a tag may have after its first. -/
def isTagChar (c : Char) : Bool := c.isAlphanum || c == '.' || c == '_' || c == '-'

/-- The readable part of a valid selector: it starts as a tag does, and leaves room for a dash
and a hash. -/
def IsTagPrefix (cs : List Char) : Prop :=
  ∃ first rest, cs = first :: rest ∧ (first.isAlphanum || first == '_') ∧ rest.all isTagChar ∧
    cs.length ≤ 63

section Hash

variable {hash : String} {codec : Codec} {identity : Json}

theorem isTagChar_of_lowerHex {c : Char} (h : Text.isLowerHexDigit c) : isTagChar c := by
  have halphanum : c.isAlphanum := by
    simp only [Text.isLowerHexDigit, Bool.or_eq_true, Bool.and_eq_true, decide_eq_true_eq] at h
    rw [Char.isAlphanum, Ascii.isAlpha_eq, Bool.or_eq_true, Bool.or_eq_true]
    rcases h with hdigit | ⟨hlow, hhigh⟩
    · exact .inr hdigit
    · refine .inl (.inr ?_)
      rw [Ascii.isLower_eq, Bool.and_eq_true, decide_eq_true_eq, decide_eq_true_eq]
      exact ⟨hlow, Nat.le_trans hhigh (by decide)⟩
  rw [isTagChar, halphanum]
  rfl

theorem length_selectorHash (hsha : ∀ b, (codec.sha256 b).length = 32) :
    (ResolvedOpenUsdCompatibility.selectorHash codec identity).length = 64 := by
  rw [ResolvedOpenUsdCompatibility.selectorHash, length_renderHex, hsha]

theorem all_isTagChar_selectorHash :
    (ResolvedOpenUsdCompatibility.selectorHash codec identity).toList.all isTagChar :=
  Text.all_imp (fun _ => isTagChar_of_lowerHex) (all_lower_renderHex _)

/-- A readable part and a hash make a valid tag exactly when the readable part leaves room. -/
theorem isValidOciTag_append_iff {body : String} (hlength : hash.length = 64)
    (hall : hash.toList.all isTagChar) (hbody : body ≠ "") :
    isValidOciTag (body ++ "-" ++ hash) ↔ IsTagPrefix body.toList := by
  cases hcs : body.toList with
  | nil => exact absurd (String.toList_eq_nil_iff.mp hcs) hbody
  | cons first rest =>
    have htotal : (body ++ "-" ++ hash).length = (first :: rest).length + 65 := by
      rw [String.length_append, String.length_append, hlength, ← String.length_toList (s := body),
        hcs]
      rfl
    have hlist : (body ++ "-" ++ hash).toList = first :: (rest ++ '-' :: hash.toList) := by
      simp [String.toList_append, hcs]
    have hrest : ((rest ++ '-' :: hash.toList).all fun c =>
        c.isAlphanum || c == '.' || c == '_' || c == '-') = rest.all isTagChar := by
      show (rest ++ '-' :: hash.toList).all isTagChar = _
      rw [List.all_append, List.all_cons, hall]
      simp [isTagChar]
    rw [isValidOciTag, hlist]
    simp only [hrest, htotal, Bool.and_eq_true, decide_eq_true_eq]
    constructor
    · rintro ⟨⟨hlen, hfirst⟩, hall⟩
      exact ⟨first, rest, rfl, hfirst, hall, by omega⟩
    · rintro ⟨first', rest', heq, hfirst, hall, hlen⟩
      cases heq
      exact ⟨⟨by omega, hfirst⟩, hall⟩

end Hash

/-! ## The normalised readable part -/

section Normalized

variable {c : Char} {cs : List Char} {previousSeparator : Bool}

theorem isAlphanum_toLower (h : c.isAlphanum) : c.toLower.isAlphanum := by
  by_cases hupper : c.val ≥ 'A'.val ∧ c.val ≤ 'Z'.val
  · rw [Char.isAlphanum, Ascii.isAlpha_eq, Bool.or_eq_true, Bool.or_eq_true]
    refine .inl (.inr ?_)
    rw [Ascii.isLower_eq, Ascii.val_toLower hupper]
    obtain ⟨hlow, hhigh⟩ := hupper
    simp only [Bool.and_eq_true, decide_eq_true_eq, ge_iff_le, UInt32.le_iff_toNat_le,
      UInt32.toNat_add] at hlow hhigh ⊢
    have hA : ('A'.val).toNat = 65 := rfl
    have hZ : ('Z'.val).toNat = 90 := rfl
    have ha : ('a'.val).toNat = 97 := rfl
    have hz : ('z'.val).toNat = 122 := rfl
    have hshift : ('a'.val - 'A'.val).toNat = 32 := rfl
    omega
  · rwa [Ascii.toLower_of_not hupper]

/-- A normalised text has tag characters only. -/
theorem all_isTagChar_normalizeTag : (normalizeTag previousSeparator cs).all isTagChar := by
  induction cs generalizing previousSeparator with
  | nil => rfl
  | cons ch rest ih =>
    have hch : isTagChar (if (ch.isAlphanum || ch == '.' || ch == '_' || ch == '-') = true
        then ch.toLower else '-') := by
      split
      · next h =>
        simp only [Bool.or_eq_true, beq_iff_eq] at h
        rcases h with ((halphanum | rfl) | rfl) | rfl
        · rw [isTagChar, isAlphanum_toLower halphanum]
          rfl
        · decide
        · decide
        · decide
      · decide
    simp only [normalizeTag]
    generalize (if (ch.isAlphanum || ch == '.' || ch == '_' || ch == '-') = true
        then ch.toLower else '-') = normalized at hch ⊢
    split
    · exact ih
    · rw [List.all_cons, hch, ih]
      rfl

theorem isAlphanum_of_not_separator (h : isTagChar c) (hsep : isTagSeparator c = false) :
    c.isAlphanum := by
  simp only [isTagSeparator, Bool.or_eq_false_iff] at hsep
  simpa [isTagChar, hsep.1.1, hsep.1.2, hsep.2] using h

/-- A text whose first character is no separator keeps it when the last ones are dropped. -/
theorem reverse_dropWhile_reverse {p : Char → Bool} {first : Char} (rest : List Char)
    (h : p first = false) : ∃ rest', ((first :: rest).reverse.dropWhile p).reverse = first :: rest' ∧
      rest' <+: rest := by
  rw [← List.rdropWhile]
  obtain ⟨tail, htail⟩ := List.rdropWhile_prefix p (first :: rest)
  cases hdrop : List.rdropWhile p (first :: rest) with
  | nil =>
    rw [List.rdropWhile_eq_nil_iff] at hdrop
    rw [hdrop first (List.mem_cons_self ..)] at h
    cases h
  | cons a rest' =>
    rw [hdrop, List.cons_append] at htail
    obtain ⟨rfl, heq⟩ := List.cons.inj htail
    exact ⟨rest', rfl, tail, heq⟩

/-- Trimming separators leaves nothing, or a text that starts with none. -/
theorem trimSeparators_cases (cs : List Char) : trimSeparators cs = [] ∨
    ∃ first rest, trimSeparators cs = first :: rest ∧ isTagSeparator first = false ∧
      ∀ c ∈ first :: rest, c ∈ cs := by
  unfold trimSeparators
  cases hdrop : cs.dropWhile isTagSeparator with
  | nil => exact .inl rfl
  | cons first rest =>
    have hfirst : isTagSeparator first = false := by
      have h := List.head_dropWhile_not isTagSeparator (l := cs) (by simp [hdrop])
      simpa [hdrop] using h
    obtain ⟨rest', heq, hinit⟩ := reverse_dropWhile_reverse rest hfirst
    refine .inr ⟨first, rest', heq, hfirst, fun c hc => ?_⟩
    apply (List.dropWhile_sublist isTagSeparator).subset
    rw [hdrop]
    rcases List.mem_cons.mp hc with rfl | hc
    · exact List.mem_cons_self ..
    · exact List.mem_cons_of_mem _ (hinit.subset hc)

/-- A normalised readable part stands before the hash of a valid selector. -/
theorem isTagPrefix_tagPrefix (readable : String) : IsTagPrefix (tagPrefix readable).toList := by
  have hcut : ∀ first rest, isTagSeparator first = false → (first :: rest).all isTagChar →
      IsTagPrefix (((first :: rest).take 63).reverse.dropWhile isTagSeparator).reverse := by
    intro first rest hfirst hall
    rw [List.take_succ_cons]
    obtain ⟨rest', heq, hinit⟩ := reverse_dropWhile_reverse (rest.take 62) hfirst
    rw [List.all_cons, Bool.and_eq_true] at hall
    refine ⟨first, rest', heq, ?_, ?_, ?_⟩
    · rw [isAlphanum_of_not_separator hall.1 hfirst]
      rfl
    · rw [List.all_eq_true] at hall ⊢
      exact fun c hc => hall.2 c (List.mem_of_mem_take (hinit.subset hc))
    · rw [heq, List.length_cons]
      have hlen := hinit.length_le
      rw [List.length_take] at hlen
      omega
  rw [tagPrefix, String.toList_ofList]
  rcases trimSeparators_cases (normalizeTag false readable.toList) with
    hnil | ⟨first, rest, htrim, hfirst, hmem⟩
  · rw [hnil, if_pos (by rfl)]
    exact hcut _ _ (by decide) (by decide)
  · rw [htrim, if_neg (by simp)]
    refine hcut first rest hfirst (List.all_eq_true.mpr fun c hc => ?_)
    exact List.all_eq_true.mp all_isTagChar_normalizeTag c (hmem c hc)

end Normalized

/-! ## Valid selectors -/

namespace ResolvedOpenUsdCompatibility

variable {codec : Codec} {c : ResolvedOpenUsdCompatibility} {target version selector : String}
  {source : Option ResolvedSourceIdentity} {dependencies : List ResolvedDependencyIdentity}
  {variant : OpenUsdVariantId}

/-- The readable part as it is stands before the hash of a valid selector when the platform has
tag characters only and it is short enough. -/
theorem isTagPrefix_readable_iff : IsTagPrefix (c.readable variant).toList ↔
    Text.all isTagChar c.platform ∧ (c.readable variant).length ≤ 63 := by
  have hos : c.os.asStr.toList.all isTagChar := by cases c.os <;> decide
  have harch : c.arch.asStr.toList.all isTagChar := by cases c.arch <;> decide
  have hvariant : variant.asStr.toList.all isTagChar := by cases variant <;> decide
  have hlist : (c.readable variant).toList =
      'o' :: ("penusd-" ++ c.platform ++ "-" ++ c.os.asStr ++ "-" ++ c.arch.asStr ++ "-" ++
        variant.asStr).toList := by
    simp [readable, String.toList_append]
  have hall : ("penusd-" ++ c.platform ++ "-" ++ c.os.asStr ++ "-" ++ c.arch.asStr ++ "-" ++
      variant.asStr).toList.all isTagChar = Text.all isTagChar c.platform := by
    have hstart : "penusd-".toList.all isTagChar := by decide
    have hdash : "-".toList.all isTagChar := by decide
    simp only [String.toList_append, List.all_append, hos, harch, hvariant, hstart, hdash,
      Bool.and_true, Bool.true_and]
    rfl
  have hlen : (c.readable variant).toList.length = (c.readable variant).length :=
    String.length_toList
  constructor
  · rintro ⟨first, rest, heq, -, hrest, hlength⟩
    rw [hlist] at heq
    cases heq
    exact ⟨hall ▸ hrest, hlen ▸ hlength⟩
  · rintro ⟨hplatform, hlength⟩
    exact ⟨_, _, hlist, by decide, hall ▸ hplatform, hlen ▸ hlength⟩

theorem readable_ne_empty : c.readable variant ≠ "" := by
  intro h
  have hlist := congrArg String.toList h
  simp [readable, String.toList_append] at hlist

/-- A selector is a valid tag, unless it is one of the first schema whose platform is no tag
text or too long. -/
theorem isValidOciTag_selector_iff (hsha : ∀ b, (codec.sha256 b).length = 32)
    (h : c.selector codec target version source dependencies = some selector) :
    isValidOciTag selector ↔ (c.schema = 1 →
      Text.all isTagChar c.platform ∧ (c.readable c.variant).length ≤ 63) := by
  unfold ResolvedOpenUsdCompatibility.selector at h
  split at h
  · next hschema =>
    unfold legacySelector at h
    split at h
    · cases h
    · cases h
      rw [isValidOciTag_append_iff (length_selectorHash hsha) all_isTagChar_selectorHash
        readable_ne_empty, isTagPrefix_readable_iff]
      exact ⟨fun hvalid _ => hvalid, fun hvalid => hvalid hschema⟩
  · next hschema =>
    split at h
    · cases h
    · simp only [Option.bind_eq_bind, Option.bind_eq_some_iff] at h
      obtain ⟨variant, -, producerVersion, -, h⟩ := h
      split at h
      · cases h
      · simp only [Option.bind_eq_some_iff] at h
        obtain ⟨profile, -, constraint, -, h⟩ := h
        rw [← Option.some.inj h]
        have hleads := isTagPrefix_tagPrefix (c.readable variant)
        have hne : tagPrefix (c.readable variant) ≠ "" := by
          intro hempty
          obtain ⟨first, rest, heq, -⟩ := hleads
          rw [hempty] at heq
          cases heq
        rw [isValidOciTag_append_iff (length_selectorHash hsha) all_isTagChar_selectorHash hne]
        exact ⟨fun _ hone => absurd hone hschema, fun _ => hleads⟩

/-- The readable part is a tag text as it is, and leaves room for a dash and a hash. -/
def FitsTag (c : ResolvedOpenUsdCompatibility) : Prop :=
  Text.all isTagChar c.platform ∧ (c.readable c.variant).length ≤ 63

theorem isValidOciTag_legacySelector_iff (hsha : ∀ b, (codec.sha256 b).length = 32)
    (h : c.legacySelector codec target version source dependencies = some selector) :
    isValidOciTag selector ↔ c.FitsTag := by
  unfold legacySelector at h
  split at h
  · cases h
  · cases h
    rw [isValidOciTag_append_iff (length_selectorHash hsha) all_isTagChar_selectorHash
      readable_ne_empty, isTagPrefix_readable_iff, FitsTag]

/-- A way to select, as a function of the capabilities and the dependencies, gives a valid tag and
gives it for all lists that have the same elements. -/
structure IsCanonicalTag (select : List String → List ResolvedDependencyIdentity → Option String)
    (capabilities : List String) (dependencies : List ResolvedDependencyIdentity)
    (selector : String) : Prop where
  valid : isValidOciTag selector
  unchanged : ∀ capabilities' dependencies', (∀ x, x ∈ capabilities' ↔ x ∈ capabilities) →
    (∀ d, d ∈ dependencies' ↔ d ∈ dependencies) →
      select capabilities' dependencies' = some selector

/-- **Selectors.** A selector is a valid tag that is unchanged when capabilities and dependencies
are permuted or repeated, unless it is one of the first schema whose platform is no tag text or
too long. -/
theorem selector_canonical_iff (hsha : ∀ b, (codec.sha256 b).length = 32) :
    (∀ selector, c.selector codec target version source dependencies = some selector →
      (IsCanonicalTag (fun capabilities' dependencies' =>
          ({ c with capabilities := capabilities' } : ResolvedOpenUsdCompatibility).selector codec
            target version source dependencies') c.capabilities dependencies selector ↔
        (c.schema = 1 → c.FitsTag))) ∧
    ∀ selector, c.legacySelector codec target version source dependencies = some selector →
      (IsCanonicalTag (fun capabilities' dependencies' =>
          ({ c with capabilities := capabilities' } : ResolvedOpenUsdCompatibility).legacySelector
            codec target version source dependencies') c.capabilities dependencies selector ↔
        c.FitsTag) := by
  constructor
  · intro selector h
    constructor
    · exact fun hcanonical => (isValidOciTag_selector_iff hsha h).mp hcanonical.valid
    · refine fun hfits => ⟨(isValidOciTag_selector_iff hsha h).mpr hfits, ?_⟩
      intro capabilities' dependencies' hcapabilities hdependencies
      rw [selector_eq_of_mem_iff hcapabilities hdependencies, h]
  · intro selector h
    constructor
    · exact fun hcanonical => (isValidOciTag_legacySelector_iff hsha h).mp hcanonical.valid
    · refine fun hfits => ⟨(isValidOciTag_legacySelector_iff hsha h).mpr hfits, ?_⟩
      intro capabilities' dependencies' hcapabilities hdependencies
      rw [legacySelector_eq_of_mem_iff hcapabilities hdependencies, h]

end ResolvedOpenUsdCompatibility

/-! ## A platform with a blank -/

namespace SelectorTag.Sample

def provider (family version : String) : ResolvedOpenUsdProvider :=
  ⟨family, "system", some version, version⟩

/-- An identity of the first schema. -/
def spaced : ResolvedOpenUsdCompatibility where
  schema := 1
  platform := "cy 2026"
  profile := none
  os := .linux
  arch := .x86_64
  toolchain := ⟨"gcc", "system", some "11", "11", "17", provider "libstdcxx" "11"⟩
  python := provider "cpython" "3"
  tbb := provider "onetbb" "2021"
  variant := .core
  capabilities := []
  producerOpenusdVersion := none
  consumerOpenusdConstraint := none
  macos := none

/-- SHA-256 on the identity that is hashed for the sample. -/
def codec : Codec where
  sha256 _ := bytesOfHex
    "c27e4350a1f9b16d35eb90ffdfb53105e2b254692e302babdda5cb43e51fee04".toList
  parse _ := none

theorem length_sha256 (bytes : Bytes) : (codec.sha256 bytes).length = 32 := by
  show (bytesOfHex _).length = 32
  decide

end SelectorTag.Sample

open ResolvedOpenUsdCompatibility SelectorTag.Sample in
theorem selector_canonical_iff_sample :
    ∃ selector, spaced.selector codec "linux" "26" none [] = some selector ∧
      (IsCanonicalTag (fun capabilities' dependencies' =>
          ({ spaced with capabilities := capabilities' } :
            ResolvedOpenUsdCompatibility).selector codec "linux" "26" none dependencies')
          [] [] selector ↔ (spaced.schema = 1 → spaced.FitsTag)) := by
  have hsha : ∀ b, (codec.sha256 b).length = 32 := length_sha256
  have hsome : (spaced.selector codec "linux" "26" none []).isSome := by
    decide
  obtain ⟨selector, hselector⟩ := Option.isSome_iff_exists.mp hsome
  exact ⟨selector, hselector, (selector_canonical_iff hsha).1 selector hselector⟩

open ResolvedOpenUsdCompatibility SelectorTag.Sample in
/-- The selector of a schema-1 identity keeps a blank of its platform. -/
theorem spaced_selector_not_tag :
    ∃ selector, spaced.selector codec "linux" "26" none [] = some selector ∧
      isValidOciTag selector = false := by
  have hsha : ∀ b, (codec.sha256 b).length = 32 := length_sha256
  have hsome : (spaced.selector codec "linux" "26" none []).isSome := by
    decide
  obtain ⟨selector, hselector⟩ := Option.isSome_iff_exists.mp hsome
  refine ⟨selector, hselector, Bool.eq_false_iff.mpr fun hvalid => ?_⟩
  have hplatform := ((isValidOciTag_selector_iff hsha hselector).mp hvalid rfl).1
  have hblank : Text.all isTagChar spaced.platform = false := by decide
  rw [hblank] at hplatform
  cases hplatform

end OpenStrata
