import Mathlib.Data.Prod.Lex
import Mathlib.Data.String.Basic
import Mathlib.Order.WithBot
import OpenStrata.Lib.SortBy
import OpenStrata.Platform.Selector

/-!
# Selectors of equal sets

A selector hashes the capabilities and the dependencies of an identity sorted and without
repetitions, and whatever else it reads of them is whether some or all have a property. It depends
on them as sets.

## Main definitions

* `ResolvedDependencyIdentity.key`: the derived order of dependency identities as a key

## Main results

* `ResolvedDependencyIdentity.le_iff`: dependency identities are ordered by their keys
* `selector_eq_of_mem_iff`, `legacySelector_eq_of_mem_iff`: identities with the same capabilities
  and dependencies have one selector
-/

namespace OpenStrata

/-- The derived order as a key: field by field, an absent digest first. -/
def ResolvedDependencyIdentity.key (d : ResolvedDependencyIdentity) :
    String ×ₗ String ×ₗ String ×ₗ String ×ₗ WithBot String :=
  toLex (d.name, toLex (d.version, toLex (d.source.repository,
    toLex (d.source.revision, d.archiveDigest))))

section Key

theorem isLE_then_compare {α β : Type} [LinearOrder α] [LinearOrder β] {a b : α} {c d : β}
    {o : Ordering} (h : o.isLE ↔ c ≤ d) :
    ((compare a b).then o).isLE ↔ toLex (a, c) ≤ toLex (b, d) := by
  rw [Ordering.isLE_then_iff_or, Prod.Lex.toLex_le_toLex, compare_lt_iff_lt, compare_eq_iff_eq, h]

theorem isLE_compare_toList (a b : Option String) :
    (compare a.toList b.toList).isLE ↔ (show WithBot String from a) ≤ b := by
  cases a with
  | none =>
    have hnone : (compare ([] : List String) b.toList).isLE := by
      cases b <;> rfl
    exact iff_of_true hnone bot_le
  | some x =>
    cases b with
    | none =>
      have hsome : ¬ (compare [x] ([] : List String)).isLE := Bool.false_ne_true
      exact iff_of_false hsome (WithBot.not_coe_le_bot x)
    | some y =>
      have hsingle : compare [x] [y] = compare x y := by
        rw [List.compare_cons_cons, List.compare_nil_nil, Ordering.then_eq]
      refine Iff.trans ?_ WithBot.coe_le_coe.symm
      rw [Option.toList_some, Option.toList_some, hsingle, Ordering.isLE_iff_ne_gt,
        ← ne_eq, compare_le_iff_le]

theorem ResolvedDependencyIdentity.le_iff {a b : ResolvedDependencyIdentity} :
    a.le b ↔ a.key ≤ b.key := by
  unfold ResolvedDependencyIdentity.le ResolvedDependencyIdentity.key
  exact isLE_then_compare <| isLE_then_compare <| isLE_then_compare <| isLE_then_compare <|
    isLE_compare_toList _ _

theorem ResolvedDependencyIdentity.key_injective :
    Function.Injective ResolvedDependencyIdentity.key := by
  rintro ⟨name, version, ⟨repository, revision⟩, digest⟩ ⟨_, _, ⟨_, _⟩, _⟩ h
  cases h
  rfl

end Key

namespace ResolvedOpenUsdCompatibility

/-! ## Sets of capabilities and dependencies -/

section Sets

variable {c : ResolvedOpenUsdCompatibility} {capabilities : List String}
  {dependencies dependencies' : List ResolvedDependencyIdentity}

theorem sortedCapabilities_eq (h : ∀ x, x ∈ capabilities ↔ x ∈ c.capabilities) :
    ({ c with capabilities := capabilities } : ResolvedOpenUsdCompatibility).sortedCapabilities =
      c.sortedCapabilities := by
  have hinj : ∀ a ∈ capabilities, ∀ b ∈ capabilities, id a = id b → a = b :=
    fun _ _ _ _ heq => heq
  exact SortBy.destutter_sortBy_eq h hinj

theorem insertionSort_le (l : List ResolvedDependencyIdentity) :
    l.insertionSort (·.le ·) = SortBy.sortBy ResolvedDependencyIdentity.key l := by
  simp only [SortBy.sortBy, ← ResolvedDependencyIdentity.le_iff]

theorem sortedDependencies_eq (h : ∀ d, d ∈ dependencies' ↔ d ∈ dependencies) :
    sortedDependencies dependencies' = sortedDependencies dependencies := by
  rw [sortedDependencies, sortedDependencies, insertionSort_le, insertionSort_le,
    SortBy.destutter_sortBy_eq h fun _ _ _ _ heq => ResolvedDependencyIdentity.key_injective heq]

theorem all_eq_of_mem_iff {α : Type} {p : α → Bool} {l l' : List α} (h : ∀ x, x ∈ l' ↔ x ∈ l) :
    l'.all p = l.all p := by
  rw [Bool.eq_iff_iff, List.all_eq_true, List.all_eq_true]
  exact forall_congr' fun x => by rw [h]

theorem canonical_eq (variant : OpenUsdVariantId) (h : ∀ x, x ∈ capabilities ↔ x ∈ c.capabilities) :
    variant.canonical capabilities = variant.canonical c.capabilities := by
  unfold OpenUsdVariantId.canonical
  rw [all_eq_of_mem_iff h]

theorem selectorInputsVerified_eq (target version : String) (source : Option ResolvedSourceIdentity)
    (h : ∀ d, d ∈ dependencies' ↔ d ∈ dependencies) :
    selectorInputsVerified target version source dependencies' =
      selectorInputsVerified target version source dependencies := by
  rw [selectorInputsVerified, selectorInputsVerified, all_eq_of_mem_iff h]

end Sets

/-! ## Selectors -/

section Selectors

variable {codec : Codec} {c : ResolvedOpenUsdCompatibility} {target version : String}
  {source : Option ResolvedSourceIdentity} {capabilities : List String}
  {dependencies dependencies' : List ResolvedDependencyIdentity}

/-- A selector of the first schema depends on capabilities and dependencies as sets. -/
theorem legacySelector_eq_of_mem_iff (hcapabilities : ∀ x, x ∈ capabilities ↔ x ∈ c.capabilities)
    (hdependencies : ∀ d, d ∈ dependencies' ↔ d ∈ dependencies) :
    ({ c with capabilities := capabilities } : ResolvedOpenUsdCompatibility).legacySelector codec
      target version source dependencies' =
      c.legacySelector codec target version source dependencies := by
  have hgate : ({ c with capabilities := capabilities } :
      ResolvedOpenUsdCompatibility).providersAreVerified = c.providersAreVerified := rfl
  unfold legacySelector
  rw [hgate, selectorInputsVerified_eq target version source hdependencies,
    sortedCapabilities_eq hcapabilities, sortedDependencies_eq hdependencies]
  rfl

/-- A selector depends on capabilities and dependencies as sets. -/
theorem selector_eq_of_mem_iff (hcapabilities : ∀ x, x ∈ capabilities ↔ x ∈ c.capabilities)
    (hdependencies : ∀ d, d ∈ dependencies' ↔ d ∈ dependencies) :
    ({ c with capabilities := capabilities } : ResolvedOpenUsdCompatibility).selector codec
      target version source dependencies' =
      c.selector codec target version source dependencies := by
  have hvariant := canonical_eq c.variant hcapabilities
  have hgate : ({ c with capabilities := capabilities } :
      ResolvedOpenUsdCompatibility).isVerified = c.isVerified := by
    unfold isVerified
    simp only [hvariant]
    rfl
  unfold selector
  rw [legacySelector_eq_of_mem_iff hcapabilities hdependencies, hgate,
    selectorInputsVerified_eq target version source hdependencies,
    sortedCapabilities_eq hcapabilities, sortedDependencies_eq hdependencies]
  simp only [hvariant]
  rfl

end Selectors

end ResolvedOpenUsdCompatibility

end OpenStrata
