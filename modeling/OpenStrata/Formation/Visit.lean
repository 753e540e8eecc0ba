import Mathlib.Algebra.Order.BigOperators.Group.List
import OpenStrata.Formation.Composition

/-!
# What one iteration of the resolver does

The inversion lemma of `visit`, from which the invariants of the worklist follow, and the
measure that bounds its iterations.

## Main definitions

* `RuntimeComposition.Accepts`: a requirement agrees with a provider and the version it provides

## Main results

* `RuntimeComposition.visit_cases`: everything a successful iteration can do
* `RuntimeComposition.pending_visit`: an iteration appends no more than it takes from the measure
* `RuntimeComposition.drained_of_resolveSelection`: a successful resolver has emptied its worklist
-/

namespace OpenStrata.RuntimeComposition

open Std (ExtTreeMap)
open SortBy (sortBy)

/-- A requirement agrees with a provider: the version lies in its range, and every pin that
applies to the capability names the provider. -/
structure Accepts (declared : RuntimeCompositionManifest) (requirement : CapabilityRequirement)
    (provider version : String) : Prop where
  version_ok : ∀ range, requirement.version = some range →
    Version.satisfies version range = .ok true
  local_pin : ∀ pin, requirement.provider = some pin → pin = provider
  global_pin : ∀ pin, declared.providers[requirement.capability]? = some pin → pin = provider

section

variable {declared : RuntimeCompositionManifest} {candidates : List Candidate}
  {requirement : CapabilityRequirement} {pin : Option String}

theorem versionSatisfies_ok {version range : String} {b : Bool} :
    versionSatisfies version range = .ok b ↔ Version.satisfies version range = .ok b := by
  unfold versionSatisfies
  cases Version.satisfies version range <;> simp

/-- The pin that applies is the local one and the global one, where there are any. -/
theorem pinOf_ok (h : pinOf declared requirement = .ok pin) :
    (∀ p, requirement.provider = some p → pin = some p) ∧
      ∀ p, declared.providers[requirement.capability]? = some p → pin = some p := by
  unfold pinOf at h
  split at h
  · next l g hl hg =>
    split_ifs at h with hne
    obtain rfl : l = g := not_not.mp hne
    cases h
    exact ⟨fun p hp => hp ▸ hl.symm, fun p hp => hp ▸ hg.symm⟩
  · next hnot =>
    cases h
    refine ⟨fun p hp => by rw [hp]; rfl, fun p hp => ?_⟩
    cases hl : requirement.provider with
    | none => rw [hp]; rfl
    | some l => exact (hnot l p hl hp).elim

theorem accepts_of_pin {provider version : String} (hpin : pinOf declared requirement = .ok pin)
    (heq : ∀ p, pin = some p → p = provider)
    (hversion : ∀ range, requirement.version = some range →
      Version.satisfies version range = .ok true) :
    Accepts declared requirement provider version := by
  obtain ⟨hlocal, hglobal⟩ := pinOf_ok hpin
  exact ⟨hversion, fun p hp => heq p (hlocal p hp), fun p hp => heq p (hglobal p hp)⟩

theorem requireVersion_ok {version provider : String} {u : Unit} :
    requireVersion requirement version provider = .ok u ↔
      ∀ range, requirement.version = some range →
        Version.satisfies version range = .ok true := by
  unfold requireVersion
  cases hr : requirement.version with
  | none => simp
  | some range =>
    simp only [Result.bind_ok, versionSatisfies_ok, Result.failIf_ok, not_not]
    constructor
    · rintro ⟨b, hb, rfl⟩ _ ⟨⟩
      exact hb
    · intro h
      exact ⟨true, h range rfl, rfl⟩

theorem checkSelected_ok {provider : Candidate} {version : String} {u : Unit} :
    checkSelected requirement pin provider version = .ok u ↔
      (∀ p, pin = some p → p = provider.contract.id) ∧
        ∀ range, requirement.version = some range →
          Version.satisfies version range = .ok true := by
  simp only [checkSelected, Result.bind_ok, Result.failIf_ok, requireVersion_ok]
  cases pin with
  | none => simp
  | some p => simp

theorem acceptsVersion_ok {version : String} :
    acceptsVersion requirement version = .ok true ↔
      ∀ range, requirement.version = some range →
        Version.satisfies version range = .ok true := by
  unfold acceptsVersion
  cases requirement.version <;> simp [versionSatisfies_ok]

/-- A compatible provider was offered, is the pinned one and provides a version in range. -/
theorem compatibleProviders_ok {offered compatible : List (Candidate × CapabilityProvision)}
    (h : compatibleProviders requirement pin offered = .ok compatible) :
    ∀ x ∈ compatible, x ∈ offered ∧ (∀ p, pin = some p → p = x.1.contract.id) ∧
      ∀ range, requirement.version = some range →
        Version.satisfies x.2.version range = .ok true := by
  induction offered generalizing compatible with
  | nil =>
    cases h
    simp
  | cons head rest ih =>
    obtain ⟨c, p⟩ := head
    unfold compatibleProviders at h
    split_ifs at h with hpin
    · intro x hx
      obtain ⟨hmem, hrest⟩ := ih h x hx
      exact ⟨List.mem_cons_of_mem _ hmem, hrest⟩
    · have hpin' : ∀ q, pin = some q → q = c.contract.id := by
        intro q hq
        by_contra hne
        exact hpin (by simp [hq, hne])
      simp only [Result.bind_ok] at h
      obtain ⟨b, hb, tail, htail, hret⟩ := h
      have hold := ih htail
      have hcompat : compatible = if b then (c, p) :: tail else tail := by
        cases hret
        rfl
      intro x hx
      rw [hcompat] at hx
      split_ifs at hx with hbt
      · rcases List.mem_cons.mp hx with rfl | hx
        · exact ⟨List.mem_cons_self, hpin', acceptsVersion_ok.mp (hbt ▸ hb)⟩
        · obtain ⟨hmem, hrest⟩ := hold x hx
          exact ⟨List.mem_cons_of_mem _ hmem, hrest⟩
      · obtain ⟨hmem, hrest⟩ := hold x hx
        exact ⟨List.mem_cons_of_mem _ hmem, hrest⟩

theorem mem_byCapability {capability : String} {x : Candidate × CapabilityProvision}
    (h : x ∈ (byCapability candidates)[capability]?.getD []) :
    x.1 ∈ candidates ∧ x.2 ∈ x.1.contract.provides ∧ x.2.capability = capability := by
  cases hg : (byCapability candidates)[capability]? with
  | none => simp [hg] at h
  | some group =>
    rw [hg, Option.getD_some] at h
    obtain ⟨hmem, hcap⟩ := TreeMap.mem_of_getElem?_groupBy hg h
    obtain ⟨c, hc, hx⟩ := List.mem_flatMap.mp hmem
    obtain ⟨p, hp, rfl⟩ := List.mem_map.mp hx
    exact ⟨hc, hp, hcap⟩

theorem targetCompatibleProviders_ok {target : String}
    {providers matching : List (Candidate × CapabilityProvision)}
    (h : targetCompatibleProviders target requirement pin providers = .ok matching) :
    matching = providers.filter fun p => targetMatches target p.1 := by
  simp only [targetCompatibleProviders, Result.bind_ok] at h
  obtain ⟨-, -, -, -, -, -, hret⟩ := h
  cases hret
  rfl

theorem pickProvider_ok {compatible : List (Candidate × CapabilityProvision)}
    {x : Candidate × CapabilityProvision} (h : pickProvider requirement pin compatible = .ok x) :
    x ∈ compatible := by
  cases compatible with
  | nil => cases h
  | cons first others =>
    simp only [pickProvider, Result.bind_ok] at h
    obtain ⟨-, -, hret⟩ := h
    obtain rfl := Except.ok.inj hret
    cases hs : sortBy offerKey (first :: others) with
    | nil => exact List.mem_cons_self
    | cons a l =>
      have ha : a ∈ sortBy offerKey (first :: others) := hs ▸ List.mem_cons_self
      exact SortBy.mem_sortBy.mp ha

/-- A chosen provider is a candidate for the target that provides the capability, is the
pinned one, and provides a version in range. -/
theorem chooseProvider_ok {x : Candidate × CapabilityProvision}
    (h : chooseProvider declared candidates requirement pin = .ok x) :
    x.1 ∈ candidates ∧ x.2 ∈ x.1.contract.provides ∧ x.2.capability = requirement.capability ∧
      targetMatches declared.composition.target x.1 ∧
      (∀ p, pin = some p → p = x.1.contract.id) ∧
      ∀ range, requirement.version = some range →
        Version.satisfies x.2.version range = .ok true := by
  simp only [chooseProvider, Result.bind_ok] at h
  obtain ⟨matching, hmatching, compatible, hcompat, hpick⟩ := h
  obtain ⟨hoffer, hpin, hversion⟩ := compatibleProviders_ok hcompat x (pickProvider_ok hpick)
  rw [targetCompatibleProviders_ok hmatching, List.mem_filter] at hoffer
  obtain ⟨hc, hp, hcap⟩ := mem_byCapability hoffer.1
  exact ⟨hc, hp, hcap, hoffer.2, hpin, hversion⟩

/-- Everything a successful iteration can do: confirm the provider chosen before, or choose
one. -/
theorem visit_cases {s s₁ : Selection} {consumer : Option String} {pushed : List Demand}
    (h : visit declared candidates s (consumer, requirement) = .ok (s₁, pushed)) :
    validateRequirement requirement = .ok () ∧
      ((∃ provider version,
          s.selectedProvider[requirement.capability]? = some (provider, version) ∧
          Accepts declared requirement provider.contract.id version ∧
          s₁ = s.addEdge provider.contract.id consumer ∧ pushed = []) ∨
        (s.selectedProvider[requirement.capability]? = none ∧
          ∃ provider ∈ candidates, ∃ provision ∈ provider.contract.provides,
            provision.capability = requirement.capability ∧
            targetMatches declared.composition.target provider ∧
            Accepts declared requirement provider.contract.id provision.version ∧
            (s₁, pushed) = select s consumer requirement.capability provider provision)) := by
  simp only [visit, Result.bind_ok] at h
  obtain ⟨⟨⟩, hvalid, pin, hpin, h⟩ := h
  refine ⟨hvalid, ?_⟩
  split at h
  · next provider version hsel =>
    simp only [Result.bind_ok, checkSelected_ok] at h
    obtain ⟨⟨⟩, ⟨heq, hversion⟩, hret⟩ := h
    cases hret
    exact Or.inl ⟨provider, version, hsel, accepts_of_pin hpin heq hversion, rfl, rfl⟩
  · next hsel =>
    simp only [Result.bind_ok] at h
    obtain ⟨⟨provider, provision⟩, hchoose, hret⟩ := h
    obtain ⟨hc, hp, hcap, htarget, heq, hversion⟩ := chooseProvider_ok hchoose
    refine Or.inr ⟨hsel, provider, hc, provision, hp, hcap, htarget,
      accepts_of_pin hpin heq hversion, ?_⟩
    cases hret
    rfl

end

/-! ## The selection after an iteration -/

section Select

variable {s : Selection} {consumer : Option String} {capability : String} {provider : Candidate}
  {provision : CapabilityProvision}

@[simp] theorem Selection.addEdge_selected (id : String) :
    (s.addEdge id consumer).selected = s.selected := by
  cases consumer <;> rfl

@[simp] theorem Selection.addEdge_selectedProvider (id : String) :
    (s.addEdge id consumer).selectedProvider = s.selectedProvider := by
  cases consumer <;> rfl

theorem Selection.mem_addEdge {id : String} {e : String × String} :
    e ∈ (s.addEdge id consumer).edges ↔ e ∈ s.edges ∨ ∃ k, consumer = some k ∧ e = (id, k) := by
  cases consumer with
  | none => simp [addEdge]
  | some k => simp [addEdge, or_comm]

theorem Selection.nodup_addEdge {id : String} (h : s.edges.Nodup) :
    (s.addEdge id consumer).edges.Nodup := by
  cases consumer with
  | none => exact h
  | some k => exact h.insert

@[simp] theorem select_selected :
    (select s consumer capability provider provision).1.selected =
      s.selected.insert provider.contract.id provider := by
  simp [select]

@[simp] theorem select_selectedProvider :
    (select s consumer capability provider provision).1.selectedProvider =
      s.selectedProvider.insert capability (provider, provision.version) := by
  simp [select]

theorem mem_select_edges {e : String × String} :
    e ∈ (select s consumer capability provider provision).1.edges ↔
      e ∈ s.edges ∨ ∃ k, consumer = some k ∧ e = (provider.contract.id, k) := by
  simp [select, Selection.mem_addEdge]

theorem select_pushed :
    (select s consumer capability provider provision).2 =
      if s.selected[provider.contract.id]?.isNone then demandsOf provider else [] := rfl

theorem mem_demandsOf {d : Demand} :
    d ∈ demandsOf provider ↔
      d.1 = some provider.contract.id ∧ d.2 ∈ provider.contract.requires := by
  obtain ⟨consumer, requirement⟩ := d
  simp only [demandsOf, List.mem_map, SortBy.mem_sortBy, Prod.mk.injEq]
  constructor
  · rintro ⟨q, hq, rfl, rfl⟩
    exact ⟨rfl, hq⟩
  · rintro ⟨rfl, hq⟩
    exact ⟨requirement, hq, rfl, rfl⟩

end Select

/-! ## The measure of the worklist -/

section Measure

variable {declared : RuntimeCompositionManifest} {candidates : List Candidate}

theorem sum_map_add_le {α : Type} {f g : α → Nat} {l : List α} (hle : ∀ a, f a ≤ g a) {a : α}
    (ha : a ∈ l) {d : Nat} (hd : f a + d ≤ g a) : (l.map f).sum + d ≤ (l.map g).sum := by
  induction l with
  | nil => cases ha
  | cons b l ih =>
    simp only [List.map_cons, List.sum_cons]
    rcases List.mem_cons.mp ha with rfl | ha
    · have : (l.map f).sum ≤ (l.map g).sum := List.sum_le_sum fun b _ => hle b
      omega
    · have := ih ha
      have := hle b
      omega

/-- Selecting a candidate takes its own requirements off the measure, if it is new. -/
theorem pending_insert {s s₁ : Selection} {provider : Candidate} (hmem : provider ∈ candidates)
    (hs₁ : s₁.selected = s.selected.insert provider.contract.id provider) :
    pending candidates s₁ +
      (if s.selected[provider.contract.id]?.isNone then provider.contract.requires.length else 0)
        ≤ pending candidates s := by
  refine sum_map_add_le (fun c => ?_) hmem ?_
  · unfold pendingOf
    rw [hs₁, ExtTreeMap.getElem?_insert]
    by_cases hid : provider.contract.id = c.contract.id
    · simp [hid]
    · simp [hid]
  · simp [pendingOf, hs₁]

/-- An iteration appends no more requirements than it takes off the measure. -/
theorem pending_visit (s : Selection) (d : Demand) (s₁ : Selection) (pushed : List Demand)
    (h : visit declared candidates s d = .ok (s₁, pushed)) :
    pending candidates s₁ + pushed.length ≤ pending candidates s := by
  obtain ⟨-, ⟨provider, version, -, -, rfl, rfl⟩ |
    ⟨-, provider, hc, provision, -, -, -, -, hsel⟩⟩ := visit_cases h
  · have hsame : pendingOf (s.addEdge provider.contract.id d.1) = pendingOf s := by
      funext c
      simp [pendingOf]
    simp [pending, hsame]
  · have hs₁ : s₁.selected = s.selected.insert provider.contract.id provider := by
      have := congrArg (·.1.selected) hsel
      simpa using this
    have hpushed : pushed = (select s d.1 d.2.capability provider provision).2 :=
      congrArg Prod.snd hsel
    rw [hpushed, select_pushed]
    have := pending_insert hc hs₁
    split_ifs at this ⊢ with hnew
    · simpa [demandsOf] using this
    · exact this

/-- A successful resolver has emptied its worklist. -/
theorem drained_of_resolveSelection {s : Selection}
    (h : resolveSelection declared candidates = .ok s) :
    Worklist.Drained (visit declared candidates) .empty (initialDemands declared) s := by
  simp only [resolveSelection, Result.bind_ok] at h
  obtain ⟨loop, hloop, hs⟩ := h
  cases hs
  exact (Worklist.drained_of_drain (l := ⟨initialDemands declared, .empty⟩) pending_visit
    le_rfl hloop).2

end Measure

end OpenStrata.RuntimeComposition
