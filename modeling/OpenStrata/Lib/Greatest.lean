import Mathlib.Order.Bounds.Basic
import Mathlib.Order.MinMax

/-!
# The greatest of what was seen

A search that keeps the greatest value it has seen, and nothing while it has seen none. Two
searches keep the same value when each value one of them saw is bounded by a value of the other.

## Main results

* `Greatest.IsMax.absorb`, `Greatest.IsMax.foldl`: the set of values one more step has seen
* `Greatest.IsMax.unique`: the value that is kept depends on the set of values only
* `Greatest.IsMax.eq_iff_of_subset`: a search that saw more keeps the same value exactly when
  nothing it saw exceeds what the other saw
-/

namespace Greatest

variable {α : Type*}

/-- The greatest element of a set, and none of the empty set. -/
def IsMax [Preorder α] (kept : Option α) (s : Set α) : Prop :=
  match kept with
  | none => s = ∅
  | some a => IsGreatest s a

section Preorder

variable [Preorder α] {kept : Option α} {s : Set α} {a : α}

@[simp] theorem isMax_none : IsMax (none : Option α) s ↔ s = ∅ := Iff.rfl

@[simp] theorem isMax_some : IsMax (some a) s ↔ IsGreatest s a := Iff.rfl

theorem IsMax.mem (h : IsMax (some a) s) : a ∈ s := h.1

/-- Every value seen is bounded by the one that is kept. -/
theorem IsMax.exists_le (h : IsMax kept s) (ha : a ∈ s) : ∃ b, kept = some b ∧ a ≤ b := by
  cases kept with
  | none =>
    rw [isMax_none] at h
    rw [h] at ha
    exact absurd ha (Set.notMem_empty a)
  | some b => exact ⟨b, rfl, h.2 ha⟩

end Preorder

theorem IsMax.unique [PartialOrder α] {first second : Option α} {s : Set α}
    (hfirst : IsMax first s) (hsecond : IsMax second s) : first = second := by
  cases first with
  | none =>
    cases second with
    | none => rfl
    | some b =>
      rw [isMax_none] at hfirst
      exact absurd (hfirst ▸ hsecond.mem) (Set.notMem_empty b)
  | some a =>
    cases second with
    | none =>
      rw [isMax_none] at hsecond
      exact absurd (hsecond ▸ hfirst.mem) (Set.notMem_empty a)
    | some b => exact congrArg some (IsGreatest.unique hfirst hsecond)

section LinearOrder

variable [LinearOrder α] {kept less : Option α} {s t : Set α}

/-- One more value is seen. -/
def absorb (kept : Option α) (a : α) : Option α := some (kept.elim a (max · a))

theorem IsMax.absorb (h : IsMax kept s) (a : α) : IsMax (absorb kept a) (insert a s) := by
  cases kept with
  | none =>
    rw [isMax_none] at h
    rw [h]
    exact ⟨Set.mem_insert a ∅, fun b hb => by
      rw [Set.mem_insert_iff] at hb
      exact hb.elim le_of_eq fun hempty => absurd hempty (Set.notMem_empty b)⟩
  | some m =>
    refine ⟨?_, fun b hb => ?_⟩
    · rcases max_choice m a with hmax | hmax
      · show max m a ∈ insert a s
        rw [hmax]
        exact Set.mem_insert_of_mem a h.mem
      · show max m a ∈ insert a s
        rw [hmax]
        exact Set.mem_insert a s
    · rcases Set.mem_insert_iff.mp hb with rfl | hb
      · exact le_max_right m b
      · exact (h.2 hb).trans (le_max_left m a)

/-- A run whose steps see one set of values each sees them all. -/
theorem IsMax.foldl {ι : Type*} {step : Option α → ι → Option α} {seen : ι → Set α}
    (hstep : ∀ kept s i, IsMax kept s → IsMax (step kept i) (seen i ∪ s)) (h : IsMax kept s)
    (l : List ι) : IsMax (l.foldl step kept) ({a | ∃ i ∈ l, a ∈ seen i} ∪ s) := by
  induction l generalizing kept s with
  | nil =>
    have hnone : {a | ∃ i ∈ ([] : List ι), a ∈ seen i} = ∅ := by
      ext a
      simp
    rwa [hnone, Set.empty_union]
  | cons i l ih =>
    have hrun := ih (hstep kept s i h)
    rw [List.foldl_cons]
    have hseen : {a | ∃ j ∈ i :: l, a ∈ seen j} ∪ s =
        {a | ∃ j ∈ l, a ∈ seen j} ∪ (seen i ∪ s) := by
      ext a
      simp only [Set.mem_union, Set.mem_ofPred_eq, List.mem_cons, exists_eq_or_imp]
      rw [or_assoc, or_left_comm]
    rw [hseen]
    exact hrun

/-- The one that saw more keeps the same value exactly when nothing it saw exceeds the rest. -/
theorem IsMax.eq_iff_of_subset (hless : IsMax less s) (hkept : IsMax kept t) (hsub : s ⊆ t) :
    kept = less ↔ ∀ a ∈ t, ∃ b ∈ s, a ≤ b := by
  constructor
  · rintro rfl a ha
    obtain ⟨b, rfl, hle⟩ := hkept.exists_le ha
    exact ⟨b, hless.mem, hle⟩
  · intro hbound
    cases kept with
    | none =>
      rw [isMax_none] at hkept
      rw [hkept, Set.subset_empty_iff] at hsub
      rw [hsub] at hless
      exact IsMax.unique (isMax_none.mpr rfl) hless
    | some m =>
      obtain ⟨b, hb, hmb⟩ := hbound m hkept.mem
      -- the greatest of all is bounded by something the smaller set has, so it is one of it
      have hm : m = b := le_antisymm hmb (hkept.2 (hsub hb))
      exact IsMax.unique (s := s) ⟨hm ▸ hb, fun a ha => hkept.2 (hsub ha)⟩ hless

end LinearOrder

end Greatest
