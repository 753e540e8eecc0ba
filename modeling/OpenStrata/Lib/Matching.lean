import Mathlib.Combinatorics.Hall.Basic
import Mathlib.Data.Fintype.EquivFin
import Mathlib.Data.List.FinRange
import Mathlib.Data.List.Forall2

/-!
# One-to-one correspondences of lists

Two lists correspond under a relation when one of them can be reordered so that the elements at
each place are related. Lists of equal length do exactly when any of the elements of the first are
related to at least as many elements of the second.

## Main definitions

* `Matching.Corresponds`: the correspondence of two lists

## Main results

* `Matching.corresponds_iff`: the marriage theorem for lists
-/

namespace Matching

variable {α β : Type*} {R : α → β → Bool} {as some : List α} {bs : List β}

/-- The elements of two lists are related one to one. -/
def Corresponds (R : α → β → Bool) (as : List α) (bs : List β) : Prop :=
  ∃ bs' : List β, bs'.Perm bs ∧ List.Forall₂ (fun a b => R a b) as bs'

theorem exists_sublist_of_forall₂ {P : α → β → Prop} (hsub : some.Sublist as)
    (h : List.Forall₂ P as bs) : ∃ part : List β, part.Sublist bs ∧ List.Forall₂ P some part := by
  induction hsub generalizing bs with
  | slnil => exact ⟨[], List.nil_sublist _, .nil⟩
  | cons a hsub ih =>
    obtain ⟨b, bs, -, hrest, rfl⟩ := List.forall₂_cons_left_iff.mp h
    obtain ⟨part, hpart, hrelated⟩ := ih hrest
    exact ⟨part, hpart.cons b, hrelated⟩
  | cons_cons a hsub ih =>
    obtain ⟨b, bs, hab, hrest, rfl⟩ := List.forall₂_cons_left_iff.mp h
    obtain ⟨part, hpart, hrelated⟩ := ih hrest
    exact ⟨b :: part, hpart.cons_cons b, .cons hab hrelated⟩

/-- A correspondence relates any of the elements to as many others. -/
theorem Corresponds.length_le (h : Corresponds R as bs) (hsub : some.Sublist as) :
    some.length ≤ (bs.filter fun b => some.any (R · b)).length := by
  obtain ⟨bs', hperm, hrelated⟩ := h
  obtain ⟨part, hpart, hsome⟩ := exists_sublist_of_forall₂ hsub hrelated
  have hfilter : part.filter (fun b => some.any (R · b)) = part := by
    rw [List.filter_eq_self]
    intro b hb
    obtain ⟨i, hi, rfl⟩ := List.getElem_of_mem hb
    have hlength := hsome.length_eq
    rw [List.any_eq_true]
    exact ⟨some[i], List.getElem_mem _, hsome.get (by omega) hi⟩
  calc some.length = part.length := hsome.length_eq
    _ = (part.filter fun b => some.any (R · b)).length := by rw [hfilter]
    _ ≤ (bs'.filter fun b => some.any (R · b)).length := (hpart.filter _).length_le
    _ = (bs.filter fun b => some.any (R · b)).length := (hperm.filter _).length_eq

theorem length_filter_finRange {n : ℕ} (p : Fin n → Bool) :
    ((List.finRange n).filter p).length = (Finset.univ.filter fun i => p i).card := by
  rw [← List.toFinset_card_of_nodup ((List.nodup_finRange n).filter p)]
  congr 1
  ext i
  simp

theorem length_filter_get (p : β → Bool) (bs : List β) :
    (bs.filter p).length = (Finset.univ.filter fun j => p (bs.get j)).card := by
  conv_lhs => rw [← List.map_get_finRange bs]
  rw [List.filter_map, List.length_map, length_filter_finRange]
  rfl

/-- **The marriage theorem** for lists of equal length. -/
theorem corresponds_iff (hlength : as.length = bs.length) :
    Corresponds R as bs ↔
      ∀ some : List α, some.Sublist as →
        some.length ≤ (bs.filter fun b => some.any (R · b)).length := by
  refine ⟨fun h some hsub => h.length_le hsub, fun h => ?_⟩
  have hhall : ∀ A : Finset (Fin as.length), A.card ≤
      (Finset.univ.filter fun j => ∃ i ∈ A, R (as.get i) (bs.get j)).card := by
    intro A
    have hsub : (((List.finRange as.length).filter (· ∈ A)).map as.get).Sublist as := by
      conv_rhs => rw [← List.map_get_finRange as]
      exact List.filter_sublist.map _
    have hle := h _ hsub
    rw [length_filter_get, List.length_map] at hle
    have hcard : ((List.finRange as.length).filter (· ∈ A)).length = A.card := by
      rw [length_filter_finRange]
      simp
    rw [hcard] at hle
    simpa using hle
  obtain ⟨f, hinjective, hrelated⟩ :=
    (Fintype.all_card_le_filter_rel_iff_exists_injective
      fun i j => (R (as.get i) (bs.get j) : Prop)).mp fun A => by convert hhall A
  have hbijective : Function.Bijective f :=
    (Fintype.bijective_iff_injective_and_card f).mpr ⟨hinjective, by simp [hlength]⟩
  refine ⟨((List.finRange as.length).map f).map bs.get, ?_, ?_⟩
  · conv_rhs => rw [← List.map_get_finRange bs]
    refine List.Perm.map _ ?_
    rw [List.perm_ext_iff_of_nodup ((List.nodup_finRange _).map hinjective)
      (List.nodup_finRange _)]
    intro j
    simp [hbijective.surjective j]
  · have hself : List.Forall₂ (fun a b => R a b) ((List.finRange as.length).map as.get)
        (((List.finRange as.length).map f).map bs.get) := by
      simp only [List.forall₂_map_left_iff, List.forall₂_map_right_iff, List.forall₂_same]
      exact fun i _ => hrelated i
    rwa [List.map_get_finRange] at hself

end Matching
