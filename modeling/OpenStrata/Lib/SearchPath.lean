import Mathlib.Data.List.Basic
import Mathlib.Data.List.Infix

/-!
# Search paths

A search path is a list of entries that is looked through from the front, so a repeated entry is
never reached. Two search paths are the same for a search when they agree up to entries that
occur again.

## Main definitions

* `Same`: agreement up to repeated later entries

## Main results

* `Same.append`: the same before the same
* `same_flatMap`: entries may be expanded before or after repetitions are dropped
* `Same.filter`: the entries of a kind agree when all do
-/

namespace SearchPath

variable {α β : Type*} [DecidableEq α] [DecidableEq β] {as as' bs bs' cs : List α}

/-- The same entries in the order of their first occurrences. -/
def Same (as bs : List α) : Prop := as.eraseDups = bs.eraseDups

instance : Decidable (Same as bs) := inferInstanceAs (Decidable (_ = _))

theorem Same.refl (as : List α) : Same as as := rfl

theorem Same.of_eq (h : as = bs) : Same as bs := h ▸ Same.refl as

theorem Same.symm (h : Same as bs) : Same bs as := Eq.symm h

theorem Same.trans (h : Same as bs) (h' : Same bs cs) : Same as cs := Eq.trans h h'

theorem Same.mem_iff (h : Same as bs) {a : α} : a ∈ as ↔ a ∈ bs := by
  rw [← List.mem_eraseDups, h, List.mem_eraseDups]

theorem eraseDups_filter (p : α → Bool) (as : List α) :
    (as.filter p).eraseDups = as.eraseDups.filter p := by
  match as with
  | [] => rfl
  | a :: as =>
    have hlt : (as.filter fun b => !b == a).length < as.length + 1 :=
      Nat.lt_succ_of_le (List.length_filter_le _ as)
    have hrest := eraseDups_filter p (as.filter fun b => !b == a)
    rw [List.filter_filter] at hrest
    by_cases ha : p a
    · rw [List.filter_cons_of_pos ha, List.eraseDups_cons, List.eraseDups_cons,
        List.filter_cons_of_pos ha, ← hrest, List.filter_filter]
      simp only [Bool.and_comm]
    · -- what stands before the occurrences of a dropped entry is kept as it is
      rw [List.filter_cons_of_neg ha, List.eraseDups_cons, List.filter_cons_of_neg ha, ← hrest]
      congr 1
      refine List.filter_congr fun b _ => ?_
      by_cases hb : b = a
      · simp [hb, ha]
      · simp [hb]
termination_by as.length

theorem eraseDups_append (as bs : List α) :
    (as ++ bs).eraseDups = as.eraseDups ++ bs.eraseDups.filter fun b => !as.contains b := by
  rw [List.eraseDups_append, ← eraseDups_filter]
  rfl

theorem Same.append (ha : Same as as') (hb : Same bs bs') : Same (as ++ bs) (as' ++ bs') := by
  rw [Same, eraseDups_append, eraseDups_append, ha, hb]
  congr 1
  refine List.filter_congr fun b _ => ?_
  simp [ha.mem_iff]

/-- Expanding an entry again after it was expanded adds nothing. -/
theorem filter_flatMap_repeated (f : α → List β) (a : α) (as : List α) :
    (as.flatMap f).filter (fun b => !(f a).contains b) =
      ((as.filter fun b => !b == a).flatMap f).filter fun b => !(f a).contains b := by
  induction as with
  | nil => rfl
  | cons c as ih =>
    rw [List.flatMap_cons, List.filter_append, ih]
    by_cases hc : c = a
    · have hnone : (f a).filter (fun b => !(f a).contains b) = [] := by
        rw [List.filter_eq_nil_iff]
        intro b hb
        simp [hb]
      rw [hc, hnone, List.filter_cons_of_neg (by simp), List.nil_append]
    · rw [List.filter_cons_of_pos (by simp [hc]), List.flatMap_cons, List.filter_append]

theorem same_flatMap (f : α → List β) (as : List α) :
    Same (as.flatMap f) (as.eraseDups.flatMap f) := by
  match as with
  | [] => rfl
  | a :: as =>
    have hlt : (as.filter fun b => !b == a).length < as.length + 1 :=
      Nat.lt_succ_of_le (List.length_filter_le _ as)
    have hrest := same_flatMap f (as.filter fun b => !b == a)
    refine Same.trans ?_ (Same.append (Same.refl (f a)) hrest |>.trans (.of_eq ?_))
    · rw [List.flatMap_cons, Same, eraseDups_append, eraseDups_append, ← eraseDups_filter,
        ← eraseDups_filter, filter_flatMap_repeated]
    · rw [List.eraseDups_cons, List.flatMap_cons]
termination_by as.length

theorem Same.flatMap (h : Same as bs) (f : α → List β) : Same (as.flatMap f) (bs.flatMap f) := by
  refine (same_flatMap f as).trans (Same.trans (.of_eq ?_) (same_flatMap f bs).symm)
  rw [h]

theorem same_map (f : α → β) (as : List α) : Same (as.map f) (as.eraseDups.map f) := by
  rw [List.map_eq_flatMap, List.map_eq_flatMap]
  exact same_flatMap _ as

end SearchPath
