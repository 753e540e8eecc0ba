import Std.Data.ExtTreeMap
import Mathlib.Data.List.Induction
import Mathlib.Data.List.Nodup
import Mathlib.Data.List.Perm.Subperm

/-!
# Ordered maps

What the ordered maps of the standard library are used for beyond their own lemmas: their
values in key order, and the grouping of a list by a key.

## Main definitions

* `TreeMap.values`: the values in key order
* `TreeMap.groupBy`: the elements of a list under their keys, in list order
* `TreeMap.lastValue`: the value a list of entries last gives a key

## Main results

* `TreeMap.getElem?_groupBy`: a group is the sublist of its key
* `TreeMap.groupBy_congr`: lists that agree under each key group alike
* `TreeMap.perm_groupBy`: the groups together are the list
* `TreeMap.getElem?_foldl_insert`: inserting entries in order leaves the last value of each key
-/

namespace TreeMap

open Std

variable {κ α β γ : Type*} [Ord κ] [TransOrd κ] [LawfulEqOrd κ]

/-- The values of a map, in the order of their keys. -/
def values (m : ExtTreeMap κ β) : List β := m.toList.map (·.2)

@[simp] theorem mem_values {m : ExtTreeMap κ β} {b : β} :
    b ∈ values m ↔ ∃ k : κ, m[k]? = some b := by
  simp [values]

omit [LawfulEqOrd κ] in
@[simp] theorem values_map {m : ExtTreeMap κ β} {f : β → γ} :
    values (m.map fun _ => f) = (values m).map f := by
  simp [values]

@[simp] theorem map_insert {m : ExtTreeMap κ β} {f : β → γ} {k : κ} {b : β} :
    (m.insert k b).map (fun _ => f) = (m.map fun _ => f).insert k (f b) := by
  ext1 k'
  rw [ExtTreeMap.getElem?_map, ExtTreeMap.getElem?_insert, ExtTreeMap.getElem?_insert,
    ExtTreeMap.getElem?_map]
  split <;> rfl

theorem getElem?_insert_of_ne {m : ExtTreeMap κ β} {k k' : κ} {b : β} (h : k ≠ k') :
    (m.insert k b)[k']? = m[k']? := by
  rw [ExtTreeMap.getElem?_insert, if_neg (by simpa using h)]

/-- A map has one entry under each of its keys. -/
theorem filter_toList [DecidableEq κ] (m : ExtTreeMap κ β) (k : κ) :
    (m.toList.filter fun e => e.1 = k) = m[k]?.toList.map fun b => (k, b) := by
  have hnodup : m.toList.Nodup := by
    have hkeys := m.nodup_keys
    rw [← ExtTreeMap.map_fst_toList_eq_keys] at hkeys
    exact List.Nodup.of_map _ hkeys
  cases hk : m[k]? with
  | none =>
    refine List.filter_eq_nil_iff.mpr ?_
    rintro ⟨k', b⟩ hmem
    rw [ExtTreeMap.mem_toList_iff_getElem?_eq_some] at hmem
    simp only [decide_eq_true_eq]
    rintro rfl
    rw [hk] at hmem
    cases hmem
  | some b =>
    refine List.perm_singleton.mp ((List.perm_ext_iff_of_nodup (hnodup.filter _)
      (List.nodup_singleton _)).mpr ?_)
    rintro ⟨k', b'⟩
    simp only [List.mem_filter, ExtTreeMap.mem_toList_iff_getElem?_eq_some, decide_eq_true_eq,
      List.mem_singleton, Prod.mk.injEq]
    constructor
    · rintro ⟨hmem, rfl⟩
      rw [hk] at hmem
      exact ⟨rfl, (Option.some.inj hmem).symm⟩
    · rintro ⟨rfl, rfl⟩
      exact ⟨hk, rfl⟩

/-- Group the elements of a list under their keys. -/
def groupBy (key : α → κ) (l : List α) : ExtTreeMap κ (List α) :=
  l.foldl (fun m a => m.alter (key a) fun group => some (group.getD [] ++ [a])) ∅

section GroupBy

variable [DecidableEq κ] {key : α → κ}

/-- What is added to each group of a map. -/
theorem getElem?_foldl_alter (l : List α) (m : ExtTreeMap κ (List α)) (k : κ) :
    (l.foldl (fun m a => m.alter (key a) fun group => some (group.getD [] ++ [a])) m)[k]? =
      if l.filter (key · = k) = [] then m[k]?
      else some (m[k]?.getD [] ++ l.filter (key · = k)) := by
  induction l generalizing m with
  | nil => simp
  | cons a l ih =>
    rw [List.foldl_cons, ih, ExtTreeMap.getElem?_alter]
    by_cases ha : key a = k
    · subst ha
      by_cases hl : l.filter (key · = key a) = []
      · simp [hl]
      · simp [hl]
    · simp [ha]

/-- A group is the sublist of the elements of its key. -/
theorem getElem?_groupBy (l : List α) (k : κ) :
    (groupBy key l)[k]? =
      if l.filter (key · = k) = [] then none else some (l.filter (key · = k)) := by
  rw [groupBy, getElem?_foldl_alter]
  simp

/-- Lists that agree under each key group alike. -/
theorem groupBy_congr {l l' : List α}
    (h : ∀ k, l.filter (key · = k) = l'.filter (key · = k)) :
    groupBy key l = groupBy key l' := by
  ext1 k
  rw [getElem?_groupBy, getElem?_groupBy, h]

/-- The members of a group have its key and stand in the list. -/
theorem mem_of_getElem?_groupBy {l group : List α} {k : κ} (h : (groupBy key l)[k]? = some group)
    {a : α} (ha : a ∈ group) : a ∈ l ∧ key a = k := by
  rw [getElem?_groupBy] at h
  split_ifs at h with hl
  cases h
  simpa using ha

theorem flatMap_filter (p : β → Bool) (f : β → List γ) (l : List β) :
    (l.filter p).flatMap f = l.flatMap fun b => if p b then f b else [] := by
  induction l with
  | nil => rfl
  | cons b l ih =>
    by_cases hb : p b
    · simp [hb, ih]
    · simp [hb, ih]

theorem key_of_mem_toList_groupBy {l : List α} {e : κ × List α}
    (h : e ∈ (groupBy key l).toList) {a : α} (ha : a ∈ e.2) : key a = e.1 :=
  (mem_of_getElem?_groupBy (ExtTreeMap.mem_toList_iff_getElem?_eq_some.mp h) ha).2

/-- The groups together are the list. -/
theorem perm_groupBy [DecidableEq α] (l : List α) :
    ((groupBy key l).toList.flatMap (·.2)).Perm l := by
  refine List.perm_iff_count.mpr fun a => ?_
  -- only the group of the element's own key counts
  have hkey : ∀ m : List α, m.count a = (m.filter (key · = key a)).count a := fun m =>
    (List.count_filter (p := (key · = key a)) (by simp)).symm
  have hgroup : ((groupBy key l).toList.flatMap (·.2)).filter (key · = key a) =
      ((groupBy key l).toList.filter fun e => e.1 = key a).flatMap (·.2) := by
    rw [List.filter_flatMap, flatMap_filter]
    refine List.flatMap_congr fun e he => ?_
    by_cases heq : e.1 = key a
    · rw [if_pos (by simpa using heq), List.filter_eq_self]
      intro b hb
      simpa [heq] using key_of_mem_toList_groupBy he hb
    · rw [if_neg (by simpa using heq), List.filter_eq_nil_iff]
      intro b hb
      simpa [key_of_mem_toList_groupBy he hb] using heq
  rw [hkey, hgroup, hkey l, filter_toList, getElem?_groupBy]
  by_cases hnil : l.filter (key · = key a) = []
  · simp [hnil]
  · simp [hnil]

end GroupBy

section LastValue

variable [BEq κ]

/-- The value that a list of entries last gives a key. -/
def lastValue (entries : List (κ × β)) (k : κ) : Option β :=
  ((entries.filter (·.1 == k)).map (·.2)).getLast?

omit [Ord κ] [TransOrd κ] [LawfulEqOrd κ] in
theorem lastValue_append (before after : List (κ × β)) (k : κ) :
    lastValue (before ++ after) k = (lastValue after k).or (lastValue before k) := by
  rw [lastValue, List.filter_append, List.map_append, List.getLast?_append]
  rfl

/-- A map built by inserting entries in order holds the last value of every key. -/
theorem getElem?_foldl_insert [LawfulBEq κ] (entries : List (κ × β)) (k : κ) :
    (entries.foldl (fun m e => m.insert e.1 e.2) (∅ : ExtTreeMap κ β))[k]? =
      lastValue entries k := by
  induction entries using List.reverseRecOn with
  | nil => simp [lastValue]
  | append_singleton entries e ih =>
    rw [List.foldl_append, lastValue_append]
    by_cases h : e.1 = k
    · subst h
      simp [lastValue]
    · have hb : (e.1 == k) = false := by simpa using h
      rw [List.foldl_cons, List.foldl_nil, getElem?_insert_of_ne h, ih]
      simp [lastValue, hb]

end LastValue

/-- Two keys make a map of more than one entry. -/
theorem one_lt_size {m : ExtTreeMap κ β} {a b : κ} (ha : a ∈ m) (hb : b ∈ m) (hne : a ≠ b) :
    1 < m.size := by
  have hsub : [a, b] ⊆ m.keys := by
    intro k hk
    rw [ExtTreeMap.mem_keys]
    rcases List.mem_pair.mp hk with rfl | rfl
    · exact ha
    · exact hb
  have hnodup : [a, b].Nodup := by simpa using hne
  have hlength := (List.subperm_of_subset hnodup hsub).length_le
  rw [ExtTreeMap.length_keys] at hlength
  exact hlength

end TreeMap
