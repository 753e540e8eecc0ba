import Mathlib.Data.List.Pairwise
import Mathlib.Order.Lattice

/-!
# Maps as lists in key order

A map is a list of pairs in the order of its keys. Inserting a key replaces the value it had, or
puts the pair where its key belongs.

## Main definitions

* `insert`, `insertAll`: insert a pair, and the pairs of a list in order
* `Ordered`: the keys strictly ascend

## Main results

* `lookup_insert`, `lookup_insertAll`, `lookup_map`: what is looked up afterwards
* `insert_insert`: the last insertion of a key counts
* `mem_insertAll_of_agree`: pairs that agree on a value for each key are all there
* `Ordered.ext`: a map is given by its pairs
* `filter_insertAll`: what is inserted and filtered out again leaves no trace
-/

namespace KeyMap

variable {κ ν : Type} [LinearOrder κ] {key k : κ} {value v : ν} {m items : List (κ × ν)}

/-- Insert or replace a pair. -/
def insert (key : κ) (value : ν) : List (κ × ν) → List (κ × ν)
  | [] => [(key, value)]
  | (k, v) :: m =>
    if k = key then (key, value) :: m
    else if key < k then (key, value) :: (k, v) :: m
    else (k, v) :: insert key value m

/-- Insert the pairs of a list in order. -/
def insertAll (items m : List (κ × ν)) : List (κ × ν) :=
  items.foldl (fun m item => insert item.1 item.2 m) m

/-- The keys strictly ascend. -/
def Ordered (m : List (κ × ν)) : Prop := m.Pairwise (·.1 < ·.1)

@[simp]
theorem insert_nil : insert key value [] = [(key, value)] := rfl

theorem insert_cons : insert key value ((k, v) :: m) =
    if k = key then (key, value) :: m
    else if key < k then (key, value) :: (k, v) :: m
    else (k, v) :: insert key value m := rfl

/-! ## Lookups -/

theorem lookup_cons :
    ((key, value) :: m).lookup k = if k = key then some value else m.lookup k := by
  rw [List.lookup_cons]
  by_cases h : k = key
  · rw [beq_iff_eq.mpr h, if_pos h]
  · rw [beq_eq_false_iff_ne.mpr h, if_neg h]

theorem mem_of_lookup (h : m.lookup k = some v) : (k, v) ∈ m := by
  obtain ⟨before, after, rfl, -⟩ := List.lookup_eq_some_iff.mp h
  simp

theorem lookup_of_mem (hm : (m.map (·.1)).Nodup) (h : (k, v) ∈ m) : m.lookup k = some v := by
  induction m with
  | nil => cases h
  | cons item m ih =>
    obtain ⟨j, w⟩ := item
    obtain ⟨hj, hm⟩ := List.nodup_cons.mp hm
    rw [lookup_cons]
    rcases List.mem_cons.mp h with heq | hrest
    · obtain ⟨rfl, rfl⟩ := Prod.mk.inj heq
      exact if_pos rfl
    · have hne : k ≠ j := by
        rintro rfl
        exact hj (List.mem_map.mpr ⟨_, hrest, rfl⟩)
      rw [if_neg hne, ih hm hrest]

/-- Values that are replaced, key by key. -/
theorem lookup_map {ω : Type} {f : κ → ν → ω} :
    (m.map fun item => (item.1, f item.1 item.2)).lookup k = (m.lookup k).map (f k) := by
  induction m with
  | nil => rfl
  | cons item m ih =>
    obtain ⟨j, w⟩ := item
    rw [List.map_cons, lookup_cons, lookup_cons]
    by_cases hk : k = j
    · rw [if_pos hk, if_pos hk, hk]
      rfl
    · rw [if_neg hk, if_neg hk, ih]

theorem lookup_insert :
    (insert key value m).lookup k = if k = key then some value else m.lookup k := by
  induction m with
  | nil => exact lookup_cons
  | cons item m ih =>
    obtain ⟨j, w⟩ := item
    rw [insert_cons]
    by_cases hj : j = key
    · rw [if_pos hj, lookup_cons, lookup_cons, hj]
      by_cases hk : k = key <;> simp only [hk, if_true, if_false]
    · rw [if_neg hj]
      by_cases hlt : key < j
      · rw [if_pos hlt, lookup_cons]
      · rw [if_neg hlt, lookup_cons, lookup_cons, ih]
        by_cases hk : k = key
        · rw [hk, if_neg (Ne.symm hj), if_pos rfl, if_pos rfl]
        · rw [if_neg hk, if_neg hk]

theorem insert_insert : insert key value (insert key v m) = insert key value m := by
  induction m with
  | nil => simp [insert_cons]
  | cons item m ih =>
    obtain ⟨j, w⟩ := item
    by_cases hj : j = key
    · simp [insert_cons, hj]
    · by_cases hlt : key < j
      · simp [insert_cons, hj, hlt]
      · simp [insert_cons, hj, hlt, ih]

/-- A key that is inserted and filtered out leaves no trace. -/
theorem filter_insert {p : κ × ν → Bool} (hp : p (key, value) = false)
    (hm : ∀ v, (key, v) ∈ m → p (key, v) = false) :
    (insert key value m).filter p = m.filter p := by
  induction m with
  | nil => simp [hp]
  | cons item m ih =>
    obtain ⟨j, w⟩ := item
    have htail : ∀ v, (key, v) ∈ m → p (key, v) = false := fun v hv =>
      hm v (List.mem_cons_of_mem _ hv)
    rw [insert_cons]
    split_ifs with hj hlt
    · subst hj
      rw [List.filter_cons_of_neg (by simp [hp]),
        List.filter_cons_of_neg (by simp [hm w List.mem_cons_self])]
    · rw [List.filter_cons_of_neg (by simp [hp])]
    · rw [List.filter_cons, List.filter_cons, ih htail]

/-! ## Key order -/

theorem mem_insert {item : κ × ν} (h : item ∈ insert key value m) :
    item = (key, value) ∨ item ∈ m := by
  induction m with
  | nil => exact .inl (List.mem_singleton.mp h)
  | cons item' m ih =>
    obtain ⟨j, w⟩ := item'
    rw [insert_cons] at h
    split_ifs at h with hj hlt
    · rcases List.mem_cons.mp h with h | h
      · exact .inl h
      · exact .inr (List.mem_cons_of_mem _ h)
    · exact List.mem_cons.mp h
    · rcases List.mem_cons.mp h with h | h
      · exact .inr (h ▸ List.mem_cons_self)
      · exact (ih h).imp_right (List.mem_cons_of_mem _)

theorem Ordered.insert (h : Ordered m) : Ordered (insert key value m) := by
  induction m with
  | nil => exact List.pairwise_singleton _ _
  | cons item m ih =>
    obtain ⟨j, w⟩ := item
    obtain ⟨hj, hm⟩ := List.pairwise_cons.mp h
    rw [insert_cons]
    split_ifs with heq hlt
    · exact List.pairwise_cons.mpr ⟨heq ▸ hj, hm⟩
    · refine List.pairwise_cons.mpr ⟨fun item hitem => ?_, h⟩
      rcases List.mem_cons.mp hitem with rfl | hitem
      · exact hlt
      · exact hlt.trans (hj item hitem)
    · refine List.pairwise_cons.mpr ⟨fun item hitem => ?_, ih hm⟩
      rcases mem_insert hitem with rfl | hitem
      · exact lt_of_le_of_ne (not_lt.mp hlt) heq
      · exact hj item hitem

theorem Ordered.insertAll (h : Ordered m) : Ordered (insertAll items m) := by
  induction items generalizing m with
  | nil => exact h
  | cons item items ih => exact ih h.insert

/-! ## Inserting a list -/

theorem mem_insertAll {item : κ × ν} (h : item ∈ insertAll items m) : item ∈ items ∨ item ∈ m := by
  induction items generalizing m with
  | nil => exact .inr h
  | cons first items ih =>
    rcases ih h with h | h
    · exact .inl (List.mem_cons_of_mem _ h)
    · rcases mem_insert h with rfl | h
      · exact .inl List.mem_cons_self
      · exact .inr h

/-- The inserted pairs, and where there is none the earlier ones. -/
theorem lookup_insertAll (h : Ordered items) :
    (insertAll items m).lookup k = (items.lookup k).or (m.lookup k) := by
  induction items generalizing m with
  | nil => rfl
  | cons item items ih =>
    obtain ⟨j, w⟩ := item
    obtain ⟨hj, hitems⟩ := List.pairwise_cons.mp h
    show (insertAll items (insert j w m)).lookup k = _
    rw [ih hitems, lookup_insert, lookup_cons]
    by_cases hk : k = j
    · subst hk
      have hnone : items.lookup k = none := by
        rw [List.lookup_eq_none_iff]
        intro item hitem
        simpa using (hj item hitem).ne
      simp [hnone]
    · simp [hk]

theorem filter_insertAll {p : κ × ν → Bool} (hitems : ∀ item ∈ items, p item = false)
    (hm : ∀ item ∈ items, ∀ v, (item.1, v) ∈ m → p (item.1, v) = false) :
    (insertAll items m).filter p = m.filter p := by
  induction items generalizing m with
  | nil => rfl
  | cons item items ih =>
    show (insertAll items (insert item.1 item.2 m)).filter p = _
    rw [ih fun item' h => hitems item' (List.mem_cons_of_mem _ h)]
    · exact filter_insert (hitems item List.mem_cons_self) (hm item List.mem_cons_self)
    · intro item' hitem' v hv
      rcases mem_insert hv with heq | hv
      · rw [heq]
        exact hitems item List.mem_cons_self
      · exact hm item' (List.mem_cons_of_mem _ hitem') v hv

/-! ## Pairs -/

theorem keys_insert : k ∈ (insert key value m).map (·.1) ↔ k = key ∨ k ∈ m.map (·.1) := by
  induction m with
  | nil => simp
  | cons item m ih =>
    obtain ⟨j, w⟩ := item
    rw [insert_cons]
    split_ifs with heq hlt
    · subst heq
      simp
    · simp
    · rw [List.map_cons, List.mem_cons, ih, List.map_cons, List.mem_cons]
      exact or_left_comm

theorem keys_insertAll :
    k ∈ (insertAll items m).map (·.1) ↔ k ∈ items.map (·.1) ∨ k ∈ m.map (·.1) := by
  induction items generalizing m with
  | nil => simp [insertAll]
  | cons item items ih =>
    have hcons : insertAll (item :: items) m = insertAll items (insert item.1 item.2 m) := rfl
    rw [hcons, ih, keys_insert, List.map_cons, List.mem_cons, or_left_comm, or_assoc]

/-- Pairs that agree on a value for each key are all there. -/
theorem mem_insertAll_of_agree {f : κ → Option ν} (hitems : ∀ item ∈ items, f item.1 = some item.2)
    (hm : ∀ item ∈ m, f item.1 = some item.2) {item : κ × ν} :
    item ∈ insertAll items m ↔ item ∈ items ∨ item ∈ m := by
  refine ⟨mem_insertAll, fun h => ?_⟩
  have hvalue : f item.1 = some item.2 := h.elim (hitems item) (hm item)
  have hkey : item.1 ∈ (insertAll items m).map (·.1) :=
    keys_insertAll.mpr (h.imp (fun h => List.mem_map.mpr ⟨item, h, rfl⟩)
      fun h => List.mem_map.mpr ⟨item, h, rfl⟩)
  obtain ⟨other, hother, heq⟩ := List.mem_map.mp hkey
  have hvalue' : f other.1 = some other.2 := (mem_insertAll hother).elim (hitems other) (hm other)
  rw [heq, hvalue] at hvalue'
  rwa [Prod.ext heq (Option.some.inj hvalue').symm] at hother

theorem Ordered.nodup (h : Ordered m) : (m.map (·.1)).Nodup :=
  List.pairwise_map.mpr (h.imp ne_of_lt)

/-- A map is given by its pairs. -/
theorem Ordered.ext {m' : List (κ × ν)} (h : Ordered m) (h' : Ordered m')
    (hmem : ∀ item, item ∈ m ↔ item ∈ m') : m = m' := by
  have hnodup : ∀ {l : List (κ × ν)}, Ordered l → l.Nodup := fun hl =>
    hl.imp fun hlt heq => hlt.ne (congrArg (·.1) heq)
  exact List.Perm.eq_of_pairwise (fun a b _ _ hab hba => absurd hba hab.asymm) h h'
    ((List.perm_ext_iff_of_nodup (hnodup h) (hnodup h')).mpr hmem)

end KeyMap
