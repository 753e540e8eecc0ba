import Mathlib.Data.List.Destutter
import Mathlib.Data.List.Sort
import Mathlib.Data.List.TakeWhile

/-!
# Stable sorting by a key

`sortBy key` is the stable sort by a key in a linear order. Where the key tells the elements
of a list apart, the sorted list depends on the list only as a multiset; with neighbouring
repetitions removed it depends on it only as a set.

## Main results

* `filter_sortBy`: elements of one key keep their order
* `sortBy_eq_of_perm`: permuted lists sort alike
* `sortBy_eq_of_filter_eq`: lists that agree under each key sort alike
* `destutter_sortBy_eq`: lists with the same elements sort alike up to repetition
-/

namespace SortBy

variable {α β κ : Type*} [LinearOrder κ] {key : α → κ} {l l' : List α}

/-- Stable sort by a key. -/
def sortBy (key : α → κ) (l : List α) : List α :=
  l.insertionSort fun a b => key a ≤ key b

instance keyTotal (key : α → κ) : Std.Total fun a b : α => key a ≤ key b :=
  ⟨fun a b => le_total (key a) (key b)⟩

instance keyTrans (key : α → κ) : IsTrans α fun a b => key a ≤ key b :=
  ⟨fun _ _ _ => le_trans⟩

theorem perm_sortBy (key : α → κ) (l : List α) : (sortBy key l).Perm l :=
  List.perm_insertionSort _ l

@[simp] theorem mem_sortBy {a : α} : a ∈ sortBy key l ↔ a ∈ l :=
  (perm_sortBy key l).mem_iff

@[simp] theorem length_sortBy : (sortBy key l).length = l.length :=
  (perm_sortBy key l).length_eq

theorem pairwise_sortBy (key : α → κ) (l : List α) :
    (sortBy key l).Pairwise fun a b => key a ≤ key b :=
  List.pairwise_insertionSort _ l

/-- A list in key order is left as it is. -/
theorem sortBy_eq_self (h : l.Pairwise fun a b => key a ≤ key b) : sortBy key l = l :=
  List.Pairwise.insertionSort_eq h

@[simp] theorem sortBy_sortBy : sortBy key (sortBy key l) = sortBy key l :=
  sortBy_eq_self (pairwise_sortBy key l)

/-- Sorting commutes with a map that keeps the key. -/
theorem map_sortBy {key' : β → κ} (f : α → β) (h : ∀ a ∈ l, key' (f a) = key a) :
    (sortBy key l).map f = sortBy key' (l.map f) := by
  refine List.map_insertionSort _ _ f l fun a ha b hb => ?_
  rw [h a ha, h b hb]

/-- Permuted lists sort alike when the key tells their elements apart. -/
theorem sortBy_eq_of_perm (hperm : l.Perm l')
    (hinj : ∀ a ∈ l, ∀ b ∈ l, key a = key b → a = b) : sortBy key l = sortBy key l' := by
  refine List.Perm.eq_of_pairwise (fun a b ha hb hab hba => ?_) (pairwise_sortBy key l)
    (pairwise_sortBy key l')
    ((perm_sortBy key l).trans (hperm.trans (perm_sortBy key l').symm))
  have hb' : b ∈ l := hperm.mem_iff.mpr (mem_sortBy.mp hb)
  exact hinj a (mem_sortBy.mp ha) b hb' (le_antisymm hab hba)

/-- A stable sort leaves the elements of each key in their order. -/
theorem filter_sortBy (k : κ) (l : List α) :
    (sortBy key l).filter (key · = k) = l.filter (key · = k) := by
  induction l with
  | nil => rfl
  | cons a l ih =>
    have hinsert : sortBy key (a :: l) =
        (sortBy key l).takeWhile (fun b => ¬ key a ≤ key b) ++
          a :: (sortBy key l).dropWhile fun b => ¬ key a ≤ key b :=
      List.orderedInsert_eq_take_drop (fun a b => key a ≤ key b) a (sortBy key l)
    rw [← List.takeWhile_append_dropWhile (p := fun b => decide (¬ key a ≤ key b))
      (l := sortBy key l), List.filter_append] at ih
    rw [hinsert, List.filter_append]
    by_cases hk : key a = k
    · -- what stands before the inserted element has a smaller key
      have hbefore : ((sortBy key l).takeWhile fun b => ¬ key a ≤ key b).filter
          (key · = k) = [] := by
        refine List.filter_eq_nil_iff.mpr fun b hb => ?_
        have := List.mem_takeWhile_imp hb
        simp only [decide_eq_true_eq, not_le] at this ⊢
        exact fun hbk => this.ne (hbk.trans hk.symm)
      rw [hbefore, List.nil_append] at ih ⊢
      rw [List.filter_cons_of_pos (by simpa using hk), ih,
        List.filter_cons_of_pos (by simpa using hk)]
    · rw [List.filter_cons_of_neg (by simpa using hk), ih,
        List.filter_cons_of_neg (by simpa using hk)]

/-- Lists in key order that agree under each key are equal. -/
theorem eq_of_filter_eq (hl : l.Pairwise fun a b => key a ≤ key b)
    (hl' : l'.Pairwise fun a b => key a ≤ key b)
    (h : ∀ k, l.filter (key · = k) = l'.filter (key · = k)) : l = l' := by
  induction l generalizing l' with
  | nil =>
    cases l' with
    | nil => rfl
    | cons b t' => simpa using h (key b)
  | cons a t ih =>
    cases l' with
    | nil => simpa using h (key a)
    | cons b t' =>
      rw [List.pairwise_cons] at hl hl'
      have hmem : ∀ c, c ∈ a :: t ↔ c ∈ b :: t' := fun c => by
        have := congrArg (c ∈ ·) (h (key c))
        simpa using this
      have hab : key a ≤ key b := by
        rcases List.mem_cons.mp ((hmem b).mpr List.mem_cons_self) with hb | hb
        · exact (congrArg key hb).ge
        · exact hl.1 b hb
      have hba : key b ≤ key a := by
        rcases List.mem_cons.mp ((hmem a).mp List.mem_cons_self) with ha | ha
        · exact (congrArg key ha).ge
        · exact hl'.1 a ha
      have hkey : key b = key a := le_antisymm hba hab
      have hhead := h (key a)
      rw [List.filter_cons_of_pos (by simp), List.filter_cons_of_pos (by simp [hkey])] at hhead
      obtain ⟨rfl, htail⟩ := List.cons.inj hhead
      rw [ih hl.2 hl'.2 fun k => ?_]
      by_cases hk : key a = k
      · exact hk ▸ htail
      · have := h k
        rwa [List.filter_cons_of_neg (by simpa using hk),
          List.filter_cons_of_neg (by simpa using hk)] at this

/-- Lists that agree under each key sort alike. -/
theorem sortBy_eq_of_filter_eq (h : ∀ k, l.filter (key · = k) = l'.filter (key · = k)) :
    sortBy key l = sortBy key l' :=
  eq_of_filter_eq (pairwise_sortBy key l) (pairwise_sortBy key l') fun k => by
    rw [filter_sortBy, filter_sortBy, h]

section Destutter

variable [DecidableEq α]

theorem mem_destutter' (a b : α) (l : List α) :
    b ∈ l.destutter' (· ≠ ·) a ↔ b = a ∨ b ∈ l := by
  induction l generalizing a with
  | nil => simp
  | cons c l ih =>
    by_cases h : a = c
    · subst h
      simp [ih]
    · rw [List.destutter'_cons_pos _ h, List.mem_cons, ih, List.mem_cons]

/-- Removing neighbouring repetitions keeps the elements. -/
@[simp] theorem mem_destutter (b : α) : b ∈ l.destutter (· ≠ ·) ↔ b ∈ l := by
  cases l with
  | nil => simp
  | cons a l => rw [List.destutter_cons', mem_destutter', List.mem_cons]

/-- Sorted and without neighbouring repetitions, a list is strictly ascending. -/
theorem pairwise_destutter_sortBy (hinj : ∀ a ∈ l, ∀ b ∈ l, key a = key b → a = b) :
    ((sortBy key l).destutter (· ≠ ·)).Pairwise fun a b => key a < key b := by
  have hsub : ((sortBy key l).destutter (· ≠ ·)).Sublist (sortBy key l) :=
    List.destutter_sublist _ _
  have hle := (pairwise_sortBy key l).sublist hsub
  have hne : ((sortBy key l).destutter (· ≠ ·)).IsChain (· ≠ ·) :=
    List.isChain_destutter _ _
  have hmem : ∀ a ∈ (sortBy key l).destutter (· ≠ ·), a ∈ l := fun a ha =>
    mem_sortBy.mp (hsub.subset ha)
  have hchain : ((sortBy key l).destutter (· ≠ ·)).IsChain fun a b => key a < key b := by
    refine List.isChain_iff_getElem.mpr fun i hi => ?_
    have hle' := List.isChain_iff_getElem.mp hle.isChain i hi
    have hne' := List.isChain_iff_getElem.mp hne i hi
    refine lt_of_le_of_ne hle' fun heq => hne' ?_
    exact hinj _ (hmem _ (List.getElem_mem _)) _ (hmem _ (List.getElem_mem _)) heq
  have htrans : IsTrans α fun a b => key a < key b := ⟨fun _ _ _ => lt_trans⟩
  exact hchain.pairwise

/-- Lists with the same elements sort alike up to repetition. -/
theorem destutter_sortBy_eq (hmem : ∀ a, a ∈ l ↔ a ∈ l')
    (hinj : ∀ a ∈ l, ∀ b ∈ l, key a = key b → a = b) :
    (sortBy key l).destutter (· ≠ ·) = (sortBy key l').destutter (· ≠ ·) := by
  have hinj' : ∀ a ∈ l', ∀ b ∈ l', key a = key b → a = b := fun a ha b hb =>
    hinj a ((hmem a).mpr ha) b ((hmem b).mpr hb)
  have h₁ := pairwise_destutter_sortBy hinj
  have h₂ := pairwise_destutter_sortBy hinj'
  have hnodup : ∀ {m : List α}, (m.Pairwise fun a b => key a < key b) → m.Nodup :=
    fun hm => hm.imp fun hlt heq => hlt.ne (congrArg key heq)
  refine List.Perm.eq_of_pairwise (fun a b _ _ hab hba => absurd hba hab.asymm) h₁ h₂
    ((List.perm_ext_iff_of_nodup (hnodup h₁) (hnodup h₂)).mpr fun a => ?_)
  rw [mem_destutter, mem_destutter, mem_sortBy, mem_sortBy, hmem]

end Destutter

end SortBy
