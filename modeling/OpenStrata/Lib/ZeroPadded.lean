import Mathlib.Data.List.GetD
import Mathlib.Order.PiLex
import Mathlib.Order.Compare

/-!
# Lists compared with missing components read as zero

Two lists of components are compared at the first index at which they differ, and beyond its
end a list has the component zero everywhere. A list is then a sequence without an end, and the
comparison is the lexicographic order of these sequences.

## Main definitions

* `ZeroPadded.components`: a list as a sequence
* `ZeroPadded.cmp`: the comparison of two lists
* `ZeroPadded.Comparison`: the comparison operators, on orderings and on any order

## Main results

* `ZeroPadded.cmp_eq_compare`: the comparison is the lexicographic order of the sequences
* `ZeroPadded.accepts_cmp_iff`: an operator accepts the comparison of two lists when their
  components stand in its relation
-/

namespace ZeroPadded

variable {α : Type*}

/-- The sequence after its first component. -/
def tail (f : Lex (ℕ → α)) : Lex (ℕ → α) := toLex fun i => ofLex f (i + 1)

section Components

variable [Zero α]

/-- **The components of a list**, zero beyond its end. -/
def components (l : List α) : Lex (ℕ → α) := toLex fun i => l.getD i 0

@[simp] theorem components_head (l : List α) : ofLex (components l) 0 = l.headD 0 := by
  cases l <;> rfl

@[simp] theorem tail_components (l : List α) : tail (components l) = components l.tail := by
  cases l <;> rfl

theorem components_concat (l : List α) (x : α) : ofLex (components (l ++ [x])) l.length = x := by
  simp [components]

theorem components_length (l : List α) : ofLex (components l) l.length = 0 := by
  simp [components]

/-- The components of a list are those of the empty one when they are all zero. -/
theorem components_eq_nil_iff {l : List α} : components l = components [] ↔ ∀ x ∈ l, x = 0 := by
  constructor
  · intro h x hx
    obtain ⟨i, hi, rfl⟩ := List.getElem_of_mem hx
    have hcomponent : l.getD i 0 = 0 := congrFun h i
    rwa [List.getD_eq_getElem _ _ hi] at hcomponent
  · intro h
    apply ofLex.injective
    ext i
    show l.getD i 0 = 0
    by_cases hi : i < l.length
    · rw [List.getD_eq_getElem _ _ hi, h _ (List.getElem_mem hi)]
    · rw [List.getD_eq_default _ _ (Nat.le_of_not_lt hi)]

end Components

/-! ## The lexicographic order, one component at a time -/

theorem eq_iff {f g : Lex (ℕ → α)} : f = g ↔ ofLex f 0 = ofLex g 0 ∧ tail f = tail g := by
  constructor
  · rintro rfl
    exact ⟨rfl, rfl⟩
  · rintro ⟨hhead, htail⟩
    apply ofLex.injective
    ext i
    cases i with
    | zero => exact hhead
    | succ i => exact congrFun htail i

variable [LinearOrder α]

theorem lt_iff {f g : Lex (ℕ → α)} :
    f < g ↔ ofLex f 0 < ofLex g 0 ∨ ofLex f 0 = ofLex g 0 ∧ tail f < tail g := by
  constructor
  · rintro ⟨i, hbefore, hi⟩
    cases i with
    | zero => exact .inl hi
    | succ i =>
      exact .inr ⟨hbefore 0 (Nat.succ_pos i),
        i, fun j hj => hbefore (j + 1) (Nat.succ_lt_succ hj), hi⟩
  · rintro (h | ⟨hhead, i, hbefore, hi⟩)
    · exact ⟨0, fun j hj => absurd hj (Nat.not_lt_zero j), h⟩
    · refine ⟨i + 1, fun j hj => ?_, hi⟩
      cases j with
      | zero => exact hhead
      | succ j => exact hbefore j (Nat.lt_of_succ_lt_succ hj)

/-- Sequences are compared at their first component, and after it when these agree. -/
theorem compare_eq (f g : Lex (ℕ → α)) :
    compare f g = (compare (ofLex f 0) (ofLex g 0)).then (compare (tail f) (tail g)) := by
  rcases lt_trichotomy (ofLex f 0) (ofLex g 0) with h | h | h
  · rw [compare_lt_iff_lt.mpr h, compare_lt_iff_lt.mpr (lt_iff.mpr (.inl h))]
    rfl
  · rw [compare_eq_iff_eq.mpr h, Ordering.eq_then]
    rcases lt_trichotomy (tail f) (tail g) with ht | ht | ht
    · rw [compare_lt_iff_lt.mpr ht, compare_lt_iff_lt.mpr (lt_iff.mpr (.inr ⟨h, ht⟩))]
    · rw [compare_eq_iff_eq.mpr ht, compare_eq_iff_eq.mpr (eq_iff.mpr ⟨h, ht⟩)]
    · rw [compare_gt_iff_gt.mpr ht, compare_gt_iff_gt.mpr (lt_iff.mpr (.inr ⟨h.symm, ht⟩))]
  · rw [compare_gt_iff_gt.mpr h, compare_gt_iff_gt.mpr (lt_iff.mpr (.inl h))]
    rfl

/-- Where zero is the least component, more components make a list larger or leave it. -/
theorem components_le_of_isPrefix [Zero α] (hzero : ∀ x : α, 0 ≤ x) {l l' : List α}
    (h : l <+: l') :
    components l ≤ components l' := by
  induction l generalizing l' with
  | nil =>
    rw [← not_lt]
    rintro ⟨i, -, hi⟩
    exact not_lt_of_ge (hzero _) hi
  | cons x l ih =>
    obtain ⟨y, l', rfl⟩ := List.exists_cons_of_ne_nil (List.ne_nil_of_length_pos
      (Nat.lt_of_lt_of_le (Nat.succ_pos _) h.length_le))
    obtain ⟨rfl, htail⟩ := List.cons_prefix_cons.mp h
    have hhead : ofLex (components (x :: l)) 0 = ofLex (components (x :: l')) 0 := rfl
    rcases (ih htail).lt_or_eq with hlt | heq
    · exact (lt_iff.mpr (.inr ⟨hhead, hlt⟩)).le
    · exact (eq_iff.mpr ⟨hhead, heq⟩).le

section Cmp

variable [Zero α]

/-- Compare two lists component by component, the shorter one padded with zeros. -/
def cmp : List α → List α → Ordering
  | [], ys => ys.foldr (fun y rest => (compare 0 y).then rest) .eq
  | x :: xs, ys => (compare x (ys.headD 0)).then (cmp xs ys.tail)

/-- **The comparison of two lists** is the lexicographic order of their components. -/
theorem cmp_eq_compare (xs ys : List α) : cmp xs ys = compare (components xs) (components ys) := by
  induction xs generalizing ys with
  | nil =>
    induction ys with
    | nil => exact (compare_eq_iff_eq.mpr rfl).symm
    | cons y ys ih =>
      rw [compare_eq, tail_components, tail_components, components_head, components_head]
      exact congrArg _ ih
  | cons x xs ih =>
    rw [compare_eq, tail_components, tail_components, components_head, components_head]
    exact congrArg _ (ih ys.tail)

/-! ## Comparison operators -/

/-- The comparison operators. -/
inductive Comparison
  | atLeast
  | atMost
  | above
  | below
  | exactly
  deriving DecidableEq, Repr

namespace Comparison

/-- The orderings of a value and a bound that an operator accepts. -/
def accepts : Comparison → Ordering → Bool
  | .atLeast, ord => ord != .lt
  | .atMost, ord => ord != .gt
  | .above, ord => ord == .gt
  | .below, ord => ord == .lt
  | .exactly, ord => ord == .eq

/-- **The relation of an operator**, in any order: a value against its bound. -/
def Relates {β : Type*} [Preorder β] : Comparison → β → β → Prop
  | .atLeast, x, y => y ≤ x
  | .atMost, x, y => x ≤ y
  | .above, x, y => y < x
  | .below, x, y => x < y
  | .exactly, x, y => x = y

theorem accepts_compare_iff {β : Type*} [LinearOrder β] {x y : β} (c : Comparison) :
    c.accepts (compare x y) ↔ c.Relates x y := by
  cases c with
  | atLeast => simp [accepts, Relates, compare_lt_iff_lt]
  | atMost => simp [accepts, Relates, compare_gt_iff_gt]
  | above => simp [accepts, Relates, compare_gt_iff_gt]
  | below => simp [accepts, Relates, compare_lt_iff_lt]
  | exactly => simp [accepts, Relates]

end Comparison

/-- An operator accepts two lists when their components stand in its relation. -/
theorem accepts_cmp_iff {xs ys : List α} (c : Comparison) :
    c.accepts (cmp xs ys) ↔ c.Relates (components xs) (components ys) := by
  rw [cmp_eq_compare, Comparison.accepts_compare_iff]

end Cmp

end ZeroPadded
