import OpenStrata.Core.Text

/-!
# First occurrences

What the search for the first occurrence of a text finds.

## Main results

* `Text.splitOnceList_some`, `Text.splitOnceList_none`: the first occurrence, or none
* `Text.splitOnce_iff`: a text splits at the first occurrence of another
* `Text.splitOnce_eq`, `Text.rsplitOnce_eq`: the parts put together again
* `Text.splitOnce_append`, `Text.rsplitOnce_append`: a separator of one character splits at its
  first occurrence, or at its last
-/

namespace OpenStrata.Text

variable {d s before after : List Char}

/-- The parts around an occurrence before which there is no other. -/
theorem splitOnceList_some (hd : d ≠ []) :
    splitOnceList d s = some (before, after) ↔
      s = before ++ d ++ after ∧ ∀ p q, s = p ++ d ++ q → before.length ≤ p.length := by
  induction s generalizing before with
  | nil =>
    have hpfx : d.isPrefixOf [] = false := by
      cases d with
      | nil => exact absurd rfl hd
      | cons => rfl
    rw [splitOnceList, hpfx]
    constructor
    · rintro ⟨⟩
    · rintro ⟨h, -⟩
      exact absurd (List.append_eq_nil_iff.mp (List.append_eq_nil_iff.mp h.symm).1).2 hd
  | cons c cs ih =>
    rw [splitOnceList]
    split
    · next hpfx =>
      obtain ⟨tail, htail⟩ := List.isPrefixOf_iff_prefix.mp hpfx
      constructor
      · intro h
        cases h
        refine ⟨?_, fun p q _ => Nat.zero_le _⟩
        rw [← htail, List.drop_left, List.nil_append]
      · rintro ⟨h, hfirst⟩
        have hnil : before = [] :=
          List.length_eq_zero_iff.mp (Nat.le_zero.mp (hfirst [] tail htail.symm))
        subst hnil
        rw [h, List.nil_append, List.drop_left]
    · next hpfx =>
      have hnot : ∀ q, c :: cs ≠ d ++ q := by
        intro q h
        exact hpfx (List.isPrefixOf_iff_prefix.mpr ⟨q, h.symm⟩)
      constructor
      · intro h
        obtain ⟨⟨b, a⟩, hrest, heq⟩ := Option.map_eq_some_iff.mp h
        cases heq
        obtain ⟨hcs, hfirst⟩ := ih.mp hrest
        refine ⟨by rw [hcs]; rfl, fun p q hpq => ?_⟩
        cases p with
        | nil => exact absurd hpq (hnot q)
        | cons x p =>
          injection hpq with _ hpq
          exact Nat.succ_le_succ (hfirst p q hpq)
      · rintro ⟨h, hfirst⟩
        cases before with
        | nil => exact absurd h (hnot after)
        | cons x before =>
          injection h with hx h
          subst hx
          refine Option.map_eq_some_iff.mpr ⟨(before, after), ih.mpr ⟨h, fun p q hpq => ?_⟩, rfl⟩
          have := hfirst (c :: p) q (by rw [hpq]; rfl)
          exact Nat.le_of_succ_le_succ this

theorem splitOnceList_none (hd : d ≠ []) :
    splitOnceList d s = none ↔ ∀ p q, s ≠ p ++ d ++ q := by
  constructor
  · intro h p q hs
    -- an occurrence of the least position would be found
    induction s generalizing p with
    | nil => exact absurd (List.append_eq_nil_iff.mp (List.append_eq_nil_iff.mp hs.symm).1).2 hd
    | cons c cs ih =>
      rw [splitOnceList] at h
      split at h
      · cases h
      · next hpfx =>
        cases p with
        | nil => exact hpfx (List.isPrefixOf_iff_prefix.mpr ⟨q, hs.symm⟩)
        | cons x p =>
          injection hs with _ hs
          exact ih (Option.map_eq_none_iff.mp h) p hs
  · intro h
    cases hfound : splitOnceList d s with
    | none => rfl
    | some parts => exact absurd ((splitOnceList_some hd).mp hfound).1 (h _ _)

theorem splitOnce_eq {d s before after : String} (hd : d ≠ "")
    (h : splitOnce d s = some (before, after)) : s = before ++ d ++ after := by
  obtain ⟨⟨b, a⟩, hlist, heq⟩ := Option.map_eq_some_iff.mp h
  cases heq
  have hne : d.toList ≠ [] := fun hnil => hd (String.toList_inj.mp hnil)
  rw [← String.toList_inj]
  simpa using ((splitOnceList_some hne).mp hlist).1

/-- A text splits at the first occurrence of another. -/
theorem splitOnce_iff {d s before after : String} (hd : d ≠ "") :
    splitOnce d s = some (before, after) ↔
      s = before ++ d ++ after ∧ ∀ p q, s = p ++ d ++ q → before.length ≤ p.length := by
  have hne : d.toList ≠ [] := fun hnil => hd (String.toList_inj.mp hnil)
  have hsplit : splitOnce d s = some (before, after) ↔
      splitOnceList d.toList s.toList = some (before.toList, after.toList) := by
    rw [splitOnce, Option.map_eq_some_iff]
    constructor
    · rintro ⟨⟨b, a⟩, h, heq⟩
      cases heq
      simpa using h
    · exact fun h => ⟨_, h, by simp⟩
  rw [hsplit, splitOnceList_some hne]
  simp only [← String.toList_append, String.toList_inj, String.length_toList]
  refine and_congr_right fun _ => ⟨fun h p q hpq => ?_, fun h p q hpq => ?_⟩
  · exact h p.toList q.toList (by rw [hpq]; simp)
  · have := h (String.ofList p) (String.ofList q) (by rw [← String.toList_inj, hpq]; simp)
    simpa using this

section Single

variable {c : Char} {d before after : String}

/-- A separator of one character splits a text before its first occurrence. -/
theorem splitOnce_append (hd : d.toList = [c]) (h : c ∉ before.toList) :
    splitOnce d (before ++ d ++ after) = some (before, after) := by
  have hlist : splitOnceList d.toList (before ++ d ++ after).toList =
      some (before.toList, after.toList) := by
    rw [hd, splitOnceList_some (List.cons_ne_nil c [])]
    refine ⟨by simp [hd], fun p q hpq => ?_⟩
    by_contra! hlt
    -- an earlier occurrence would stand inside `before`
    refine h (List.mem_of_getElem? (i := p.length) ?_)
    have hget := congrArg (·[p.length]?) hpq
    simpa [hd, List.getElem?_append_left hlt] using hget
  rw [splitOnce, hlist]
  simp

theorem not_mem_of_splitOnce {s : String} (hd : d.toList = [c])
    (h : splitOnce d s = some (before, after)) : c ∉ before.toList := by
  obtain ⟨⟨b, a⟩, hlist, heq⟩ := Option.map_eq_some_iff.mp h
  cases heq
  rw [hd] at hlist
  obtain ⟨heq, hfirst⟩ := (splitOnceList_some (List.cons_ne_nil c [])).mp hlist
  rw [String.toList_ofList]
  intro hmem
  obtain ⟨p, q, rfl⟩ := List.append_of_mem hmem
  have hlength := hfirst p (q ++ [c] ++ a) (by rw [heq]; simp)
  simp at hlength

/-- A text without the separator does not split at it. -/
theorem splitOnce_eq_none {s : String} (hd : d.toList = [c]) (h : c ∉ s.toList) :
    splitOnce d s = none := by
  have hlist : splitOnceList d.toList s.toList = none := by
    rw [hd, splitOnceList_none (List.cons_ne_nil c [])]
    intro p q hpq
    exact h (by rw [hpq]; simp)
  rw [splitOnce, hlist, Option.map_none]

/-- A text splits before the last occurrence of a separator of one character. -/
theorem rsplitOnce_append (hd : d.toList = [c]) (h : c ∉ after.toList) :
    rsplitOnce c (before ++ d ++ after) = some (before, after) := by
  have hlist : splitOnceList [c] (before ++ d ++ after).toList.reverse =
      some (after.toList.reverse, before.toList.reverse) := by
    rw [splitOnceList_some (List.cons_ne_nil c [])]
    refine ⟨by simp [hd], fun p q hpq => ?_⟩
    by_contra! hlt
    -- a later occurrence would stand inside `after`
    refine h (List.mem_reverse.mp (List.mem_of_getElem? (i := p.length) ?_))
    have hget := congrArg (·[p.length]?) hpq
    simpa [hd, List.getElem?_append_left hlt] using hget
  rw [rsplitOnce, hlist]
  simp

theorem rsplitOnce_eq_none {s : String} (h : c ∉ s.toList) : rsplitOnce c s = none := by
  have hlist : splitOnceList [c] s.toList.reverse = none := by
    rw [splitOnceList_none (List.cons_ne_nil c [])]
    intro p q hpq
    exact h (List.mem_reverse.mp (by rw [hpq]; simp))
  rw [rsplitOnce, hlist, Option.map_none]

end Single

theorem rsplitOnce_eq {c : Char} {s before after : String}
    (h : rsplitOnce c s = some (before, after)) : s = before ++ String.ofList [c] ++ after := by
  obtain ⟨⟨a, b⟩, hlist, heq⟩ := Option.map_eq_some_iff.mp h
  cases heq
  have hsplit := ((splitOnceList_some (List.cons_ne_nil c [])).mp hlist).1
  rw [← String.toList_inj]
  have := congrArg List.reverse hsplit
  simpa using this

end OpenStrata.Text
