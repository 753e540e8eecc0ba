import Mathlib.Data.List.Chain
import Mathlib.Data.String.Basic
import Std.Data.ExtTreeMap

/-!
# Scanning a range of keys

The entries of an ordered map from a key on are scanned while they satisfy a condition. Where the
condition holds of an interval of keys that starts at the key, the scan finds the entries that
satisfy it, and no others. The texts with a given beginning are such an interval.

## Main results

* `RangeScan.takeWhile_dropWhile`: the scan of a sorted list is a filter
* `RangeScan.mem_scan`: the entries of a map whose keys have a given beginning
-/

namespace RangeScan

section Scan

variable {α : Type*} {R : α → α → Prop} {before inside : α → Bool} {l : List α}

/-- The scan of a sorted list finds what satisfies the condition, when it holds of an interval. -/
theorem takeWhile_dropWhile (hsorted : l.Pairwise R)
    (hbefore : ∀ a, inside a → before a = false)
    (hdown : ∀ a b, R a b → before b → before a)
    (hinterval : ∀ a b, R a b → before a = false → inside b → inside a) :
    (l.dropWhile before).takeWhile inside = l.filter inside := by
  induction l with
  | nil => rfl
  | cons a l ih =>
    obtain ⟨hfirst, hrest⟩ := List.pairwise_cons.mp hsorted
    by_cases ha : before a
    · have hnot : ¬ inside a := fun hin => by simp [hbefore a hin] at ha
      rw [List.dropWhile_cons_of_pos ha, List.filter_cons_of_neg hnot, ih hrest]
    · -- the range has begun, and what follows is in it or behind it
      have hdrop : l.dropWhile before = l := by
        cases l with
        | nil => rfl
        | cons b l =>
          exact List.dropWhile_cons_of_neg fun hb => ha (hdown a b (hfirst b (by simp)) hb)
      rw [List.dropWhile_cons_of_neg ha]
      by_cases hin : inside a
      · rw [List.takeWhile_cons_of_pos hin, List.filter_cons_of_pos hin, ← ih hrest, hdrop]
      · rw [List.takeWhile_cons_of_neg hin, List.filter_cons_of_neg hin, eq_comm,
          List.filter_eq_nil_iff]
        intro b hb hinside
        exact hin (hinterval a b (hfirst b hb) (by simpa using ha) hinside)

end Scan

section Texts

variable {start text : List Char}

theorem not_lt_of_prefix (h : start <+: text) : ¬ text < start := by
  obtain ⟨rest, rfl⟩ := h
  induction start with
  | nil => exact List.not_lt_nil _
  | cons c start ih =>
    rw [List.cons_append, List.cons_lt_cons_iff]
    rintro (h | ⟨-, h⟩)
    · exact lt_irrefl c h
    · exact ih h

/-- A text between a beginning and a text that has it has it as well. -/
theorem prefix_of_between {rest : List Char} (hstart : ¬ text < start)
    (hrest : text < start ++ rest) : start <+: text := by
  induction start generalizing text with
  | nil => exact List.nil_prefix
  | cons c start ih =>
    cases text with
    | nil => exact absurd (List.nil_lt_cons c start) hstart
    | cons d text =>
      rw [List.cons_append, List.cons_lt_cons_iff] at hrest
      rw [List.cons_lt_cons_iff] at hstart
      push Not at hstart
      rcases hrest with h | ⟨rfl, h⟩
      · exact absurd h (not_lt.mpr hstart.1)
      · exact List.prefix_cons_inj d |>.mpr (ih (not_lt.mpr (hstart.2 rfl)) h)

end Texts

section Entries

open Std

variable {β : Type*} {m : ExtTreeMap String β} {start : String} {entry : String × β}

/-- Scanning from a text on finds the entries whose keys begin with it. -/
theorem mem_scan : entry ∈ (m.toList.dropWhile fun e => e.1 < start).takeWhile
      (fun e => start.toList.isPrefixOf e.1.toList) ↔
    m[entry.1]? = some entry.2 ∧ start.toList <+: entry.1.toList := by
  have hsorted : m.toList.Pairwise fun a b => a.1 < b.1 :=
    ExtTreeMap.ordered_keys_toList.imp fun h => compare_lt_iff_lt.mp h
  rw [takeWhile_dropWhile hsorted, List.mem_filter, ExtTreeMap.mem_toList_iff_getElem?_eq_some,
    List.isPrefixOf_iff_prefix]
  · intro a ha
    rw [decide_eq_false_iff_not, String.lt_iff_toList_lt]
    exact not_lt_of_prefix (List.isPrefixOf_iff_prefix.mp ha)
  · intro a b hab hb
    exact decide_eq_true (hab.trans (of_decide_eq_true hb))
  · intro a b hab ha hb
    obtain ⟨rest, hrest⟩ := List.isPrefixOf_iff_prefix.mp hb
    refine List.isPrefixOf_iff_prefix.mpr (@prefix_of_between _ _ rest ?_ ?_)
    · rwa [decide_eq_false_iff_not, String.lt_iff_toList_lt] at ha
    · rw [hrest]
      exact String.lt_iff_toList_lt.mp hab

end Entries

end RangeScan
