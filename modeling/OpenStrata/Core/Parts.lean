import Mathlib.Data.List.DropRight
import Mathlib.Data.List.TakeWhile
import OpenStrata.Core.Segments

/-!
# Parts of a text

A text is what trimming leaves of it between two runs of white space, and what splitting it at a
separator gives, joined by the separator. Both are stated for character lists, where what stands
around a part is a list of its own.

## Main definitions

* `Text.IsTrimmed`: neither end is white space
* `Text.trimMatches`: a text without a character at its ends

## Main results

* `Text.trim_eq`: white space around a trimmed text is removed, and nothing else
* `Text.exists_trim`: every text is of that form
* `Text.join_split`: joining what splitting at a character gives
-/

namespace OpenStrata.Text

/-- Neither end of the text is white space. -/
def IsTrimmed (cs : List Char) : Prop :=
  (∀ c ∈ cs.head?, isWhitespace c = false) ∧ ∀ c ∈ cs.getLast?, isWhitespace c = false

section Trim

variable {before cs after : List Char} {s : String}

theorem dropWhile_of_isTrimmed (h : IsTrimmed cs) (hne : cs ≠ []) :
    (cs ++ after).dropWhile isWhitespace = cs ++ after := by
  obtain ⟨c, rest, rfl⟩ := List.exists_cons_of_ne_nil hne
  have hc : isWhitespace c = false := h.1 c rfl
  rw [List.cons_append, List.dropWhile_cons_of_neg (by simp [hc])]

/-- White space around a trimmed text is removed, and nothing else. -/
theorem trim_eq (hs : s.toList = before ++ cs ++ after) (hbefore : ∀ c ∈ before, isWhitespace c)
    (hafter : ∀ c ∈ after, isWhitespace c) (h : IsTrimmed cs) : trim s = String.ofList cs := by
  rw [trim, hs, List.append_assoc, List.dropWhile_append_of_pos hbefore]
  by_cases hne : cs = []
  · subst hne
    rw [List.nil_append, List.dropWhile_eq_nil_iff.mpr hafter]
    rfl
  · rw [dropWhile_of_isTrimmed h hne, List.reverse_append,
      List.dropWhile_append_of_pos fun c hc => hafter c (List.mem_reverse.mp hc)]
    have hrev : cs.reverse.dropWhile isWhitespace = cs.reverse := by
      obtain ⟨init, c, rfl⟩ := (List.eq_nil_or_concat cs).resolve_left hne
      have hlast : isWhitespace c = false := h.2 c (by simp)
      rw [List.concat_eq_append, List.reverse_append, List.reverse_singleton,
        List.singleton_append, List.dropWhile_cons_of_neg (by simp [hlast])]
    rw [hrev, List.reverse_reverse]

theorem isTrimmed_trim (s : String) : IsTrimmed (trim s).toList := by
  rw [trim, String.toList_ofList, ← List.rdropWhile]
  constructor
  · intro c hc
    obtain ⟨after, hafter⟩ := List.rdropWhile_prefix isWhitespace (s.toList.dropWhile isWhitespace)
    have hhead := List.head?_dropWhile_not isWhitespace s.toList
    rw [← hafter, List.head?_append, Option.mem_def.mp hc] at hhead
    simpa using hhead
  · intro c hc
    have hne : List.rdropWhile isWhitespace (s.toList.dropWhile isWhitespace) ≠ [] := by
      rintro hnil
      rw [hnil] at hc
      cases hc
    rw [List.getLast?_eq_some_getLast hne, Option.mem_some_iff] at hc
    simpa [← hc] using List.rdropWhile_last_not isWhitespace _ hne

/-- A text is its trimmed form between two runs of white space. -/
theorem exists_trim (s : String) : ∃ before after, s.toList = before ++ (trim s).toList ++ after ∧
    (∀ c ∈ before, isWhitespace c) ∧ ∀ c ∈ after, isWhitespace c := by
  refine ⟨s.toList.takeWhile isWhitespace,
    (s.toList.dropWhile isWhitespace).rtakeWhile isWhitespace, ?_,
    fun c => List.mem_takeWhile_imp, fun c => List.mem_rtakeWhile_imp⟩
  rw [trim, String.toList_ofList, ← List.rdropWhile, List.append_assoc,
    List.rdropWhile_append_rtakeWhile, List.takeWhile_append_dropWhile]

theorem trim_eq_self (h : IsTrimmed s.toList) : trim s = s := by
  have := @trim_eq [] s.toList [] s (by simp) (by simp)
    (by simp) h
  rwa [String.ofList_toList] at this

@[simp] theorem trim_trim (s : String) : trim (trim s) = trim s := trim_eq_self (isTrimmed_trim s)

theorem mem_of_mem_trim {c : Char} (h : c ∈ (trim s).toList) : c ∈ s.toList := by
  obtain ⟨before, after, hs, -, -⟩ := exists_trim s
  rw [hs]
  simp [h]

/-- `trim_matches`: the text without a character at its ends. -/
def trimMatches (c : Char) (s : String) : String :=
  String.ofList ((s.toList.dropWhile (· == c)).rdropWhile (· == c))

theorem mem_of_mem_trimMatches {c d : Char} (h : d ∈ (trimMatches c s).toList) : d ∈ s.toList := by
  rw [trimMatches, String.toList_ofList] at h
  exact (List.dropWhile_suffix _).subset ((List.rdropWhile_prefix _ _).subset h)

/-- A text without the character is what trimming leaves of it inside a pair of them. -/
theorem trimMatches_eq {c : Char} (h : c ∉ cs) :
    trimMatches c (String.ofList (c :: (cs ++ [c]))) = String.ofList cs := by
  have hne (d : Char) (hd : d ∈ cs) : (d == c) = false := by
    rw [beq_eq_false_iff_ne]
    rintro rfl
    exact h hd
  rw [trimMatches, String.toList_ofList, List.dropWhile_cons_of_pos (by simp)]
  by_cases hnil : cs = []
  · subst hnil
    simp
  · obtain ⟨d, rest, rfl⟩ := List.exists_cons_of_ne_nil hnil
    rw [List.cons_append, List.dropWhile_cons_of_neg (by simp [hne d]), ← List.cons_append,
      List.rdropWhile_concat_pos _ _ _ (by simp), List.rdropWhile_eq_self_iff.mpr]
    intro hl
    simp [hne _ (List.getLast_mem hl)]

end Trim

section Split

variable {p : Char → Bool} {s : String} {d : Char}

/-- A character of a text separates its parts or stands in one of them. -/
theorem mem_splitOnP_of_mem {cs : List Char} (h : d ∈ cs) :
    p d ∨ ∃ part ∈ cs.splitOnP p, d ∈ part := by
  induction cs with
  | nil => cases h
  | cons c cs ih =>
    rw [List.splitOnP_cons_eq_if_modifyHead]
    by_cases hc : p c
    · rw [if_pos hc]
      rcases List.mem_cons.mp h with rfl | h
      · exact .inl hc
      · exact (ih h).imp_right fun ⟨part, hpart, hd⟩ => ⟨part, List.mem_cons_of_mem _ hpart, hd⟩
    · rw [if_neg hc]
      obtain ⟨first, others, hsplit⟩ := List.exists_cons_of_ne_nil (List.splitOnP_ne_nil p cs)
      rw [hsplit, List.modifyHead_cons]
      rcases List.mem_cons.mp h with rfl | h
      · exact .inr ⟨_, List.mem_cons_self, List.mem_cons_self⟩
      · refine (ih h).imp_right ?_
        rw [hsplit]
        rintro ⟨part, hpart, hd⟩
        rcases List.mem_cons.mp hpart with rfl | hpart
        · exact ⟨_, List.mem_cons_self, List.mem_cons_of_mem _ hd⟩
        · exact ⟨part, List.mem_cons_of_mem _ hpart, hd⟩

theorem mem_split_of_mem (h : d ∈ s.toList) : p d ∨ ∃ part ∈ split p s, d ∈ part.toList := by
  refine (mem_splitOnP_of_mem h).imp_right fun ⟨part, hpart, hd⟩ => ?_
  exact ⟨String.ofList part, List.mem_map_of_mem hpart, by rwa [String.toList_ofList]⟩

/-- What stands before the first separator stays with the first part. -/
theorem split_append_of_not_mem {lead : String} (h : ∀ c ∈ lead.toList, p c = false) :
    split p (lead ++ s) = (split p s).modifyHead (lead ++ ·) := by
  have hlist (cs : List Char) : ∀ ds : List Char, (∀ c ∈ ds, p c = false) →
      (ds ++ cs).splitOnP p = (cs.splitOnP p).modifyHead (ds ++ ·) := by
    intro ds
    obtain ⟨first, others, hsplit⟩ := List.exists_cons_of_ne_nil (List.splitOnP_ne_nil p cs)
    induction ds with
    | nil => simp [hsplit]
    | cons d ds ih =>
      intro hds
      rw [List.cons_append, List.splitOnP_cons_eq_if_modifyHead,
        if_neg (by simp [hds d List.mem_cons_self]),
        ih fun c hc => hds c (List.mem_cons_of_mem _ hc), hsplit]
      rfl
  obtain ⟨first, others, hsplit⟩ :=
    List.exists_cons_of_ne_nil (List.splitOnP_ne_nil p s.toList)
  rw [split, split, String.toList_append, hlist s.toList lead.toList h, hsplit]
  simp [String.ofList_append]

end Split

section Join

variable {c : Char} {sep : String}

/-- A text joined by a separator is that separator between its parts. -/
theorem toList_join_char (hsep : sep.toList = [c]) (parts : List String) :
    (join sep parts).toList = [c].intercalate (parts.map String.toList) := by
  induction parts with
  | nil => rfl
  | cons part rest ih =>
    cases rest with
    | nil => simp [join]
    | cons next rest =>
      rw [join, String.toList_append, String.toList_append, hsep, ih, List.map_cons,
        List.map_cons, List.map_cons, List.intercalate_cons_cons]
      rintro ⟨⟩

/-- A text is the join of what splitting it at a character gives. -/
theorem join_split (hsep : sep.toList = [c]) (s : String) : join sep (split (· == c) s) = s := by
  rw [← String.toList_inj, toList_join_char hsep, split, List.map_map]
  have hid : String.toList ∘ String.ofList = id := by
    funext cs
    exact String.toList_ofList
  rw [hid, List.map_id]
  exact List.intercalate_splitOn c

/-- Parts without the separator are what splitting their join gives. -/
theorem split_join_char (hsep : sep.toList = [c]) {parts : List String} (hne : parts ≠ [])
    (h : ∀ part ∈ parts, c ∉ part.toList) : split (· == c) (join sep parts) = parts := by
  rw [split, toList_join_char hsep]
  have hsplit : ([c].intercalate (parts.map String.toList)).splitOnP (· == c) =
      parts.map String.toList := by
    refine List.splitOn_intercalate c ?_ (by simpa using hne)
    intro part hpart
    obtain ⟨p, hp, rfl⟩ := List.mem_map.mp hpart
    exact h p hp
  rw [hsplit, List.map_map]
  have hid : String.ofList ∘ String.toList = id := by
    funext s
    exact String.ofList_toList
  rw [hid, List.map_id]

end Join

end OpenStrata.Text
