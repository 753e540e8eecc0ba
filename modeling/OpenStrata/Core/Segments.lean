import Mathlib.Data.List.Infix
import OpenStrata.Core.Text

/-!
# Paths as lists of segments

What splitting a text at slashes keeps of it: the segments determine the text, and a text
extends another by whole segments exactly when it is the other or continues it after a slash.

## Main definitions

* `Text.segments`: the segments of a slash-separated path
* `Text.isOrdinary`: a segment that is neither empty nor a dot reference
* `Text.resolveSegments`: empty and dot segments resolved away

## Main results

* `Text.join_segments`, `Text.segments_join`: splitting and joining are inverse
* `Text.segments_prefix_iff`: extension by whole segments
-/

namespace OpenStrata.Text

theorem startsWith_iff {p s : String} : startsWith p s ↔ ∃ rest, s = p ++ rest := by
  rw [startsWith, List.isPrefixOf_iff_prefix]
  constructor
  · rintro ⟨tail, htail⟩
    exact ⟨String.ofList tail, by rw [← String.toList_inj, ← htail]; simp⟩
  · rintro ⟨rest, rfl⟩
    exact ⟨rest.toList, by simp⟩

/-- The segments of a slash-separated path. -/
def segments (path : String) : List String := split (· == '/') path

theorem not_mem_of_mem_splitOnP {p : Char → Bool} {part : List Char} {cs : List Char}
    (h : part ∈ cs.splitOnP p) : ∀ c ∈ part, p c = false := by
  induction cs generalizing part with
  | nil =>
    obtain rfl : part = [] := by simpa using h
    simp
  | cons c cs ih =>
    rw [List.splitOnP_cons_eq_if_modifyHead] at h
    split_ifs at h with hc
    · rcases List.mem_cons.mp h with rfl | h
      · simp
      · exact ih h
    · obtain ⟨first, others, hsplit⟩ := List.exists_cons_of_ne_nil (List.splitOnP_ne_nil p cs)
      rw [hsplit, List.modifyHead_cons] at h
      rcases List.mem_cons.mp h with rfl | h
      · intro d hd
        rcases List.mem_cons.mp hd with rfl | hd
        · simpa using hc
        · exact ih (hsplit ▸ List.mem_cons_self) d hd
      · exact ih (hsplit ▸ List.mem_cons_of_mem _ h)

theorem mem_of_mem_splitOnP {p : Char → Bool} {part : List Char} {cs : List Char} {c : Char}
    (h : part ∈ cs.splitOnP p) (hc : c ∈ part) : c ∈ cs := by
  induction cs generalizing part with
  | nil =>
    obtain rfl : part = [] := by simpa using h
    exact hc
  | cons d cs ih =>
    rw [List.splitOnP_cons_eq_if_modifyHead] at h
    split_ifs at h with hd
    · rcases List.mem_cons.mp h with rfl | h
      · cases hc
      · exact List.mem_cons_of_mem _ (ih h hc)
    · obtain ⟨first, others, hsplit⟩ := List.exists_cons_of_ne_nil (List.splitOnP_ne_nil p cs)
      rw [hsplit, List.modifyHead_cons] at h
      rcases List.mem_cons.mp h with rfl | h
      · rcases List.mem_cons.mp hc with rfl | hc
        · exact List.mem_cons_self
        · exact List.mem_cons_of_mem _ (ih (hsplit ▸ List.mem_cons_self) hc)
      · exact List.mem_cons_of_mem _ (ih (hsplit ▸ List.mem_cons_of_mem _ h) hc)

section Separator

variable {p : Char → Bool}

theorem split_of_not_mem {path : String} (h : ∀ c ∈ path.toList, p c = false) :
    split p path = [path] := by
  simp [split, List.splitOnP_eq_singleton h]

/-- What stands around a separator is split on its own. -/
theorem split_append_char {c : Char} (hp : p c) {sep : String} (hsep : sep.toList = [c])
    (before after : String) : split p (before ++ sep ++ after) = split p before ++ split p after := by
  simp only [split, String.toList_append, hsep, List.append_assoc, List.singleton_append]
  rw [List.splitOnP_append_cons _ _ hp, List.map_append]

theorem split_append_slash (hp : p '/') (before after : String) :
    split p (before ++ "/" ++ after) = split p before ++ split p after :=
  split_append_char hp rfl before after

theorem split_join (hp : p '/') {parts : List String} (hne : parts ≠ [])
    (h : ∀ part ∈ parts, ∀ c ∈ part.toList, p c = false) : split p (join "/" parts) = parts := by
  induction parts with
  | nil => exact absurd rfl hne
  | cons part rest ih =>
    have hpart := split_of_not_mem (h part List.mem_cons_self)
    cases rest with
    | nil => exact hpart
    | cons next rest =>
      rw [join, split_append_slash hp, hpart,
        ih (List.cons_ne_nil _ _) fun p hp => h p (List.mem_cons_of_mem _ hp)]
      · rfl
      · rintro ⟨⟩

theorem not_mem_of_mem_split {path part : String} (h : part ∈ split p path) :
    ∀ c ∈ part.toList, p c = false := by
  obtain ⟨cs, hcs, rfl⟩ := List.mem_map.mp h
  rw [String.toList_ofList]
  exact not_mem_of_mem_splitOnP hcs

end Separator

/-- No segment holds a slash. -/
theorem slash_not_mem_segment {path segment : String} (h : segment ∈ segments path) :
    '/' ∉ segment.toList := by
  intro hmem
  simpa using not_mem_of_mem_split h '/' hmem

theorem mem_of_mem_segment {path segment : String} {c : Char} (h : segment ∈ segments path)
    (hc : c ∈ segment.toList) : c ∈ path.toList := by
  obtain ⟨cs, hcs, rfl⟩ := List.mem_map.mp h
  exact mem_of_mem_splitOnP hcs (by simpa using hc)

theorem segments_ne_nil (path : String) : segments path ≠ [] := by
  simp [segments, split]

theorem ne_slash_of_not_mem {path : String} (h : '/' ∉ path.toList) :
    ∀ c ∈ path.toList, (c == '/') = false := by
  intro c hc
  simp only [beq_eq_false_iff_ne, ne_eq]
  rintro rfl
  exact h hc

theorem segments_of_slash_not_mem {path : String} (h : '/' ∉ path.toList) :
    segments path = [path] := split_of_not_mem (ne_slash_of_not_mem h)

theorem segments_append_slash (before after : String) :
    segments (before ++ "/" ++ after) = segments before ++ segments after :=
  split_append_slash rfl before after

theorem segments_join {parts : List String} (hne : parts ≠ [])
    (h : ∀ part ∈ parts, '/' ∉ part.toList) : segments (join "/" parts) = parts :=
  split_join rfl hne fun part hpart => ne_slash_of_not_mem (h part hpart)

theorem join_append {sep : String} {before after : List String} (hb : before ≠ [])
    (ha : after ≠ []) : join sep (before ++ after) = join sep before ++ sep ++ join sep after := by
  induction before with
  | nil => exact absurd rfl hb
  | cons part rest ih =>
    cases rest with
    | nil =>
      obtain ⟨next, tail, rfl⟩ := List.exists_cons_of_ne_nil ha
      rfl
    | cons next rest =>
      have hrest := ih (List.cons_ne_nil _ _)
      simp only [List.cons_append, join] at hrest ⊢
      rw [hrest]
      simp only [String.append_assoc]

theorem toList_join (parts : List String) :
    (join "/" parts).toList = ['/'].intercalate (parts.map String.toList) := by
  have hsep : ("/" : String).toList = ['/'] := rfl
  induction parts with
  | nil => rfl
  | cons part rest ih =>
    cases rest with
    | nil => simp [join]
    | cons next rest =>
      rw [join, String.toList_append, String.toList_append, hsep, ih, List.map_cons,
        List.map_cons, List.map_cons, List.intercalate_cons_cons]
      rintro ⟨⟩

/-- A character of a joined path is a slash or stands in a part. -/
theorem mem_toList_join {c : Char} {parts : List String} (h : c ∈ (join "/" parts).toList) :
    c = '/' ∨ ∃ part ∈ parts, c ∈ part.toList := by
  induction parts with
  | nil => cases h
  | cons part rest ih =>
    cases rest with
    | nil => exact .inr ⟨part, List.mem_cons_self, h⟩
    | cons next rest =>
      rw [join, String.toList_append, String.toList_append, List.mem_append, List.mem_append] at h
      · rcases h with (h | h) | h
        · exact .inr ⟨part, List.mem_cons_self, h⟩
        · exact .inl (List.mem_singleton.mp h)
        · rcases ih h with hslash | ⟨other, hother, hc⟩
          · exact .inl hslash
          · exact .inr ⟨other, List.mem_cons_of_mem _ hother, hc⟩
      · rintro ⟨⟩

/-- A text is the join of its segments. -/
theorem join_segments (path : String) : join "/" (segments path) = path := by
  rw [← String.toList_inj, toList_join, segments, split, List.map_map]
  have hid : String.toList ∘ String.ofList = id := by
    funext cs
    exact String.toList_ofList
  rw [hid, List.map_id]
  exact List.intercalate_splitOn '/'

theorem segments_injective : Function.Injective segments := by
  intro a b h
  rw [← join_segments a, h, join_segments]

/-- A path extends another by whole segments when it continues it after a slash. -/
theorem segments_prefix_iff {path other : String} :
    segments path <+: segments other ↔ other = path ∨ ∃ rest, other = path ++ "/" ++ rest := by
  constructor
  · rintro ⟨tail, htail⟩
    rcases eq_or_ne tail [] with rfl | hne
    · rw [List.append_nil] at htail
      exact .inl (segments_injective htail.symm)
    · refine .inr ⟨join "/" tail, ?_⟩
      calc other = join "/" (segments path ++ tail) := by rw [htail, join_segments]
        _ = path ++ "/" ++ join "/" tail := by
          rw [join_append (segments_ne_nil path) hne, join_segments]
  · rintro (rfl | ⟨rest, rfl⟩)
    · exact List.prefix_refl _
    · rw [segments_append_slash]
      exact List.prefix_append _ _

/-! ## Dot segments -/

/-- A segment that names something: neither empty nor a reference by dots. -/
def isOrdinary (segment : String) : Bool :=
  segment != "" && segment != "." && segment != ".."

/-- One segment resolved onto those before it: empty and `.` segments vanish, `..` takes back
the segment before it. -/
def resolveSegment (done : List String) (segment : String) : List String :=
  if segment = "" ∨ segment = "." then done
  else if segment = ".." then done.dropLast
  else done ++ [segment]

/-- The segments of a path with empty and dot segments resolved away. -/
def resolveSegments (parts : List String) : List String := parts.foldl resolveSegment []

end OpenStrata.Text
