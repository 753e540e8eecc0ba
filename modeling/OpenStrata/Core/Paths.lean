import Mathlib.Data.List.DropRight
import OpenStrata.Core.Segments
import OpenStrata.Platform.OpenUsd

/-!
# Path texts

Paths as the standard library of the host reads them: where one text continues another by whole
components, and how a relative path is joined to a root. Windows separates components by both
slashes.

## Main definitions

* `Path.components`: the components of a path, without empty ones and dots
* `Path.stripPrefix`: what a path adds to a root
* `Path.join`: a root with a relative path

## Main results

* `Path.stripParts_join`: a relative path comes back from the root that it was joined to
-/

namespace OpenStrata.Path

def isSeparator (os : Os) (c : Char) : Bool := c == '/' || (os == .windows && c == '\\')

/-- `str::replace` of backslashes. -/
def slashed (path : String) : String := Text.replaceChar '\\' '/' path

/-- The separator that joining inserts. -/
def separator : Os → String
  | .linux | .macos => "/"
  | .windows => "\\"

/-- A part of a path that is a component: neither empty nor a dot. -/
def isComponent (part : String) : Bool := part != "" && part != "."

/-- What stands between separators. -/
def parts (os : Os) (path : String) : List String := Text.split (isSeparator os) path

def components (os : Os) (path : String) : List String := (parts os path).filter isComponent

/-- The parts that follow the components of a root, from the next component to the last. -/
def stripParts : List String → List String → Option (List String)
  | rest, [] =>
    some ((rest.dropWhile fun part => !isComponent part).rdropWhile fun part => !isComponent part)
  | rest, component :: root =>
    match rest.dropWhile fun part => !isComponent part with
    | [] => none
    | part :: rest => if part = component then stripParts rest root else none

def isRooted (os : Os) (path : String) : Bool := path.toList.head?.any (isSeparator os)

/-- `Path::strip_prefix` of an absolute root, with forward slashes. -/
def stripPrefix (os : Os) (root path : String) : Option String :=
  if isRooted os path = isRooted os root then
    (stripParts (parts os path) (components os root)).map fun rest => slashed (Text.join "/" rest)
  else none

/-- `Path::join` of a relative path. -/
def join (os : Os) (root relative : String) : String :=
  if root.toList.getLast?.all (isSeparator os) then root ++ relative
  else root ++ separator os ++ relative

theorem toList_slashed (path : String) :
    (slashed path).toList = path.toList.map fun c => if c = '\\' then '/' else c :=
  Text.toList_replaceChar _ _ path

theorem slashed_append (a b : String) : slashed (a ++ b) = slashed a ++ slashed b := by
  rw [← String.toList_inj]
  simp [toList_slashed]

theorem backslash_not_mem_slashed (path : String) : '\\' ∉ (slashed path).toList := by
  intro hmem
  rw [toList_slashed] at hmem
  obtain ⟨c, -, hc⟩ := List.mem_map.mp hmem
  split_ifs at hc with h
  · cases hc
  · exact h hc

/-! ## Relative parts -/

/-- Backslashes stand only where they separate. -/
def Plain (os : Os) (path : String) : Prop := os ≠ .windows → '\\' ∉ path.toList

section Relative

variable {os : Os} {root path relative : String}

theorem slashed_eq_self (h : '\\' ∉ path.toList) : slashed path = path := by
  rw [← String.toList_inj]
  rw [toList_slashed]
  refine (List.map_congr_left fun c hc => ?_).trans (List.map_id path.toList)
  refine if_neg ?_
  rintro rfl
  exact h hc

theorem dropWhile_filter (parts : List String) :
    (parts.dropWhile fun part => !isComponent part).filter isComponent =
      parts.filter isComponent := by
  induction parts with
  | nil => rfl
  | cons part parts ih =>
    by_cases h : isComponent part
    · rw [List.dropWhile_cons_of_neg (by simp [h])]
    · rw [List.dropWhile_cons_of_pos (by simp [h]), ih, List.filter_cons_of_neg h]

/-- A root that is not empty is stripped one component at a time. -/
theorem stripParts_cons {component : String} {root parts rest : List String}
    (h : stripParts parts (component :: root) = some rest) :
    ∃ others, (parts.dropWhile fun part => !isComponent part) = component :: others ∧
      stripParts others root = some rest := by
  rw [stripParts] at h
  cases hdrop : parts.dropWhile fun part => !isComponent part with
  | nil =>
    rw [hdrop] at h
    cases h
  | cons part others =>
    rw [hdrop] at h
    replace h : (if part = component then stripParts others root else none) = some rest := h
    split_ifs at h with heq
    exact ⟨others, by rw [heq], h⟩

/-- What the components of a root are stripped from begins with them. -/
theorem prefix_of_stripParts {root : List String} : ∀ {parts rest : List String},
    stripParts parts root = some rest → root <+: parts.filter isComponent := by
  induction root with
  | nil => exact fun _ => List.nil_prefix
  | cons component root ih =>
    intro parts rest h
    obtain ⟨others, hdrop, hrest⟩ := stripParts_cons h
    have hcomponent : isComponent component := by
      have := List.head?_dropWhile_not (fun part => !isComponent part) parts
      rw [hdrop] at this
      simpa using this
    rw [← dropWhile_filter, hdrop, List.filter_cons_of_pos hcomponent]
    exact List.cons_prefix_cons.mpr ⟨rfl, ih hrest⟩

theorem prefix_of_stripPrefix (h : stripPrefix os root path = some relative) :
    components os root <+: components os path := by
  rw [stripPrefix] at h
  split_ifs at h with hrooted
  obtain ⟨rest, hrest, -⟩ := Option.map_eq_some_iff.mp h
  exact prefix_of_stripParts hrest

theorem stripParts_cons_of_not_component {part : String} (h : ¬ isComponent part)
    (parts root : List String) : stripParts (part :: parts) root = stripParts parts root := by
  cases root with
  | nil => rw [stripParts, stripParts, List.dropWhile_cons_of_pos (by simp [h])]
  | cons component root => rw [stripParts, stripParts, List.dropWhile_cons_of_pos (by simp [h])]

theorem stripParts_cons_of_component {part : String} (h : isComponent part)
    (parts root : List String) : stripParts (part :: parts) (part :: root) = stripParts parts root := by
  rw [stripParts, List.dropWhile_cons_of_neg (by simp [h])]
  exact if_pos rfl

theorem stripParts_append (parts rest : List String) :
    stripParts (parts ++ rest) (parts.filter isComponent) = stripParts rest [] := by
  induction parts with
  | nil => rfl
  | cons part parts ih =>
    by_cases h : isComponent part
    · rw [List.filter_cons_of_pos h, List.cons_append, stripParts_cons_of_component h, ih]
    · rw [List.filter_cons_of_neg h, List.cons_append, stripParts_cons_of_not_component h, ih]

theorem isSeparator_slash (os : Os) : isSeparator os '/' := rfl

/-- The parts of a joined path: those of the root, without an empty last one, then the others. -/
theorem parts_join (os : Os) (root : String) : ∃ before : List String,
    (parts os root = before ∨ parts os root = before ++ [""]) ∧
      ∀ relative, parts os (join os root relative) = before ++ parts os relative := by
  by_cases hlast : root.toList.getLast?.all (isSeparator os)
  · rcases List.eq_nil_or_concat root.toList with hnil | ⟨cs, c, hconcat⟩
    · obtain rfl : root = "" := String.toList_eq_nil_iff.mp hnil
      exact ⟨[], .inr rfl, fun relative => by rw [join, if_pos hlast, String.empty_append]; rfl⟩
    · have hc : isSeparator os c := by simpa [hconcat] using hlast
      have hroot : root = String.ofList cs ++ String.singleton c := by
        rw [← String.toList_inj, hconcat]
        simp
      have hsep : (String.singleton c).toList = [c] := by simp
      refine ⟨parts os (String.ofList cs), ?_, fun relative => ?_⟩
      · have hparts := Text.split_append_char hc hsep (String.ofList cs) ""
        rw [String.append_empty, ← hroot] at hparts
        exact .inr hparts
      · rw [join, if_pos hlast, hroot]
        exact Text.split_append_char hc hsep _ _
  · refine ⟨parts os root, .inl rfl, fun relative => ?_⟩
    rw [join, if_neg hlast]
    cases os with
    | windows => exact Text.split_append_char (c := '\\') rfl rfl _ _
    | linux => exact Text.split_append_char (c := '/') rfl rfl _ _
    | macos => exact Text.split_append_char (c := '/') rfl rfl _ _

/-- An empty last part is no component. -/
theorem components_of_parts {before : List String}
    (h : parts os path = before ∨ parts os path = before ++ [""]) :
    components os path = before.filter isComponent := by
  rcases h with h | h
  · rw [components, h]
  · rw [components, h, List.filter_append, show [""].filter isComponent = [] by decide,
      List.append_nil]

/-- The components of a joined path are those of the root, then the others. -/
theorem components_join (os : Os) (root relative : String) :
    components os (join os root relative) = components os root ++ components os relative := by
  obtain ⟨before, hbefore, hparts⟩ := parts_join os root
  rw [components, hparts, List.filter_append, components_of_parts hbefore, components]

/-- Slashes for backslashes leave the parts as they are. -/
theorem parts_slashed (h : Plain os path) : parts os (slashed path) = parts os path := by
  by_cases hos : os = .windows
  · subst hos
    rw [parts, parts, Text.split, Text.split, toList_slashed]
    congr 1
    generalize path.toList = cs
    induction cs with
    | nil => rfl
    | cons c cs ih =>
      rw [List.map_cons, List.splitOnP_cons_eq_if_modifyHead,
        List.splitOnP_cons_eq_if_modifyHead, ih]
      by_cases hc : c = '\\'
      · simp [hc, isSeparator]
      · simp [hc]
  · rw [slashed_eq_self (h hos)]

theorem components_slashed (h : Plain os path) :
    components os (slashed path) = components os path := by
  rw [components, components, parts_slashed h]

/-- Parts that begin and end with a component. -/
structure Trimmed (os : Os) (parts : List String) : Prop where
  head : ∀ part ∈ parts.head?, isComponent part
  last : ∀ part ∈ parts.getLast?, isComponent part
  whole : ∀ part ∈ parts, ∀ c ∈ part.toList, isSeparator os c = false

theorem stripParts_of_trimmed {parts : List String} (h : Trimmed os parts) :
    stripParts parts [] = some parts := by
  have hdrop : parts.dropWhile (fun part => !isComponent part) = parts := by
    cases parts with
    | nil => rfl
    | cons part rest => exact List.dropWhile_cons_of_neg (by simp [h.head part rfl])
  rw [stripParts, hdrop, List.rdropWhile_eq_self_iff.mpr fun hne => ?_]
  simpa using h.last _ (List.getLast?_eq_some_getLast hne)

theorem mem_of_stripParts {root : List String} : ∀ {parts rest : List String},
    stripParts parts root = some rest → ∀ part ∈ rest, part ∈ parts := by
  induction root with
  | nil =>
    intro parts rest h part hpart
    obtain rfl := Option.some.inj h
    exact (List.dropWhile_suffix _).mem ((List.rdropWhile_prefix _ _).mem hpart)
  | cons component root ih =>
    intro parts rest h part hpart
    obtain ⟨others, hdrop, hrest⟩ := stripParts_cons h
    apply (List.dropWhile_suffix fun part => !isComponent part).mem
    rw [hdrop]
    exact List.mem_cons_of_mem _ (ih hrest part hpart)

theorem trimmed_of_stripParts {root : List String} : ∀ {parts rest : List String},
    (∀ part ∈ parts, ∀ c ∈ part.toList, isSeparator os c = false) →
      stripParts parts root = some rest → Trimmed os rest := by
  induction root with
  | nil =>
    intro parts rest hwhole h
    refine ⟨fun part hpart => ?_, fun part hpart => ?_,
      fun part hpart => hwhole part (mem_of_stripParts h part hpart)⟩
    all_goals obtain rfl := Option.some.inj h
    · obtain ⟨tail, htail⟩ := List.rdropWhile_prefix (fun part => !isComponent part)
        (parts.dropWhile fun part => !isComponent part)
      have hhead : part ∈ (parts.dropWhile fun part => !isComponent part).head? := by
        rw [← htail, List.head?_append, hpart]
        rfl
      have := List.head?_dropWhile_not (fun part => !isComponent part) parts
      rw [hhead] at this
      simpa using this
    · have hne : (parts.dropWhile fun part => !isComponent part).rdropWhile
          (fun part => !isComponent part) ≠ [] := by
        intro hnil
        rw [hnil] at hpart
        cases hpart
      have hlast := List.rdropWhile_last_not _ _ hne
      obtain rfl := Option.some.inj ((List.getLast?_eq_some_getLast hne).symm.trans hpart)
      simpa using hlast
  | cons component root ih =>
    intro parts rest hwhole h
    obtain ⟨others, hdrop, hrest⟩ := stripParts_cons h
    refine ih (fun part hpart => hwhole part ?_) hrest
    apply (List.dropWhile_suffix fun part => !isComponent part).mem
    rw [hdrop]
    exact List.mem_cons_of_mem _ hpart

/-- A relative path comes back from the root that it was joined to. -/
theorem stripParts_join {rest : List String} (hne : rest ≠ []) (h : Trimmed os rest) :
    stripParts (parts os (join os root (Text.join "/" rest))) (components os root) = some rest := by
  obtain ⟨before, hbefore, hparts⟩ := parts_join os root
  rw [components_of_parts hbefore, hparts, stripParts_append, parts,
    Text.split_join (isSeparator_slash os) hne h.whole, stripParts_of_trimmed h]

theorem stripParts_root : stripParts (parts os root) (components os root) = some [] := by
  have h := stripParts_append (parts os root) []
  rw [List.append_nil] at h
  rw [components, h]
  rfl

end Relative

end OpenStrata.Path
