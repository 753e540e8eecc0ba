import OpenStrata.Core.Parts
import OpenStrata.Formation.Composition
import OpenStrata.Lib.ZeroPadded
import OpenStrata.Plugin.Version

/-!
# The grammar of version ranges

The comparators of a range are read one by one while they are evaluated, and reading stops at the
first that fails. A malformed comparator behind one that fails is then not seen: whether a range
is refused depends on the version it is checked for, and on the order of its comparators, unless
every comparator in front of a malformed one holds for all versions.

## Main definitions

* `Version.comparators`: the comparators of a range, trimmed, without blank ones
* `Version.Malformed`, `Version.AlwaysMet`: comparators that cannot be read, and those that every
  version meets
* `Version.LawfulGrammar`: refusal depends on the comparators alone

## Main results

* `Version.satisfiesParts_raises`: a range is refused at its first malformed comparator, when
  those in front of it hold
* `Version.lawfulGrammar_iff`: the ranges whose refusal depends on their comparators alone
-/

namespace OpenStrata.Version

open ZeroPadded RuntimeComposition

/-- The operand of a comparator, read as a version. -/
def bound (part : String) : Option (List Nat) := parse (splitOp part).2

/-- A comparator that cannot be read. -/
def Malformed (part : String) : Prop := bound part = none

/-- A version meets a comparator that can be read. -/
def Meets (version : List Nat) (part : String) : Prop :=
  ∃ b ∈ bound part, holds (splitOp part).1 (Version.cmp version b)

/-- A comparator that asks for nothing: at least zero. -/
def AlwaysMet (part : String) : Prop :=
  (splitOp part).1 = ">=" ∧ ∃ b ∈ bound part, ∀ n ∈ b, n = 0

/-- The comparators among the parts of a range, trimmed, without blank ones. -/
def comparatorsOf (parts : List String) : List String :=
  (parts.map Text.trim).filter fun part => !part.isEmpty

/-- The comparators of a range. -/
def comparators (range : String) : List String := comparatorsOf (Text.split (· == ',') range)

/-- The range cannot be decided for the version. -/
def Raises (version range : String) : Prop := ∃ e, satisfies version range = .error e

/-- A malformed comparator is reached: those in front of it are met. -/
def Reached (version : List Nat) : List String → Prop
  | [] => False
  | part :: parts => Malformed part ∨ Meets version part ∧ Reached version parts

/-! ## Reading the comparators in order -/

section Reading

variable {range part : String} {version : List Nat} {parts : List String}

theorem comparatorsOf_cons_blank (h : (Text.trim part).isEmpty) :
    comparatorsOf (part :: parts) = comparatorsOf parts := by
  simp [comparatorsOf, h]

theorem comparatorsOf_cons (h : (Text.trim part).isEmpty = false) :
    comparatorsOf (part :: parts) = Text.trim part :: comparatorsOf parts := by
  simp [comparatorsOf, h]

attribute [local irreducible] splitOp parse Version.cmp holds Text.trim

theorem satisfiesParts_cons : satisfiesParts range version (part :: parts) =
    if (Text.trim part).isEmpty then satisfiesParts range version parts
    else
      match bound (Text.trim part) with
      | none => .error (.badRange range)
      | some b =>
        if holds (splitOp (Text.trim part)).1 (Version.cmp version b) then
          satisfiesParts range version parts
        else .ok false := rfl

/-- A range is refused exactly when a malformed comparator is reached. -/
theorem satisfiesParts_raises :
    (∃ e, satisfiesParts range version parts = .error e) ↔
      Reached version (comparatorsOf parts) := by
  induction parts with
  | nil =>
    have hnil : satisfiesParts range version [] = .ok true := rfl
    simp [hnil, comparatorsOf, Reached]
  | cons part parts ih =>
    rw [satisfiesParts_cons]
    by_cases hblank : (Text.trim part).isEmpty
    · rw [comparatorsOf_cons_blank hblank, ← ih, if_pos hblank]
    · rw [comparatorsOf_cons (by simpa using hblank), Reached, Malformed, Meets, ← ih,
        if_neg hblank]
      cases hbound : bound (Text.trim part) with
      | none => simp
      | some b =>
        by_cases hholds : holds (splitOp (Text.trim part)).1 (Version.cmp version b)
        · simp [hholds]
        · simp [hholds]

theorem raises_iff {text : String} (h : parse text = some version) :
    Raises text range ↔ Reached version (comparators range) := by
  rw [Raises, satisfies, h]
  exact satisfiesParts_raises

end Reading

/-! ## Comparators that every version meets -/

section Met

variable {part : String} {version b : List Nat}

theorem cmp_eq (xs ys : List Nat) : Version.cmp xs ys = ZeroPadded.cmp xs ys := by
  induction xs generalizing ys with
  | nil => rfl
  | cons x xs ih => exact congrArg _ (ih ys.tail)

/-- The operator of a comparator is one of the table. -/
theorem splitOp_mem (part : String) : (splitOp part).1 ∈ operators := by
  unfold splitOp
  split
  · next op rest h =>
    obtain ⟨op', hmem, hop⟩ := List.exists_of_findSome?_eq_some h
    obtain ⟨rest', -, heq⟩ := Option.map_eq_some_iff.mp hop
    cases heq
    exact hmem
  · simp [operators]

/-- The operator that the table names. -/
def comparison (op : String) : Comparison :=
  if op = ">=" then .atLeast
  else if op = "<=" then .atMost
  else if op = ">" then .above
  else if op = "<" then .below
  else .exactly

theorem holds_iff (op : String) (xs ys : List Nat) :
    holds op (Version.cmp xs ys) ↔ (comparison op).Relates (components xs) (components ys) := by
  rw [cmp_eq, ← accepts_cmp_iff, holds, comparison]
  split_ifs <;> rfl

theorem components_nil_le (l : List Nat) : components [] ≤ components l :=
  components_le_of_isPrefix Nat.zero_le List.nil_prefix

theorem components_zero_eq : components [0] = components ([] : List Nat) :=
  components_eq_nil_iff.mpr (by simp)

theorem meets_of_alwaysMet (h : AlwaysMet part) (version : List Nat) : Meets version part := by
  obtain ⟨hop, b, hb, hzero⟩ := h
  refine ⟨b, hb, ?_⟩
  rw [holds_iff, hop, components_eq_nil_iff.mpr hzero]
  exact components_nil_le version

/-- A component behind the others makes a list larger. -/
theorem components_lt_concat (l : List Nat) : components l < components (l ++ [1]) := by
  refine lt_of_le_of_ne
    (components_le_of_isPrefix Nat.zero_le (List.prefix_append l [1])) fun h => ?_
  have hcomponent := congrFun h l.length
  have hone : ofLex (components (l ++ [1])) l.length = 1 := components_concat l 1
  have hzero : ofLex (components l) l.length = 0 := components_length l
  exact absurd (hzero.symm.trans (hcomponent.trans hone)) Nat.zero_ne_one

/-- A version with one more component behind it. -/
theorem parse_append_one {text : String} (h : parse text = some b) :
    parse (Text.trim text ++ ".1") = some (b ++ [1]) := by
  have hread (v : String) : parse v = if (Text.trim v).isEmpty then none
      else (Text.split (· == '.') (Text.trim v)).mapM fun p => Text.parseU64 (Text.trim p) := rfl
  rw [hread] at h ⊢
  split_ifs at h with hempty
  obtain ⟨c, rest, hcs⟩ := List.exists_cons_of_ne_nil
    (String.toList_eq_nil_iff.not.mpr (by simpa using hempty))
  have htrimmed : Text.IsTrimmed (Text.trim text ++ ".1").toList := by
    constructor
    · intro d hd
      rw [String.toList_append, hcs] at hd
      refine (Text.isTrimmed_trim text).1 d ?_
      rw [hcs]
      exact hd
    · intro d hd
      rw [String.toList_append, show (".1" : String).toList = ['.', '1'] from rfl] at hd
      simp at hd
      subst hd
      rfl
  have hone : (["1"] : List String).mapM (fun p => Text.parseU64 (Text.trim p)) = some [1] := by decide
  have hsplit : Text.split (· == '.') (Text.trim text ++ ".1") =
      Text.split (· == '.') (Text.trim text) ++ ["1"] := by
    have hsep : ("." : String).toList = ['.'] := rfl
    have hdot : (".1" : String) = "." ++ "1" := by decide
    have hlast : Text.split (· == '.') "1" = ["1"] := by decide
    rw [hdot, ← String.append_assoc, Text.split_append_char (p := (· == '.')) (by rfl) hsep, hlast]
  rw [Text.trim_eq_self htrimmed, if_neg (by simp), hsplit, List.mapM_append, h]
  simp only [Option.bind_eq_bind, Option.bind_some, hone]
  rfl

/-- Some version does not meet a comparator that asks for something. -/
theorem exists_not_meets (hbound : bound part = some b) (halways : ¬ AlwaysMet part) :
    ∃ text version, parse text = some version ∧ ¬ Meets version part := by
  have hmeets (v : List Nat) : Meets v part ↔
      (comparison (splitOp part).1).Relates (components v) (components b) := by
    rw [Meets, hbound, ← holds_iff]
    simp
  have hzero : parse "0" = some [0] := by decide
  have hop := splitOp_mem part
  simp only [operators, List.mem_cons, List.not_mem_nil, or_false] at hop
  rcases hop with hop | hop | hop | hop | hop | hop
  · -- At least something: zero is below it.
    refine ⟨"0", [0], hzero, fun h => halways ⟨hop, b, hbound, ?_⟩⟩
    rw [hmeets, hop, components_zero_eq] at h
    exact components_eq_nil_iff.mp (le_antisymm h (components_nil_le b))
  · refine ⟨_, _, parse_append_one hbound, fun h => ?_⟩
    rw [hmeets, hop] at h
    exact not_lt_of_ge h (components_lt_concat b)
  · refine ⟨_, _, parse_append_one hbound, fun h => ?_⟩
    rw [hmeets, hop] at h
    exact (components_lt_concat b).ne' h
  · refine ⟨"0", [0], hzero, fun h => ?_⟩
    rw [hmeets, hop, components_zero_eq] at h
    exact not_lt_of_ge (components_nil_le b) h
  · refine ⟨_, b, hbound, fun h => ?_⟩
    rw [hmeets, hop] at h
    exact lt_irrefl _ h
  · refine ⟨_, _, parse_append_one hbound, fun h => ?_⟩
    rw [hmeets, hop] at h
    exact (components_lt_concat b).ne' h

end Met

/-! ## Ranges whose refusal depends on their comparators alone -/

section Lawful

variable {range range' part : String} {version : List Nat} {parts : List String}

/-- Whether a range is refused depends on its comparators alone: not on the version, not on their
order. A requirement that passes its check is then never refused for its range, and one with a
malformed comparator does not pass. -/
structure LawfulGrammar (range : String) : Prop where
  raises_iff : ∀ {text text' range' : String}, (parse text).isSome → (parse text').isSome →
    (Text.split (· == ',') range').Perm (Text.split (· == ',') range) →
    (Raises text range ↔ Raises text' range')
  accepted : ∀ {requirement : CapabilityRequirement} {text : String},
    requirement.version = some range → validateRequirement requirement = .ok () →
    (parse text).isSome → ¬ Raises text range
  rejected : ∀ {requirement : CapabilityRequirement}, requirement.version = some range →
    (∃ part ∈ comparators range, Malformed part) → ∃ e, validateRequirement requirement = .error e

theorem exists_malformed_of_reached (h : Reached version parts) :
    ∃ part ∈ parts, Malformed part := by
  induction parts with
  | nil => cases h
  | cons part parts ih =>
    rcases h with hmalformed | ⟨-, hrest⟩
    · exact ⟨part, List.mem_cons_self, hmalformed⟩
    · obtain ⟨other, hother, hmalformed⟩ := ih hrest
      exact ⟨other, List.mem_cons_of_mem _ hother, hmalformed⟩

/-- Where every comparator that can be read is always met, none hides a malformed one. -/
theorem reached_of_alwaysMet (h : ∀ part ∈ parts, Malformed part ∨ AlwaysMet part)
    (hmalformed : ∃ part ∈ parts, Malformed part) : Reached version parts := by
  induction parts with
  | nil =>
    obtain ⟨part, hpart, -⟩ := hmalformed
    cases hpart
  | cons first parts ih =>
    rcases h first List.mem_cons_self with hfirst | hfirst
    · exact .inl hfirst
    · obtain ⟨part, hpart, hbad⟩ := hmalformed
      rcases List.mem_cons.mp hpart with rfl | hpart
      · exact .inl hbad
      · exact .inr ⟨meets_of_alwaysMet hfirst version,
          ih (fun p hp => h p (List.mem_cons_of_mem _ hp)) ⟨part, hpart, hbad⟩⟩

theorem perm_comparators
    (h : (Text.split (· == ',') range').Perm (Text.split (· == ',') range)) :
    (comparators range').Perm (comparators range) := (h.map Text.trim).filter _

/-- Any comparator of a range can be written first. -/
theorem exists_reordered (hpart : part ∈ comparators range) : ∃ range' rest,
    (Text.split (· == ',') range').Perm (Text.split (· == ',') range) ∧
      comparators range' = part :: rest := by
  obtain ⟨hmem, hblank⟩ := List.mem_filter.mp hpart
  obtain ⟨raw, hraw, rfl⟩ := List.mem_map.mp hmem
  have hperm := (List.perm_cons_erase hraw).symm
  have hcomma : ∀ p ∈ raw :: (Text.split (· == ',') range).erase raw, ',' ∉ p.toList := by
    intro p hp hc
    simpa using Text.not_mem_of_mem_split (hperm.mem_iff.mp hp) ',' hc
  have hsep : (",").toList = [','] := rfl
  have hsplit := Text.split_join_char hsep (List.cons_ne_nil _ _) hcomma
  refine ⟨_, comparatorsOf ((Text.split (· == ',') range).erase raw), hsplit.symm ▸ hperm, ?_⟩
  rw [comparators, hsplit, comparatorsOf_cons (by simpa using hblank)]

theorem raises_zero_iff : Raises "0" range ↔ ∃ e, versionSatisfies "0" range = .error e := by
  rw [Raises, versionSatisfies]
  cases satisfies "0" range <;> simp

theorem not_raises_zero_of_accepted {requirement : CapabilityRequirement}
    (hversion : requirement.version = some range)
    (haccepted : validateRequirement requirement = .ok ()) : ¬ Raises "0" range := by
  obtain ⟨-, -, haccepted⟩ := Result.bind_ok.mp haccepted
  obtain ⟨-, -, haccepted⟩ := Result.bind_ok.mp haccepted
  rw [hversion] at haccepted
  obtain ⟨-, -, haccepted⟩ := Result.bind_ok.mp haccepted
  obtain ⟨decided, hdecided, -⟩ := Result.bind_ok.mp haccepted
  rw [raises_zero_iff]
  rintro ⟨e, he⟩
  rw [hdecided] at he
  cases he

theorem parse_zero : parse "0" = some [0] := by decide

/-- A range is lawful when being refused is having a malformed comparator. -/
theorem lawfulGrammar_of_reached (h : ∀ range',
    (Text.split (· == ',') range').Perm (Text.split (· == ',') range) → ∀ version,
      (Reached version (comparators range') ↔ ∃ part ∈ comparators range, Malformed part)) :
    LawfulGrammar range where
  raises_iff := by
    intro text text' range' htext htext' hperm
    obtain ⟨version, hversion⟩ := Option.isSome_iff_exists.mp htext
    obtain ⟨version', hversion'⟩ := Option.isSome_iff_exists.mp htext'
    rw [raises_iff hversion, raises_iff hversion', h range (.refl _), h range' hperm]
  accepted := by
    intro requirement text hrequirement haccepted htext hraises
    obtain ⟨version, hversion⟩ := Option.isSome_iff_exists.mp htext
    rw [raises_iff hversion, h range (.refl _), ← h range (.refl _) [0],
      ← raises_iff parse_zero] at hraises
    exact not_raises_zero_of_accepted hrequirement haccepted hraises
  rejected := by
    intro requirement hrequirement hmalformed
    rw [← h range (.refl _) [0], ← raises_iff parse_zero] at hmalformed
    cases hvalidate : validateRequirement requirement with
    | error e => exact ⟨e, rfl⟩
    | ok _ => exact absurd hmalformed (not_raises_zero_of_accepted hrequirement hvalidate)

/-- **Lawful ranges.** Whether a range is refused depends on its comparators alone exactly when
none of them is malformed, or each of them is malformed or asks for nothing. -/
theorem lawfulGrammar_iff (range : String) : LawfulGrammar range ↔
    (∀ part ∈ comparators range, ¬ Malformed part) ∨
      ∀ part ∈ comparators range, Malformed part ∨ AlwaysMet part := by
  constructor
  · intro hlawful
    by_contra hneither
    push Not at hneither
    obtain ⟨⟨bad, hbad, hmalformed⟩, part, hpart, hreadable, halways⟩ := hneither
    obtain ⟨b, hbound⟩ := Option.ne_none_iff_exists'.mp hreadable
    obtain ⟨text, version, hversion, hmeets⟩ := exists_not_meets hbound halways
    have htext : (parse text).isSome := by rw [hversion]; rfl
    -- With the comparator that fails in front the range is decided, with the malformed one not.
    obtain ⟨decided, rest, hdecided, hfirst⟩ := exists_reordered hpart
    obtain ⟨refused, rest', hrefused, hfirst'⟩ := exists_reordered hbad
    have hraises := (hlawful.raises_iff htext htext hrefused).mpr (by
      rw [raises_iff hversion, hfirst']
      exact .inl hmalformed)
    rw [hlawful.raises_iff htext htext hdecided, raises_iff hversion, hfirst] at hraises
    rcases hraises with h | ⟨h, -⟩
    · exact hreadable h
    · exact hmeets h
  · rintro (hreadable | halways)
    · refine lawfulGrammar_of_reached fun range' hperm version => ?_
      have hcomparators := perm_comparators hperm
      constructor
      · intro hreached
        obtain ⟨part, hpart, hmalformed⟩ := exists_malformed_of_reached hreached
        exact ⟨part, hcomparators.mem_iff.mp hpart, hmalformed⟩
      · rintro ⟨part, hpart, hmalformed⟩
        exact absurd hmalformed (hreadable part hpart)
    · refine lawfulGrammar_of_reached fun range' hperm version => ?_
      have hcomparators := perm_comparators hperm
      constructor
      · intro hreached
        obtain ⟨part, hpart, hmalformed⟩ := exists_malformed_of_reached hreached
        exact ⟨part, hcomparators.mem_iff.mp hpart, hmalformed⟩
      · rintro ⟨part, hpart, hmalformed⟩
        refine reached_of_alwaysMet (fun p hp => halways p (hcomparators.mem_iff.mp hp)) ?_
        exact ⟨part, hcomparators.mem_iff.mpr hpart, hmalformed⟩

/-- A malformed comparator behind one that zero does not meet passes the check of a requirement,
and is refused for a version that meets the first. -/
theorem malformed_comparator_hidden :
    validateRequirement { capability := "usd.stage", version := some ">=1,abc", provider := none } =
      .ok () ∧
    satisfies "0" ">=1,abc" = .ok false ∧
    satisfies "2" ">=1,abc" = .error (.badRange ">=1,abc") ∧
    satisfies "0" "abc,>=1" = .error (.badRange "abc,>=1") := by
  decide

end Lawful

end OpenStrata.Version
