import OpenStrata.Core.Parts
import OpenStrata.Lib.ZeroPadded
import OpenStrata.Platform.Selector

/-!
# Constraints on provider versions and their verdicts

A constraint is a dotted prefix, or an operator in front of a version that observed versions are
compared with. A wildcard after an operator is dropped, so that `<=17.x` compares with `17` as
`>=17.x` does. The gate of a compatibility cell and the explanation of its refusal read these
constraints separately; they take the same decision.

## Main definitions

* `operatorSymbol`: how an operator is written
* `IsDotted`: a dotted numeric text with its components

## Main results

* `versionSatisfiesConstraint_of_floor`: an operator compares with the floor of its operand
* `wildcard_constraint_iff`: what wildcards mean under every operator
* `isVerified_iff_no_failure`: the verdict and its explanation agree
-/

namespace OpenStrata

open ZeroPadded Text

/-- How an operator is written. -/
def operatorSymbol : Comparison → String
  | .atLeast => ">="
  | .atMost => "<="
  | .above => ">"
  | .below => "<"
  | .exactly => "="

/-- A dotted numeric text without white space around it, and its components. -/
def IsDotted (value : String) (components : List Nat) : Prop :=
  trim value = value ∧ numericVersion value = some components

/-! ## Numeric versions -/

section Numeric

variable {value : String} {components : List Nat} {part : String} {parts : List String}

/-- The reading of one component. -/
def numericPart (part : String) : Option Nat :=
  if !part.isEmpty && Text.all Char.isDigit part then parseU64 part else none

theorem numericVersion_eq_some : numericVersion value = some components ↔
    trim value ≠ "" ∧ (split (· == '.') (trim value)).mapM numericPart = some components := by
  have hread : numericVersion value = if (trim value).isEmpty then none
      else (split (· == '.') (trim value)).mapM numericPart := rfl
  rw [hread]
  by_cases hempty : trim value = ""
  · simp [hempty]
  · rw [if_neg (by simpa using hempty), and_iff_right hempty]

theorem numericPart_eq_some {n : Nat} : numericPart part = some n ↔
    part ≠ "" ∧ Text.all Char.isDigit part ∧ parseU64 part = some n := by
  simp [numericPart, and_assoc]

theorem exists_numericPart (h : parts.mapM numericPart = some components) (hpart : part ∈ parts) :
    ∃ n, numericPart part = some n := by
  induction parts generalizing components with
  | nil => cases hpart
  | cons first rest ih =>
    simp only [List.mapM_cons, Option.bind_eq_bind, Option.bind_eq_some_iff] at h
    obtain ⟨n, hfirst, others, hrest, -⟩ := h
    rcases List.mem_cons.mp hpart with rfl | hpart
    · exact ⟨n, hfirst⟩
    · exact ih hrest hpart

theorem isWildcard_of_numericPart {n : Nat} (h : numericPart part = some n) :
    isWildcard part = false := by
  by_contra hwild
  have hdigits := (numericPart_eq_some.mp h).2.1
  simp only [isWildcard, Bool.or_eq_true, beq_iff_eq, Bool.not_eq_false] at hwild
  rcases hwild with (rfl | rfl) | rfl
  · cases hdigits
  · cases hdigits
  · cases hdigits

theorem not_isWildcard_of_mem (h : numericVersion value = some components)
    (hpart : part ∈ split (· == '.') (trim value)) : isWildcard part = false := by
  obtain ⟨n, hn⟩ := exists_numericPart (numericVersion_eq_some.mp h).2 hpart
  exact isWildcard_of_numericPart hn

/-- A numeric version has digits and dots only. -/
theorem isDigit_of_mem (h : numericVersion value = some components) {c : Char}
    (hc : c ∈ (trim value).toList) : c = '.' ∨ c.isDigit := by
  have hmem := mem_split_of_mem (p := (· == '.')) hc
  rcases hmem with hdot | ⟨part, hpart, hmem⟩
  · exact .inl (by simpa using hdot)
  · obtain ⟨n, hn⟩ := exists_numericPart (numericVersion_eq_some.mp h).2 hpart
    exact .inr (List.all_eq_true.mp (numericPart_eq_some.mp hn).2.1 c hmem)

theorem numericVersion_trim (value : String) : numericVersion (trim value) = numericVersion value := by
  rw [numericVersion, numericVersion, trim_trim]

end Numeric

/-! ## The floor of an operand -/

section Floor

variable {value base wildcard : String} {components : List Nat}

/-- The floor of a version without wildcards is the version. -/
theorem comparisonFloorVersion_of_numeric (h : numericVersion value = some components) :
    comparisonFloorVersion value = some components := by
  have hall : ∀ part ∈ split (· == '.') (trim value), (!isWildcard part) = true := by
    intro part hpart
    rw [not_isWildcard_of_mem h hpart]
    rfl
  rw [comparisonFloorVersion, List.takeWhile_eq_self_iff.mpr hall, join_split rfl,
    numericVersion_trim, h]

theorem isTrimmed_wildcard (hbase : IsDotted base components) (hwildcard : isWildcard wildcard) :
    IsTrimmed (base ++ "." ++ wildcard).toList := by
  have hstart := isTrimmed_trim base
  rw [hbase.1] at hstart
  have hne : base ≠ "" := hbase.1 ▸ (numericVersion_eq_some.mp hbase.2).1
  obtain ⟨c, rest, hcs⟩ := List.exists_cons_of_ne_nil (String.toList_eq_nil_iff.not.mpr hne)
  have hfirst : isWhitespace c = false := hstart.1 c (by rw [hcs]; rfl)
  simp only [isWildcard, Bool.or_eq_true, beq_iff_eq] at hwildcard
  constructor
  · intro d hd
    simp only [String.toList_append, hcs] at hd
    cases hd
    exact hfirst
  · intro d hd
    rcases hwildcard with (rfl | rfl) | rfl
    all_goals
      simp only [String.toList_append] at hd
      simp at hd
      subst hd
      decide

theorem split_wildcard (hwildcard : isWildcard wildcard) :
    split (· == '.') (base ++ "." ++ wildcard) = split (· == '.') base ++ [wildcard] := by
  have hdot : split (· == '.') wildcard = [wildcard] := by
    simp only [isWildcard, Bool.or_eq_true, beq_iff_eq] at hwildcard
    rcases hwildcard with (rfl | rfl) | rfl
    all_goals exact split_of_not_mem (by simp)
  rw [split_append_char (c := '.') (by simp) rfl, hdot]

/-- The floor of a version with a trailing wildcard is what stands before the wildcard. -/
theorem comparisonFloorVersion_wildcard (hbase : IsDotted base components)
    (hwildcard : isWildcard wildcard) :
    comparisonFloorVersion (base ++ "." ++ wildcard) = some components := by
  have hall : ∀ part ∈ split (· == '.') base, (!isWildcard part) = true := by
    intro part hpart
    rw [← hbase.1] at hpart
    rw [not_isWildcard_of_mem hbase.2 hpart]
    rfl
  rw [comparisonFloorVersion, trim_eq_self (isTrimmed_wildcard hbase hwildcard),
    split_wildcard hwildcard, List.takeWhile_append_of_pos hall,
    List.takeWhile_cons_of_neg (by simp [hwildcard]), List.append_nil, join_split rfl, hbase.2]

end Floor

/-! ## The operators -/

section Operators

variable {version operand base wildcard : String} {observed required : List Nat}

theorem compareNumericVersions_eq (xs ys : List Nat) : compareNumericVersions xs ys =
    ZeroPadded.cmp xs ys := by
  induction xs generalizing ys with
  | nil => rfl
  | cons x xs ih => exact congrArg _ (ih ys.tail)

theorem findOperator_symbol (c : Comparison) {rest : String}
    (hrest : rest.toList.head? ≠ some '=') :
    ([">=", "<=", ">", "<", "="].findSome? fun op =>
      (stripPrefix op (operatorSymbol c ++ rest)).map fun rest => (op, rest)) = some (operatorSymbol c, rest) := by
  have hrefuse : stripPrefix ">=" (">" ++ rest) = none ∧ stripPrefix "<=" ("<" ++ rest) = none := by
    cases hcs : rest.toList with
    | nil => simp [stripPrefix, startsWith, String.toList_append, hcs]
    | cons d ds =>
      have hd : ¬ '=' = d := fun h => hrest (by rw [hcs, h]; rfl)
      simp [stripPrefix, startsWith, String.toList_append, hcs, hd]
  have hfirst (op symbol : String) {a b : Char} {as bs : List Char} (hop : op.toList = a :: as)
      (hsymbol : symbol.toList = b :: bs) (hne : a ≠ b) : stripPrefix op (symbol ++ rest) = none := by
    simp [stripPrefix, startsWith, String.toList_append, hop, hsymbol, hne]
  cases c with
  | atLeast => simp [operatorSymbol, stripPrefix_append]
  | atMost =>
    have hge := hfirst ">=" "<=" rfl rfl (by decide)
    simp [operatorSymbol, stripPrefix_append, hge]
  | above =>
    have hle := hfirst "<=" ">" rfl rfl (by decide)
    simp [operatorSymbol, stripPrefix_append, hrefuse.1, hle]
  | below =>
    have hge := hfirst ">=" "<" rfl rfl (by decide)
    have hgt := hfirst ">" "<" rfl rfl (by decide)
    simp [operatorSymbol, stripPrefix_append, hrefuse.2, hge, hgt]
  | exactly =>
    have hge := hfirst ">=" "=" rfl rfl (by decide)
    have hle := hfirst "<=" "=" rfl rfl (by decide)
    have hgt := hfirst ">" "=" rfl rfl (by decide)
    have hlt := hfirst "<" "=" rfl rfl (by decide)
    simp [operatorSymbol, stripPrefix_append, hge, hle, hgt, hlt]

/-- The decision of an operator on an ordering, as the source's table spells it out. -/
theorem accepts_symbol (c : Comparison) (ordering : Ordering) :
    (if operatorSymbol c = ">=" then ordering != .lt
      else if operatorSymbol c = "<=" then ordering != .gt
      else if operatorSymbol c = ">" then ordering == .gt
      else if operatorSymbol c = "<" then ordering == .lt
      else ordering == .eq) = c.accepts ordering := by
  cases c with
  | atLeast => rfl
  | atMost => rfl
  | above => rfl
  | below => rfl
  | exactly => rfl

theorem isTrimmed_symbol (c : Comparison) {before cs : List Char} (hcs : IsTrimmed cs)
    (hne : cs ≠ []) : IsTrimmed ((operatorSymbol c).toList ++ before ++ cs) := by
  constructor
  · intro d hd
    cases c with
    | atLeast | atMost | above | below | exactly => cases hd; rfl
  · intro d hd
    rw [List.getLast?_append_of_ne_nil _ hne] at hd
    exact hcs.2 d hd

/-- An operator compares an observed version with the floor of its operand. -/
theorem versionSatisfiesConstraint_of_floor (hversion : numericVersion version = some observed)
    (hfloor : comparisonFloorVersion operand = some required) {first : Char}
    (hfirst : (trim operand).toList.head? = some first) (hequals : first ≠ '=') (c : Comparison) :
    versionSatisfiesConstraint version (operatorSymbol c ++ operand) ↔
      c.Relates (components observed) (components required) := by
  obtain ⟨before, after, hsplit, hbefore, hafter⟩ := exists_trim operand
  have hne : (trim operand).toList ≠ [] := by
    rintro hnil
    rw [hnil] at hfirst
    cases hfirst
  -- Trimming the constraint leaves the white space between the operator and its operand.
  let rest := String.ofList (before ++ (trim operand).toList)
  have hrest : rest.toList = before ++ (trim operand).toList := String.toList_ofList
  have htrim : trim (operatorSymbol c ++ operand) = operatorSymbol c ++ rest := by
    have hparts : (operatorSymbol c ++ operand).toList =
        [] ++ ((operatorSymbol c).toList ++ before ++ (trim operand).toList) ++ after := by
      simp [String.toList_append, hsplit]
    rw [trim_eq hparts (by simp) hafter (isTrimmed_symbol c (isTrimmed_trim operand) hne),
      ← String.toList_inj]
    simp [String.toList_append, hrest]
  have hfloor' : comparisonFloorVersion rest = some required := by
    have hparts : rest.toList = before ++ (trim operand).toList ++ [] := by simp [hrest]
    have : trim rest = trim operand := by
      rw [trim_eq hparts hbefore (by simp) (isTrimmed_trim operand), String.ofList_toList]
    rw [← hfloor, comparisonFloorVersion, comparisonFloorVersion, this]
  have hhead : rest.toList.head? ≠ some '=' := by
    rw [hrest]
    cases hb : before with
    | nil =>
      rw [List.nil_append, hfirst]
      exact fun h => hequals (Option.some.inj h)
    | cons d ds =>
      rintro h
      cases h
      have := hbefore '=' (by simp [hb])
      cases this
  have hnonempty : (operatorSymbol c ++ rest).isEmpty = false := by
    cases c with
    | atLeast | atMost | above | below | exactly => simp [operatorSymbol]
  rw [versionSatisfiesConstraint, hversion]
  simp only [htrim, hnonempty, findOperator_symbol c hhead, hfloor', accepts_symbol,
    compareNumericVersions_eq]
  exact accepts_cmp_iff c

end Operators

/-! ## Wildcards -/

section Wildcards

variable {version operand base wildcard : String} {observed required : List Nat}

theorem head_of_numeric (h : numericVersion operand = some required) :
    ∃ first, (trim operand).toList.head? = some first ∧ (first = '.' ∨ first.isDigit) := by
  have hne := String.toList_eq_nil_iff.not.mpr (numericVersion_eq_some.mp h).1
  obtain ⟨first, rest, hcs⟩ := List.exists_cons_of_ne_nil hne
  refine ⟨first, by rw [hcs]; rfl, isDigit_of_mem h (by rw [hcs]; exact List.mem_cons_self)⟩

theorem ne_of_digit_or_dot {first other : Char} (h : first = '.' ∨ first.isDigit)
    (hdot : other ≠ '.') (hdigit : other.isDigit = false) : first ≠ other := by
  rintro rfl
  rcases h with h | h
  · exact hdot h
  · rw [hdigit] at h
    cases h

theorem head_of_wildcard (hbase : IsDotted base required) (hwildcard : isWildcard wildcard) :
    ∃ first, (trim (base ++ "." ++ wildcard)).toList.head? = some first ∧
      (first = '.' ∨ first.isDigit) := by
  obtain ⟨first, hhead, hfirst⟩ := head_of_numeric hbase.2
  rw [hbase.1] at hhead
  refine ⟨first, ?_, hfirst⟩
  rw [trim_eq_self (isTrimmed_wildcard hbase hwildcard), String.toList_append,
    String.toList_append, List.append_assoc, List.head?_append, hhead]
  rfl

/-- A list of numeric parts with a wildcard after it matches the lists it is a prefix of. -/
theorem prefixMatches_wildcard (hwildcard : isWildcard wildcard) {parts : List String}
    (h : parts.mapM numericPart = some required) :
    prefixMatches (parts ++ [wildcard]) observed ↔ required <+: observed := by
  induction parts generalizing required observed with
  | nil =>
    cases h
    simp [prefixMatches, hwildcard]
  | cons part rest ih =>
    simp only [List.mapM_cons, Option.bind_eq_bind, Option.bind_eq_some_iff] at h
    obtain ⟨n, hpart, others, hrest, heq⟩ := h
    cases heq
    have hplain := isWildcard_of_numericPart hpart
    have hparse := (numericPart_eq_some.mp hpart).2.2
    cases observed with
    | nil => simp [prefixMatches, hplain, hparse]
    | cons x xs =>
      have hstep : prefixMatches (part :: rest ++ [wildcard]) (x :: xs) =
          (x == n && prefixMatches (rest ++ [wildcard]) xs) := by
        simp [prefixMatches, hplain, hparse]
      rw [hstep, List.cons_prefix_cons, ← ih hrest, Bool.and_eq_true, beq_iff_eq, @eq_comm _ n]

theorem versionSatisfiesConstraint_wildcard (hbase : IsDotted base required)
    (hversion : numericVersion version = some observed) (hwildcard : isWildcard wildcard) :
    versionSatisfiesConstraint version (base ++ "." ++ wildcard) ↔ required <+: observed := by
  have htrim := trim_eq_self (isTrimmed_wildcard hbase hwildcard)
  obtain ⟨first, hhead, hfirst⟩ := head_of_wildcard hbase hwildcard
  rw [htrim] at hhead
  obtain ⟨rest, hcs⟩ := List.head?_eq_some_iff.mp hhead
  have hne : (base ++ "." ++ wildcard).isEmpty = false := by
    rw [Bool.eq_false_iff]
    intro hempty
    rw [String.isEmpty_iff.mp hempty] at hcs
    cases hcs
  -- No operator starts with a digit or a dot.
  have hnone {op : String} {a : Char} {as : List Char} (hop : op.toList = a :: as)
      (hdot : a ≠ '.') (hdigit : a.isDigit = false) :
      stripPrefix op (base ++ "." ++ wildcard) = none := by
    rw [stripPrefix, startsWith, hcs, hop, List.isPrefixOf_cons_cons,
      beq_eq_false_iff_ne.mpr (ne_of_digit_or_dot hfirst hdot hdigit).symm]
    rfl
  have hplain : ([">=", "<=", ">", "<", "="].findSome? fun op =>
      (stripPrefix op (base ++ "." ++ wildcard)).map fun rest => (op, rest)) = none := by
    rw [List.findSome?_eq_none_iff]
    intro op hop
    simp only [List.mem_cons, List.not_mem_nil, or_false] at hop
    rcases hop with rfl | rfl | rfl | rfl | rfl
    all_goals rw [hnone rfl (by decide) (by decide), Option.map_none]
  have hparts : (split (· == '.') base).mapM numericPart = some required := by
    have := (numericVersion_eq_some.mp hbase.2).2
    rwa [hbase.1] at this
  rw [versionSatisfiesConstraint, hversion]
  simp only [htrim, hne, hplain]
  rw [split_wildcard hwildcard]
  exact prefixMatches_wildcard hwildcard hparts

/-- **Wildcards.** A prefix followed by a wildcard holds for the releases under the prefix. Behind
an operator the wildcard is dropped, and the comparison is with the prefix itself, as it is with
an operand that has no wildcard. The releases under a prefix are at or above it. -/
theorem wildcard_constraint_iff (hbase : IsDotted base required)
    (hversion : numericVersion version = some observed) (hwildcard : isWildcard wildcard) :
    (versionSatisfiesConstraint version (base ++ "." ++ wildcard) ↔ required <+: observed) ∧
    (∀ c, versionSatisfiesConstraint version (operatorSymbol c ++ (base ++ "." ++ wildcard)) ↔
      c.Relates (components observed) (components required)) ∧
    (required <+: observed → components required ≤ components observed) ∧
    ∀ c operand bound, numericVersion operand = some bound →
      (versionSatisfiesConstraint version (operatorSymbol c ++ operand) ↔
        c.Relates (components observed) (components bound)) := by
  refine ⟨versionSatisfiesConstraint_wildcard hbase hversion hwildcard, fun c => ?_,
    components_le_of_isPrefix Nat.zero_le, fun c operand bound hoperand => ?_⟩
  · obtain ⟨first, hhead, hfirst⟩ := head_of_wildcard hbase hwildcard
    exact versionSatisfiesConstraint_of_floor hversion
      (comparisonFloorVersion_wildcard hbase hwildcard) hhead
      (ne_of_digit_or_dot hfirst (by decide) (by decide)) c
  · obtain ⟨first, hhead, hfirst⟩ := head_of_numeric hoperand
    exact versionSatisfiesConstraint_of_floor hversion (comparisonFloorVersion_of_numeric hoperand)
      hhead (ne_of_digit_or_dot hfirst (by decide) (by decide)) c

theorem wildcard_constraint_seventeen :
    versionSatisfiesConstraint "17.5" (operatorSymbol .atLeast ++ ("17" ++ "." ++ "x")) ↔
      Comparison.atLeast.Relates (components [17, 5]) (components [17]) := by
  have hbase : IsDotted "17" [17] := ⟨by decide, by decide⟩
  have hversion : numericVersion "17.5" = some [17, 5] := by decide
  have hwildcard : isWildcard "x" := by decide
  exact (wildcard_constraint_iff hbase hversion hwildcard).2.1 .atLeast

/-- An operator does not read its operand as the set of releases under the prefix. -/
theorem wildcard_operator_reads_floor :
    numericVersion "17.5" = some [17, 5] ∧ [17] <+: [17, 5] ∧
    versionSatisfiesConstraint "17.5" "17.x" = true ∧
    versionSatisfiesConstraint "17.5" "=17.x" = false ∧
    versionSatisfiesConstraint "17.5" "<=17.x" = false ∧
    versionSatisfiesConstraint "17.5" ">17.x" = true := by
  decide

end Wildcards

/-! ## The verdict and its explanation -/

section Verdict

variable {c : ResolvedOpenUsdCompatibility}

/-- A provider passes the gate exactly when its verification finds nothing to refuse. -/
theorem ResolvedOpenUsdProvider.isVerified_iff (label : String) (p : ResolvedOpenUsdProvider) :
    p.isVerified ↔ providerVerificationFailure label p = none := by
  unfold ResolvedOpenUsdProvider.isVerified providerVerificationFailure
  by_cases hfamily : (trim p.family).isEmpty
  · simp [hfamily]
  by_cases hname : (trim p.provider).isEmpty
  · simp [hfamily, hname]
  by_cases hconstraint : (trim p.versionConstraint).isEmpty
  · simp [hfamily, hname, hconstraint]
  cases hversion : p.version with
  | none => simp [hfamily, hname, hconstraint]
  | some version =>
    by_cases hsatisfies : versionSatisfiesConstraint version p.versionConstraint
    · simp [hfamily, hname, hconstraint, hsatisfies]
    · simp [hfamily, hname, hconstraint, hsatisfies]

/-- The toolchain as the provider that its verification is explained by. -/
def ResolvedOpenUsdToolchain.asProvider (t : ResolvedOpenUsdToolchain) : ResolvedOpenUsdProvider :=
  { family := t.family, provider := t.provider, version := t.version,
    versionConstraint := t.versionConstraint }

namespace ResolvedOpenUsdCompatibility

theorem providersAreVerified_eq (c : ResolvedOpenUsdCompatibility) : c.providersAreVerified =
    (!(trim c.platform).isEmpty && !(trim c.toolchain.cxxStandard).isEmpty &&
      (c.toolchain.asProvider.isVerified && c.toolchain.runtime.isVerified &&
        c.python.isVerified && c.tbb.isVerified)) := by
  rw [Bool.eq_iff_iff]
  simp only [providersAreVerified, ResolvedOpenUsdProvider.isVerified,
    ResolvedOpenUsdToolchain.asProvider, Bool.and_eq_true]
  constructor
  · rintro ⟨⟨⟨⟨⟨⟨⟨⟨hplatform, hfamily⟩, hname⟩, hconstraint⟩, hstandard⟩, hversion⟩, hruntime⟩,
      hpython⟩, htbb⟩
    exact ⟨⟨hplatform, hstandard⟩,
      ⟨⟨⟨⟨⟨hfamily, hname⟩, hconstraint⟩, hversion⟩, hruntime⟩, hpython⟩, htbb⟩
  · rintro ⟨⟨hplatform, hstandard⟩,
      ⟨⟨⟨⟨⟨hfamily, hname⟩, hconstraint⟩, hversion⟩, hruntime⟩, hpython⟩, htbb⟩
    exact ⟨⟨⟨⟨⟨⟨⟨⟨hplatform, hfamily⟩, hname⟩, hconstraint⟩, hstandard⟩, hversion⟩, hruntime⟩,
      hpython⟩, htbb⟩

theorem providersAreVerified_iff :
    c.providersAreVerified ↔ c.providersVerificationFailure = none := by
  rw [providersAreVerified_eq, providersVerificationFailure]
  by_cases hplatform : (trim c.platform).isEmpty
  · simp [hplatform]
  by_cases hstandard : (trim c.toolchain.cxxStandard).isEmpty
  · simp [hplatform, hstandard]
  have htoolchain := ResolvedOpenUsdProvider.isVerified_iff "toolchain" c.toolchain.asProvider
  have hruntime := ResolvedOpenUsdProvider.isVerified_iff "toolchain runtime" c.toolchain.runtime
  have hpython := ResolvedOpenUsdProvider.isVerified_iff "python" c.python
  have htbb := ResolvedOpenUsdProvider.isVerified_iff "tbb" c.tbb
  rw [if_neg hplatform, if_neg hstandard]
  simp only [Option.or_eq_none_iff, Bool.and_eq_true, Bool.not_eq_true', hplatform, hstandard,
    htoolchain, hruntime, hpython, htbb]
  simp [ResolvedOpenUsdToolchain.asProvider, and_assoc]

/-- The part of the gate that concerns the macOS block. -/
def macosIsVerified (c : ResolvedOpenUsdCompatibility) : Bool :=
  match c.macos, c.os with
  | some macos, .macos => macos.sdk.isVerified && !(trim macos.deploymentTarget).isEmpty
  | none, .macos => false
  | none, _ => true
  | some _, _ => false

theorem macosIsVerified_iff : c.macosIsVerified ↔ c.macosVerificationFailure = none := by
  unfold macosIsVerified macosVerificationFailure
  cases hmacos : c.macos with
  | none => cases c.os <;> simp
  | some macos =>
    cases c.os with
    | macos =>
      have hsdk := ResolvedOpenUsdProvider.isVerified_iff "macos sdk" macos.sdk
      by_cases htarget : (trim macos.deploymentTarget).isEmpty
      · simp [htarget]
      · simp [htarget, hsdk]
    | linux => simp
    | windows => simp

/-- **The verdict and its explanation agree**: the gate accepts an identity exactly when no
refusal is reported for it, for the whole identity and for its providers alone. -/
theorem isVerified_iff_no_failure (c : ResolvedOpenUsdCompatibility) :
    (c.isVerified ↔ c.verificationFailure = none) ∧
      (c.providersAreVerified ↔ c.providersVerificationFailure = none) := by
  refine ⟨?_, providersAreVerified_iff⟩
  have hgate : c.isVerified = (!(trim c.platform).isEmpty && c.profile == some "usd" &&
      (c.producerOpenusdVersion.any fun version => !(trim version).isEmpty) &&
      (c.consumerOpenusdConstraint.any fun constraint => !(trim constraint).isEmpty) &&
      (c.variant.canonical c.capabilities).isSome && c.providersAreVerified &&
      c.macosIsVerified) := rfl
  have hplatform : c.providersAreVerified → (trim c.platform).isEmpty = false := by
    rw [providersAreVerified_eq]
    simp only [Bool.and_eq_true, Bool.not_eq_true']
    exact fun h => h.1.1
  have hany (o : Option String) : (o.any fun s => !(trim s).isEmpty) =
      !(o.all fun s => (trim s).isEmpty) := by
    cases o <;> simp
  have hrefuse {p : Prop} [Decidable p] {message : String} {o : Option String} :
      (if p then some message else o) = none ↔ ¬ p ∧ o = none := by
    by_cases hp : p <;> simp [hp]
  rw [verificationFailure, hrefuse, hrefuse, hrefuse, hrefuse, Option.or_eq_none_iff,
    ← providersAreVerified_iff, ← macosIsVerified_iff, hgate, hany, hany]
  simp only [Bool.and_eq_true, Bool.not_eq_true', beq_iff_eq, Option.isNone_iff_eq_none,
    Option.isSome_iff_ne_none, not_not, ne_eq, Bool.not_eq_true]
  constructor
  · rintro ⟨⟨⟨⟨⟨⟨-, hprofile⟩, hproducer⟩, hconsumer⟩, hvariant⟩, hproviders⟩, hmacos⟩
    exact ⟨hprofile, hproducer, hconsumer, hvariant, hproviders, hmacos⟩
  · rintro ⟨hprofile, hproducer, hconsumer, hvariant, hproviders, hmacos⟩
    exact ⟨⟨⟨⟨⟨⟨hplatform hproviders, hprofile⟩, hproducer⟩, hconsumer⟩, hvariant⟩,
      hproviders⟩, hmacos⟩

end ResolvedOpenUsdCompatibility

end Verdict

end OpenStrata
