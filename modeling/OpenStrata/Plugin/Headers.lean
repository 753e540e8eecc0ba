import OpenStrata.Core.Printing
import OpenStrata.Lib.Glob
import OpenStrata.Plugin.Golden

/-!
# Public header patterns

A library package declares its public headers by patterns over the installed paths. A component
`**` stands for any number of components, and a `*` in another component for any characters. The
components are compared on their bytes, by a loop that remembers the last star it has met.

File names may contain a star themselves. The loop then takes a star of the pattern that stands
before a star of the name for that character, and for no more.

## Main definitions

* `validateHeaderPattern`: the patterns that a manifest may have
* `publicHeaderPatternMatches`: the matcher
* `Stands`: what a pattern is to stand for
* `StarByStar`: it does, and no star has to take more than a star of the name that it stands before

## Main results

* `publicHeaderPatternMatches_iff_starByStar`: what is matched, on characters
* `publicHeaderPatternMatches_iff`: the matcher is right about a path exactly when the path stands
  for the pattern star by star or not at all
-/

namespace OpenStrata.Plugin.Headers

/-- `validate_header_pattern`. -/
def validateHeaderPattern (pattern : String) : Result Unit := do
  Result.failIf (Text.any (fun c => c == '?' || c == '[' || c == ']') pattern)
    (.config ("library public header pattern '" ++ pattern ++ "' uses an unsupported glob"))
  let path := String.ofList
    (pattern.toList.flatMap fun c => if c = '*' then "placeholder".toList else [c])
  Golden.checkSafeRelative "package_contract.public_headers" path

/-- `component_matches`, on bytes. -/
def componentMatches (pattern value : String) : Bool :=
  (Glob.Scan.start (utf8 pattern) (utf8 value)).run 0x2A

/-- `components_match`. -/
def componentsMatch : List String → List String → Bool
  | [], path => path.isEmpty
  | head :: tail, path =>
    if head = "**" then
      componentsMatch tail path ||
        match path with
        | [] => false
        | _ :: rest => componentsMatch (head :: tail) rest
    else
      match path with
      | [] => false
      | first :: rest => componentMatches head first && componentsMatch tail rest
termination_by pattern path => pattern.length + path.length

/-- The components of a path under either separator. -/
def components (path : String) : List String :=
  Text.split (· == '/') (Text.replaceChar '\\' '/' path)

def publicHeaderPatternMatches (pattern path : String) : Bool :=
  componentsMatch (components pattern) (components path)

/-! ## What a pattern stands for -/

/-- A star stands for any characters, and every other character for itself. -/
def NameStands (pattern name : String) : Prop :=
  Glob.Matches '*' (· = ·) pattern.toList name.toList

/-- A component `**` stands for any number of components, and every other one for one. -/
def Stands (pattern path : String) : Prop :=
  Glob.Matches "**" NameStands (components pattern) (components path)

/-- The characters can be given to the stars so that a star before a star takes exactly that. -/
def NameStarByStar (pattern name : String) : Prop := Glob.Meets '*' pattern.toList name.toList

def StarByStar (pattern path : String) : Prop :=
  Glob.Matches "**" NameStarByStar (components pattern) (components path)

/-! ## Bytes and characters -/

theorem unique_utf8EncodeChar {a b : Char} {x y : Bytes}
    (h : String.utf8EncodeChar a ++ x = String.utf8EncodeChar b ++ y) : a = b := by
  have ha := ByteArray.utf8DecodeChar?_utf8EncodeChar_append (b := x.toByteArray) (c := a)
  have hb := ByteArray.utf8DecodeChar?_utf8EncodeChar_append (b := y.toByteArray) (c := b)
  rw [← List.toByteArray_append] at ha hb
  rw [h, hb] at ha
  exact (Option.some.inj ha).symm

/-- The encoding of a character is a leading byte and continuation bytes. -/
theorem parts_utf8EncodeChar (c : Char) : ∃ b rest, String.utf8EncodeChar c = b :: rest ∧
    Utf8.isContinuation b = false ∧ ∀ d ∈ rest, Utf8.isContinuation d = true := by
  have hv := c.valid
  simp only [UInt32.isValidChar, Nat.isValidChar] at hv
  unfold String.utf8EncodeChar
  generalize c.val.toNat = v at hv
  have hlead : ∀ n, n < 256 → (n < 0x80 ∨ 0xC0 ≤ n) →
      Utf8.isContinuation (UInt8.ofNat n) = false := by
    intro n hn h
    rw [← Bool.not_eq_true]
    simp only [Utf8.isContinuation, Bool.and_eq_true, decide_eq_true_eq, UInt8.le_iff_toNat_le]
    rw [Utf8.toNat_ofNat_of_lt hn]
    simp
    omega
  -- The cases are the four lengths of an encoding.
  dsimp only
  split
  · exact ⟨_, _, rfl, hlead _ (by omega) (by omega), by simp⟩
  split
  · refine ⟨_, _, rfl, hlead _ (by omega) (by omega), ?_⟩
    simp only [List.mem_singleton, forall_eq]
    exact Utf8.isContinuation_tail v
  split
  · refine ⟨_, _, rfl, hlead _ (by omega) (by omega), ?_⟩
    simp only [List.mem_cons, List.not_mem_nil, or_false, forall_eq_or_imp, forall_eq]
    exact ⟨Utf8.isContinuation_tail (v / 64), Utf8.isContinuation_tail v⟩
  · refine ⟨_, _, rfl, hlead _ (by omega) (by omega), ?_⟩
    simp only [List.mem_cons, List.not_mem_nil, or_false, forall_eq_or_imp, forall_eq]
    exact ⟨Utf8.isContinuation_tail (v / 4096), Utf8.isContinuation_tail (v / 64),
      Utf8.isContinuation_tail v⟩

theorem code_utf8 : Glob.Code String.utf8EncodeChar Utf8.isContinuation :=
  ⟨parts_utf8EncodeChar, unique_utf8EncodeChar⟩

/-- The loop over bytes decides about characters. -/
theorem componentMatches_iff {pattern name : String} :
    componentMatches pattern name = true ↔ NameStarByStar pattern name := by
  rw [componentMatches, Glob.Scan.run_iff, utf8_eq_flatMap, utf8_eq_flatMap]
  exact code_utf8.meets_iff (by decide)

/-! ## Components -/

theorem componentsMatch_iff {pattern path : List String} :
    componentsMatch pattern path = true ↔ Glob.Matches "**" NameStarByStar pattern path := by
  fun_induction componentsMatch pattern path with
  | case1 path => simp [Glob.matches_nil_iff]
  | case2 tail path htail hrest =>
    cases path with
    | nil => simp [htail, Glob.matches_star_iff]
    | cons first rest =>
      have hrest : componentsMatch ("**" :: tail) rest = true ↔
        Glob.Matches "**" NameStarByStar ("**" :: tail) rest := hrest
      rw [Glob.matches_star_cons, Bool.or_eq_true, htail, hrest]
  | case3 head tail hhead => simp [Glob.matches_one_iff hhead]
  | case4 head tail hhead first rest hrest =>
    rw [Bool.and_eq_true, componentMatches_iff, hrest, Glob.matches_one_iff hhead]
    simp

/-- A path is matched when it stands for the pattern star by star. -/
theorem publicHeaderPatternMatches_iff_starByStar {pattern path : String} :
    publicHeaderPatternMatches pattern path = true ↔ StarByStar pattern path :=
  componentsMatch_iff

theorem StarByStar.stands {pattern path : String} (h : StarByStar pattern path) :
    Stands pattern path :=
  h.imp fun _ _ => Glob.Meets.matches

/-- The matcher is right about a path exactly when the path stands for the pattern star by star,
or not at all. -/
theorem publicHeaderPatternMatches_iff (pattern path : String) :
    (publicHeaderPatternMatches pattern path = true ↔ Stands pattern path) ↔
      (Stands pattern path → StarByStar pattern path) := by
  rw [publicHeaderPatternMatches_iff_starByStar]
  exact ⟨fun h => h.mpr, fun h => ⟨StarByStar.stands, h⟩⟩

/-- A star of the pattern before a star of a name: the rest of the name is not taken. -/
theorem star_before_star_missed : validateHeaderPattern "include/*.h" = .ok () ∧
    ¬(publicHeaderPatternMatches "include/*.h" "include/*a.h" = true ↔
      Stands "include/*.h" "include/*a.h") := by
  have hpattern : components "include/*.h" = ["include", "*.h"] := by decide
  have hpath : components "include/*a.h" = ["include", "*a.h"] := by decide
  refine ⟨by decide, fun h => ?_⟩
  have hstands : Stands "include/*.h" "include/*a.h" := by
    rw [Stands, hpattern, hpath]
    refine .one (by decide) ?_ (.one (by decide) ?_ .nil)
    · exact (Glob.Meets.nil.append "include".toList).matches
    · exact .star ['*', 'a'] (Glob.Meets.nil.append ".h".toList).matches
  have hmeets := publicHeaderPatternMatches_iff_starByStar.mp (h.mpr hstands)
  rw [StarByStar, hpattern, hpath, Glob.matches_one_iff (by decide)] at hmeets
  obtain ⟨_, _, heq, -, hmeets⟩ := hmeets
  cases heq
  rw [Glob.matches_one_iff (by decide)] at hmeets
  obtain ⟨_, _, heq, hmeets, -⟩ := hmeets
  cases heq
  have hmeets : Glob.Meets '*' ['.', 'h'] ['a', '.', 'h'] := Glob.meets_cons_self.mp hmeets
  exact Glob.not_meets_of_ne (by decide) (by decide) hmeets

end OpenStrata.Plugin.Headers
