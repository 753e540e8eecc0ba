import OpenStrata.Core.Serde
import OpenStrata.Lib.SortBy

/-!
# Serialisation conventions

What `serde_json::to_value` makes of the program's data types: an object in key order, without
the fields that are skipped. Reading a field back gives what was written, whatever the other
fields are.

## Main definitions

* `Serde.object`: the object of a struct, from its fields in declaration order
* `Serde.skipIf`, `Serde.unlessEmpty`: fields that are skipped when they are empty

## Main results

* `Serde.fields_object`: an object has the fields it was made of
* `Serde.bind_required`, `Serde.bind_optional`, `Serde.bind_withDefault`: a struct is read back
  field by field
-/

namespace OpenStrata.Serde

open SortBy (sortBy)

/-- The fields that are not skipped, in key order. -/
def entries (fs : List (String × Option Json)) : List (String × Json) :=
  sortBy (·.1) (fs.filterMap fun f => f.2.map fun value => (f.1, value))

/-- The object of a struct. -/
def object (fs : List (String × Option Json)) : Json := .obj (entries fs)

/-- The object of a struct that is written out directly, its fields as they are declared. -/
def struct (fs : List (String × Option Json)) : Json :=
  .obj (fs.filterMap fun f => f.2.map fun value => (f.1, value))

/-- The fields of a struct with another value for one of them. -/
def withValue (name : String) (value : Option Json) (fs : List (String × Option Json)) :
    List (String × Option Json) :=
  fs.map fun f => if f.1 = name then (name, value) else f

/-- A field that is skipped under a condition. -/
def skipIf (skip : Bool) (value : Json) : Option Json := if skip then none else some value

/-- A list that is skipped when it is empty. -/
def unlessEmpty {α : Type} (write : α → Json) (items : List α) : Option Json :=
  skipIf items.isEmpty (.arr (items.map write))

/-- The field names are distinct. -/
def distinctKeys : List (String × Option Json) → Bool
  | [] => true
  | f :: fs => (fs.all fun g => f.1 != g.1) && distinctKeys fs

variable {α : Type} {fs : List (String × Option Json)} {names : List String} {name : String}
  {read : Json → Option α} {write : α → Json}

theorem lookup_present (h : distinctKeys fs) :
    (fs.filterMap fun f => f.2.map fun value => (f.1, value)).lookup name =
      (fs.lookup name).join := by
  induction fs with
  | nil => rfl
  | cons f fs ih =>
    obtain ⟨key, value⟩ := f
    simp only [distinctKeys, Bool.and_eq_true, List.all_eq_true, bne_iff_ne] at h
    rw [List.lookup_cons]
    by_cases hkey : name = key
    · subst hkey
      cases value with
      | some value => simp
      | none =>
        -- A skipped field is not found among the fields that follow it.
        have hnone : fs.lookup name = none := by
          rw [List.lookup_eq_none_iff]
          intro g hg
          simpa using h.1 g hg
        simp [ih h.2, hnone]
    · have hbeq : (name == key) = false := beq_eq_false_iff_ne.mpr hkey
      rw [hbeq, ← ih h.2]
      cases value with
      | some value =>
        show List.lookup name ((key, value) :: _) = _
        rw [List.lookup_cons, hbeq]
      | none => rfl

theorem nodup_keys_present (h : distinctKeys fs) :
    ((fs.filterMap fun f => f.2.map fun value => (f.1, value)).map (·.1)).Nodup := by
  induction fs with
  | nil => exact List.nodup_nil
  | cons f fs ih =>
    obtain ⟨key, value⟩ := f
    simp only [distinctKeys, Bool.and_eq_true, List.all_eq_true, bne_iff_ne] at h
    cases value with
    | none => simpa using ih h.2
    | some value =>
      refine List.nodup_cons.mpr ⟨?_, ih h.2⟩
      intro hmem
      obtain ⟨⟨k, v⟩, hkv, rfl⟩ := List.mem_map.mp hmem
      obtain ⟨g, hg, hsome⟩ := List.mem_filterMap.mp hkv
      obtain ⟨_, -, heq⟩ := Option.map_eq_some_iff.mp hsome
      cases heq
      exact h.1 g hg rfl

/-- Lists with the same entries, of distinct keys, have the same lookups. -/
theorem lookup_eq_of_perm {as bs : List (String × Json)} (h : as.Perm bs)
    (hnodup : (as.map (·.1)).Nodup) : as.lookup name = bs.lookup name := by
  induction h with
  | nil => rfl
  | cons a _ ih =>
    rw [List.map_cons, List.nodup_cons] at hnodup
    rw [List.lookup_cons, List.lookup_cons, ih hnodup.2]
  | swap a b l =>
    simp only [List.map_cons, List.nodup_cons, List.mem_cons, not_or] at hnodup
    obtain ⟨⟨hne, -⟩, -⟩ := hnodup
    obtain ⟨a, _⟩ := a
    obtain ⟨b, _⟩ := b
    simp only [List.lookup_cons]
    cases ha : name == a with
    | false => rfl
    | true =>
      have hb : (name == b) = false := by
        rw [beq_iff_eq.mp ha]
        exact beq_eq_false_iff_ne.mpr (Ne.symm hne)
      rw [hb]
  | trans h₁ _ ih₁ ih₂ =>
    rw [ih₁ hnodup, ih₂ ((h₁.map (·.1)).nodup_iff.mp hnodup)]

/-- A field of an object is what was written there. -/
theorem lookup_entries (h : distinctKeys fs) : (entries fs).lookup name = (fs.lookup name).join := by
  rw [← lookup_present h]
  have hperm := SortBy.perm_sortBy (·.1) (fs.filterMap fun f => f.2.map fun value => (f.1, value))
  exact lookup_eq_of_perm hperm ((hperm.map (·.1)).nodup_iff.mpr (nodup_keys_present h))

/-- An object read as the struct it was made of has its fields. -/
theorem fields_object (h : fs.all fun f => names.contains f.1) :
    fields names (object fs) = some (entries fs) := by
  refine if_pos (List.all_eq_true.mpr fun entry hentry => ?_)
  obtain ⟨f, hf, hsome⟩ := List.mem_filterMap.mp (SortBy.mem_sortBy.mp hentry)
  obtain ⟨_, -, rfl⟩ := Option.map_eq_some_iff.mp hsome
  exact List.all_eq_true.mp h f hf

/-- Reading an optional field from what the object has. -/
def readOptional (read : Json → Option α) : Option Json → Option (Option α)
  | none | some .null => some none
  | some value => (read value).map some

/-- Reading a field with a default from what the object has. -/
def readDefault (default : α) (read : Json → Option α) : Option Json → Option α
  | none => some default
  | some value => read value

variable {β : Type} {a : α} {b : β} {f : α → Option β}

/-- Reading goes on from the fields of an object. -/
theorem bind_fields {f : List (String × Json) → Option β}
    (h : fs.all fun f => names.contains f.1) (hrest : f (entries fs) = some b) :
    (fields names (object fs)).bind f = some b := by
  rw [fields_object h, Option.bind_some, hrest]

theorem bind_openFields {f : List (String × Json) → Option β}
    (hrest : f (entries fs) = some b) : (openFields names (object fs)).bind f = some b := hrest

/-- Reading goes on from a required field that reads back. -/
theorem bind_required {value : Json} (h : distinctKeys fs)
    (hlookup : fs.lookup name = some (some value)) (hread : read value = some a)
    (hrest : f a = some b) : (required (entries fs) name read).bind f = some b := by
  rw [required, lookup_entries h, hlookup, Option.join_some, Option.bind_some, hread,
    Option.bind_some, hrest]

/-- Reading goes on from an optional field that reads back. -/
theorem bind_optional {f : Option α → Option β} {a : Option α} {value : Option Json}
    (h : distinctKeys fs) (hlookup : fs.lookup name = some value)
    (hread : readOptional read value = some a) (hrest : f a = some b) :
    (optional (entries fs) name read).bind f = some b := by
  have hoptional : optional (entries fs) name read = readOptional read value := by
    rw [optional, lookup_entries h, hlookup, Option.join_some]
    cases value <;> rfl
  rw [hoptional, hread, Option.bind_some, hrest]

/-- Reading goes on from a field with a default that reads back. -/
theorem bind_withDefault {default : α} {value : Option Json}
    (h : distinctKeys fs) (hlookup : fs.lookup name = some value)
    (hread : readDefault default read value = some a) (hrest : f a = some b) :
    (withDefault (entries fs) name default read).bind f = some b := by
  have hdefault : withDefault (entries fs) name default read = readDefault default read value := by
    rw [withDefault, lookup_entries h, hlookup, Option.join_some]
    cases value <;> rfl
  rw [hdefault, hread, Option.bind_some, hrest]

theorem u32_int {n : Nat} (h : n < 2 ^ 32) : u32 (.int n) = some n := by
  have : (0 : Int) ≤ n ∧ (n : Int) < 2 ^ 32 := by omega
  rw [u32, if_pos this]
  rfl

theorem u64_int {n : Nat} (h : n < 2 ^ 64) : u64 (.int n) = some n := by
  have : (0 : Int) ≤ n ∧ (n : Int) < 2 ^ 64 := by omega
  rw [u64, Json.asU64?, if_pos this]
  rfl

/-- A list reads back when its items do. -/
theorem list_arr {items : List α} (h : ∀ a ∈ items, read (write a) = some a) :
    list read (.arr (items.map write)) = some items := by
  show (items.map write).mapM read = some items
  induction items with
  | nil => rfl
  | cons a items ih =>
    rw [List.map_cons, List.mapM_cons, h a List.mem_cons_self,
      ih fun b hb => h b (List.mem_cons_of_mem _ hb)]
    rfl

theorem readOptional_map {value : Option α} (h : ∀ a, value = some a → read (write a) = some a)
    (hnull : ∀ a, value = some a → write a ≠ .null) :
    readOptional read (value.map write) = some value := by
  cases value with
  | none => rfl
  | some a =>
    have hread := h a rfl
    have hne := hnull a rfl
    rw [Option.map_some]
    unfold readOptional
    split
    · rename_i heq
      cases heq
    · rename_i heq
      exact absurd (Option.some.inj heq) hne
    · rename_i heq
      rw [← Option.some.inj heq, hread]
      rfl

theorem readDefault_unlessEmpty {items : List α} (h : ∀ a ∈ items, read (write a) = some a) :
    readDefault [] (list read) (unlessEmpty write items) = some items := by
  cases items with
  | nil => rfl
  | cons a items => exact list_arr h

end OpenStrata.Serde
