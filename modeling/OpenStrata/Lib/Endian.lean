import Mathlib.Data.Nat.ModEq
import Mathlib.Tactic.Ring

/-!
# Numbers as bytes

Numbers of a fixed width in little-endian and big-endian order, and the reading of a field at an
offset.

## Main results

* `Endian.leValue_le`, `Endian.beValue_be`: a number that fits is read back
* `Endian.readLe_append`, `Endian.readBe_append`: the field behind a known beginning
-/

namespace Endian

variable {bytes front field rest : List UInt8} {k n offset : ℕ}

/-- The `k` bytes of a number, the lowest first. -/
def le : ℕ → ℕ → List UInt8
  | 0, _ => []
  | k + 1, n => UInt8.ofNat n :: le k (n / 256)

/-- The `k` bytes of a number, the highest first. -/
def be (k n : ℕ) : List UInt8 := (le k n).reverse

def leValue : List UInt8 → ℕ
  | [] => 0
  | b :: bytes => b.toNat + 256 * leValue bytes

def beValue (bytes : List UInt8) : ℕ := leValue bytes.reverse

@[simp] theorem length_le (k n : ℕ) : (le k n).length = k := by
  induction k generalizing n with
  | zero => rfl
  | succ k ih => rw [le, List.length_cons, ih]

@[simp] theorem length_be (k n : ℕ) : (be k n).length = k := by
  rw [be, List.length_reverse, length_le]

theorem leValue_le_mod (k n : ℕ) : leValue (le k n) = n % 256 ^ k := by
  induction k generalizing n with
  | zero => rw [pow_zero, Nat.mod_one, le, leValue]
  | succ k ih =>
    rw [le, leValue, ih, pow_succ', Nat.mod_mul]
    rfl

theorem leValue_le (h : n < 256 ^ k) : leValue (le k n) = n := by
  rw [leValue_le_mod, Nat.mod_eq_of_lt h]

theorem beValue_be (h : n < 256 ^ k) : beValue (be k n) = n := by
  rw [beValue, be, List.reverse_reverse, leValue_le h]

theorem leValue_lt (bytes : List UInt8) : leValue bytes < 256 ^ bytes.length := by
  induction bytes with
  | nil => exact Nat.one_pos
  | cons b bytes ih =>
    have hb : b.toNat < 256 := b.toNat_lt
    rw [leValue, List.length_cons, pow_succ]
    omega

/-! ## Fields -/

/-- The `width` bytes at an offset. -/
def fieldAt (bytes : List UInt8) (offset width : ℕ) : Option (List UInt8) :=
  if offset + width ≤ bytes.length then some ((bytes.drop offset).take width) else none

def readLe (width : ℕ) (bytes : List UInt8) (offset : ℕ) : Option ℕ :=
  (fieldAt bytes offset width).map leValue

def readBe (width : ℕ) (bytes : List UInt8) (offset : ℕ) : Option ℕ :=
  (fieldAt bytes offset width).map beValue

theorem fieldAt_append (hoffset : front.length = offset) (hfield : field.length = k) :
    fieldAt (front ++ (field ++ rest)) offset k = some field := by
  subst hoffset hfield
  rw [fieldAt, if_pos, List.drop_left, List.take_left]
  simp only [List.length_append]
  omega

theorem fieldAt_length {x : List UInt8} (h : fieldAt bytes offset k = some x) : x.length = k := by
  rw [fieldAt] at h
  split at h
  · next hle =>
    cases h
    rw [List.length_take, List.length_drop]
    omega
  · cases h

theorem readLe_append (hoffset : front.length = offset) (hn : n < 256 ^ k) :
    readLe k (front ++ (le k n ++ rest)) offset = some n := by
  rw [readLe, fieldAt_append hoffset (length_le k n), Option.map_some, leValue_le hn]

theorem readBe_append (hoffset : front.length = offset) (hn : n < 256 ^ k) :
    readBe k (front ++ (be k n ++ rest)) offset = some n := by
  rw [readBe, fieldAt_append hoffset (length_be k n), Option.map_some, beValue_be hn]

/-- Fields behind a known beginning are fields of what follows it. -/
theorem fieldAt_append_add (front bytes : List UInt8) (offset k : ℕ) :
    fieldAt (front ++ bytes) (front.length + offset) k = fieldAt bytes offset k := by
  have hdrop : (front ++ bytes).drop (front.length + offset) = bytes.drop offset := by
    rw [← List.drop_drop, List.drop_left]
  rw [fieldAt, fieldAt, hdrop, List.length_append, Nat.add_assoc]
  simp only [Nat.add_le_add_iff_left]

/-- Fields of a beginning do not depend on what follows it. -/
theorem fieldAt_append_left (h : offset + k ≤ bytes.length) (rest : List UInt8) :
    fieldAt (bytes ++ rest) offset k = some ((bytes.drop offset).take k) := by
  rw [fieldAt, if_pos (by rw [List.length_append]; omega),
    List.drop_append_of_le_length (by omega), List.take_append_of_le_length]
  rw [List.length_drop]
  omega

theorem readLe_append_add (front bytes : List UInt8) (offset k : ℕ) :
    readLe k (front ++ bytes) (front.length + offset) = readLe k bytes offset := by
  rw [readLe, fieldAt_append_add]
  rfl

theorem readLe_append_left (h : offset + k ≤ bytes.length) (rest : List UInt8) :
    readLe k (bytes ++ rest) offset = some (leValue ((bytes.drop offset).take k)) := by
  rw [readLe, fieldAt_append_left h]
  rfl

/-- A field that a beginning holds is read from the beginning. -/
theorem fieldAt_take {n : ℕ} (h : offset + k ≤ n) :
    fieldAt (bytes.take n) offset k = fieldAt bytes offset k := by
  rw [fieldAt, fieldAt, List.length_take]
  by_cases hin : offset + k ≤ bytes.length
  · rw [if_pos hin, if_pos (by omega), List.drop_take, List.take_take, Nat.min_eq_left (by omega)]
  · rw [if_neg hin, if_neg (by omega)]

theorem readLe_take {n : ℕ} (h : offset + k ≤ n) :
    readLe k (bytes.take n) offset = readLe k bytes offset := by
  rw [readLe, fieldAt_take h]
  rfl

theorem readBe_take {n : ℕ} (h : offset + k ≤ n) :
    readBe k (bytes.take n) offset = readBe k bytes offset := by
  rw [readBe, fieldAt_take h]
  rfl

theorem readLe_lt (h : readLe k bytes offset = some n) : n < 256 ^ k := by
  obtain ⟨x, hx, rfl⟩ := Option.map_eq_some_iff.mp h
  have := leValue_lt x
  rwa [fieldAt_length hx] at this

end Endian
