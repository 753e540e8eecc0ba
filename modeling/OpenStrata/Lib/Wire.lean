import OpenStrata.Lib.Endian

/-!
# Readers of binary records

A reader takes what it reads from the front of its input and leaves the rest. That it reads a text
means that it does so whatever follows, so that readers of the parts of a record compose as the
parts are appended.

## Main results

* `Wire.Reads.bind`: the readers of two parts
* `Wire.Reads.number`, `Wire.Reads.block`, `Wire.Reads.check`: the parts of a record
* `Wire.Reads.many`: a reader of each element reads a list of them
-/

namespace Wire

variable {α β ι : Type}

/-- Takes what it reads from the front. -/
abbrev Reader (α : Type) := StateT (List UInt8) Option α

/-- The next `k` bytes. -/
def block (k : ℕ) : Reader (List UInt8) := fun bytes =>
  if k ≤ bytes.length then some (bytes.take k, bytes.drop k) else none

/-- A little-endian number of `k` bytes. -/
def number (k : ℕ) : Reader ℕ := Endian.leValue <$> block k

/-- Goes on only when the condition holds. -/
def check (p : Prop) [Decidable p] : Reader Unit := fun bytes =>
  if p then some ((), bytes) else none

/-- Reads `n` elements, one after another. -/
def many (r : Reader α) : ℕ → Reader (List α)
  | 0 => pure []
  | n + 1 => do
    let a ← r
    let as ← many r n
    pure (a :: as)

/-- Reads from a field that was taken before. -/
def within (r : Reader α) (data : List UInt8) : Reader α := fun bytes =>
  (r data).map fun p => (p.1, bytes)

/-- The reader takes the text for the value, whatever follows. -/
def Reads (r : Reader α) (text : List UInt8) (a : α) : Prop :=
  ∀ rest, r (text ++ rest) = some (a, rest)

namespace Reads

variable {r : Reader α} {f : α → Reader β} {text text' : List UInt8} {a : α} {b : β}

theorem pure (a : α) : Reads (Pure.pure a) [] a := fun _ => rfl

theorem bind (h : Reads r text a) (h' : Reads (f a) text' b) :
    Reads (r >>= f) (text ++ text') b := by
  intro rest
  rw [List.append_assoc]
  show (r (text ++ (text' ++ rest))).bind (fun p => f p.1 p.2) = _
  rw [h (text' ++ rest)]
  exact h' rest

/-- A last step that reads nothing. -/
theorem bind_nil (h : Reads r text a) (h' : Reads (f a) [] b) : Reads (r >>= f) text b := by
  have hlast := h.bind h'
  rwa [List.append_nil] at hlast

theorem map (g : α → β) (h : Reads r text a) : Reads (g <$> r) text (g a) := by
  intro rest
  show (r (text ++ rest)).bind (fun p => some (g p.1, p.2)) = _
  rw [h rest]
  rfl

theorem block {k : ℕ} (h : text.length = k) : Reads (block k) text text := by
  intro rest
  subst h
  rw [Wire.block, if_pos (by simp), List.take_left, List.drop_left]

theorem number {k n : ℕ} (h : n < 256 ^ k) : Reads (number k) (Endian.le k n) n := by
  have hblock := (block (Endian.length_le k n)).map Endian.leValue
  rwa [Endian.leValue_le h] at hblock

/-- A number that does not fit is read without what exceeds its width. -/
theorem number_mod (k n : ℕ) : Reads (Wire.number k) (Endian.le k n) (n % 256 ^ k) := by
  have hblock := (block (Endian.length_le k n)).map Endian.leValue
  rwa [Endian.leValue_le_mod] at hblock

/-- A condition that holds takes nothing. -/
theorem check {p : Prop} [Decidable p] {f : Unit → Reader β} (h : p)
    (h' : Reads (f ()) text b) : Reads (Wire.check p >>= f) text b := by
  have hcheck : Reads (Wire.check p) [] () := fun _ => if_pos h
  exact hcheck.bind h'

theorem many {elements : List ι} {bytesOf : ι → List UInt8} {valueOf : ι → α}
    (h : ∀ i ∈ elements, Reads r (bytesOf i) (valueOf i)) :
    Reads (many r elements.length) (elements.flatMap bytesOf) (elements.map valueOf) := by
  induction elements with
  | nil => exact pure []
  | cons i elements ih =>
    have hrest := ih fun j hj => h j (List.mem_cons_of_mem i hj)
    rw [List.flatMap_cons]
    exact (h i List.mem_cons_self).bind (hrest.bind_nil (pure _))

/-- What a field of its own holds takes nothing of the input. -/
theorem within {data after : List UInt8} (h : Reads r data a) :
    Reads (within r (data ++ after)) [] a := by
  intro rest
  show (r (data ++ after)).map _ = _
  rw [h after]
  rfl

/-- What is read at the front of an input. -/
theorem eq_some (h : Reads r text a) {input rest : List UInt8} (hinput : input = text ++ rest) :
    r input = some (a, rest) := by
  rw [hinput]
  exact h rest

end Reads

end Wire
