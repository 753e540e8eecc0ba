import Mathlib.Data.String.Basic

/-!
# ASCII character sets

The character sets of identifiers, versions and names are sets of ASCII characters, so that what
holds of each of their members is decided by running through the ASCII characters.

## Main results

* `Ascii.imp`: an inclusion of ASCII character sets is decided
-/

namespace OpenStrata.Ascii

variable {p q : Char → Bool} {c : Char}

/-- A set that has ASCII characters only. -/
def IsAscii (p : Char → Bool) : Prop := ∀ c, p c → c.toNat < 128

/-- An inclusion of character sets is decided on the ASCII characters. -/
theorem imp (hp : IsAscii p) (h : ∀ n < 128, p (Char.ofNat n) → q (Char.ofNat n)) (hc : p c) :
    q c := by
  have := h c.toNat (hp c hc)
  rw [Char.ofNat_toNat] at this
  exact this hc

theorem isAlpha_eq (c : Char) : c.isAlpha = (c.isUpper || c.isLower) := rfl

theorem isUpper_eq (c : Char) :
    c.isUpper = decide (c.val ≥ 'A'.val ∧ c.val ≤ 'Z'.val) := rfl

theorem isLower_eq (c : Char) :
    c.isLower = (decide (c.val ≥ 'a'.val) && decide (c.val ≤ 'z'.val)) := rfl

theorem val_toLower (h : c.val ≥ 'A'.val ∧ c.val ≤ 'Z'.val) :
    c.toLower.val = c.val + ('a'.val - 'A'.val) :=
  congrArg Char.val (dif_pos h)

theorem toLower_of_not (h : ¬(c.val ≥ 'A'.val ∧ c.val ≤ 'Z'.val)) : c.toLower = c := dif_neg h

theorem isAscii_isAlphanum : IsAscii Char.isAlphanum := by
  intro c hc
  have hval : c.toNat = c.val.toNat := rfl
  simp only [Char.isAlphanum, isAlpha_eq, isUpper_eq, isLower_eq, Char.isDigit,
    Bool.or_eq_true, Bool.and_eq_true, decide_eq_true_eq, ge_iff_le, UInt32.le_iff_toNat_le] at hc
  have h9 : ('9' : Char).val.toNat = 57 := rfl
  have hZ : ('Z' : Char).val.toNat = 90 := rfl
  have hz : ('z' : Char).val.toNat = 122 := rfl
  omega

theorem isAscii_or (hp : IsAscii p) (hq : IsAscii q) : IsAscii fun c => p c || q c := by
  intro c hc
  rcases (Bool.or_eq_true _ _).mp hc with h | h
  · exact hp c h
  · exact hq c h

theorem isAscii_beq {a : Char} (ha : a.toNat < 128) : IsAscii (· == a) := by
  intro c hc
  rw [beq_iff_eq.mp hc]
  exact ha

/-- What is decided along a literal list holds of its members. -/
theorem forall_mem_of_all {α : Type} {P : α → Prop} [DecidablePred P] {l : List α}
    (h : l.all (fun a => decide (P a)) = true) : ∀ a ∈ l, P a :=
  fun a ha => of_decide_eq_true (List.all_eq_true.mp h a ha)

theorem isAscii_contains {cs : List Char} (h : ∀ c ∈ cs, c.toNat < 128) :
    IsAscii fun c => cs.contains c :=
  fun c hc => h c (List.contains_iff_mem.mp hc)

end OpenStrata.Ascii
