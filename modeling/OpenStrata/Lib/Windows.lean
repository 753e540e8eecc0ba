import Mathlib.Data.List.Infix

/-!
# Reading in overlapping windows

A long text is read in chunks, and the last part of each window is kept in front of the next
chunk, so that what lies across a boundary is seen whole.

## Main results

* `Windows.suffix_of_mem`: a window ends where a number of chunks ends
* `Windows.exists_mem_suffix`: each position is seen from some window, up to the end of the text
  or further than what is kept
* `Windows.exists_mem_cut`: what lies within the last chunk before the end of a window is seen
-/

namespace Windows

variable {α : Type*} {chunk carry : ℕ} {window rest : List α}

/-- The windows of a text, the first of which starts with `window`. -/
def windows (chunk carry : ℕ) (window rest : List α) : List (List α) :=
  if _ : rest.take chunk = [] then [window]
  else
    let window := window ++ rest.take chunk
    window :: windows chunk carry (window.drop (window.length - carry)) (rest.drop chunk)
termination_by rest.length
decreasing_by
  have hpos : 0 < (rest.take chunk).length := List.length_pos_iff.mpr ‹_›
  rw [List.length_take] at hpos
  rw [List.length_drop]
  omega

theorem windows_of_take_eq_nil (h : rest.take chunk = []) :
    windows chunk carry window rest = [window] := by
  rw [windows, dif_pos h]

theorem windows_of_take_ne_nil (h : rest.take chunk ≠ []) :
    windows chunk carry window rest = (window ++ rest.take chunk) ::
      windows chunk carry
        ((window ++ rest.take chunk).drop ((window ++ rest.take chunk).length - carry))
        (rest.drop chunk) := by
  rw [windows, dif_neg h]

theorem take_mul_succ (k : ℕ) (rest : List α) :
    rest.take (chunk * (k + 1)) = rest.take chunk ++ (rest.drop chunk).take (chunk * k) := by
  rw [Nat.mul_add, Nat.mul_one, Nat.add_comm, List.take_add]

/-- A window is a suffix of what a number of chunks and the first window hold. -/
theorem suffix_of_mem {w : List α} (h : w ∈ windows chunk carry window rest) :
    ∃ k, 1 ≤ k ∧ w <:+ window ++ rest.take (chunk * k) := by
  induction window, rest using windows.induct chunk carry with
  | case1 window rest hnil =>
    rw [windows_of_take_eq_nil hnil, List.mem_singleton] at h
    subst h
    exact ⟨1, le_rfl, by rw [Nat.mul_one, hnil, List.append_nil]⟩
  | case2 window rest hne joined ih =>
    rw [windows_of_take_ne_nil hne, List.mem_cons] at h
    rcases h with rfl | h
    · exact ⟨1, le_rfl, by rw [Nat.mul_one]⟩
    · obtain ⟨k, -, hsuffix⟩ := ih h
      refine ⟨k + 1, by omega, hsuffix.trans ?_⟩
      rw [take_mul_succ, ← List.append_assoc]
      exact List.suffix_append_self_iff.mpr (List.drop_suffix _ _)

/-- Each position is seen from some window, up to the end or further than what is kept. -/
theorem exists_mem_suffix {x : List α} (hchunk : 0 < chunk) (hx : x <:+ window ++ rest) :
    ∃ w ∈ windows chunk carry window rest, ∃ y, y <:+ w ∧ y <+: x ∧ (y = x ∨ carry < y.length) := by
  induction window, rest using windows.induct chunk carry with
  | case1 window rest hnil =>
    rw [windows_of_take_eq_nil hnil]
    have hrest : rest = [] := by
      rcases List.take_eq_nil_iff.mp hnil with h | h
      · omega
      · exact h
    rw [hrest, List.append_nil] at hx
    exact ⟨window, List.mem_singleton_self _, x, hx, List.prefix_rfl, Or.inl rfl⟩
  | case2 window rest hne joined ih =>
    rw [windows_of_take_ne_nil hne]
    have hsplit : window ++ rest = joined ++ rest.drop chunk := by
      rw [List.append_assoc, List.take_append_drop]
    rw [hsplit] at hx
    by_cases hkept : x <:+ joined.drop (joined.length - carry) ++ rest.drop chunk
    · obtain ⟨w, hw, y, hy⟩ := ih hkept
      exact ⟨w, List.mem_cons_of_mem _ hw, y, hy⟩
    · -- the position lies before what is kept, so the window holds more than that behind it
      obtain ⟨z, hz⟩ := hx
      have hlen := congrArg List.length hz
      simp only [List.length_append] at hlen
      have hlong : carry + (rest.drop chunk).length < x.length := by
        by_contra! hle
        refine hkept (List.suffix_of_suffix_length_le ⟨z, hz⟩
          (List.suffix_append_self_iff.mpr (List.drop_suffix _ _)) ?_)
        rw [List.length_append, List.length_drop]
        omega
      have hz' : z.length ≤ joined.length := by omega
      refine ⟨joined, List.mem_cons_self, joined.drop z.length, List.drop_suffix _ _, ?_, ?_⟩
      · refine ⟨rest.drop chunk, ?_⟩
        have hdrop := congrArg (List.drop z.length) hz
        rw [List.drop_left, List.drop_append_of_le_length hz'] at hdrop
        exact hdrop.symm
      · right
        rw [List.length_drop]
        omega

/-- What lies within the last chunk before the end of a window is seen in it. -/
theorem exists_mem_cut {y : List α} {k : ℕ} (hchunk : 0 < chunk) (hk : 1 ≤ k)
    (hrest : chunk * k ≤ rest.length) (hy : y <:+ window ++ rest.take (chunk * k))
    (hshort : y.length ≤ chunk) : ∃ w ∈ windows chunk carry window rest, y <:+ w := by
  induction k, hk using Nat.le_induction generalizing window rest with
  | base =>
    have hne : rest.take chunk ≠ [] := by
      rw [Ne, ← List.length_eq_zero_iff, List.length_take]
      omega
    rw [windows_of_take_ne_nil hne]
    rw [Nat.mul_one] at hy
    exact ⟨_, List.mem_cons_self, hy⟩
  | succ k hk ih =>
    have hmul : chunk * (k + 1) = chunk + chunk * k := by
      rw [Nat.mul_add, Nat.mul_one, Nat.add_comm]
    have hle : chunk ≤ chunk * k := Nat.le_mul_of_pos_right chunk hk
    have hne : rest.take chunk ≠ [] := by
      rw [Ne, ← List.length_eq_zero_iff, List.length_take]
      omega
    have hdrop : chunk * k ≤ (rest.drop chunk).length := by
      rw [List.length_drop]
      omega
    rw [windows_of_take_ne_nil hne]
    rw [take_mul_succ, ← List.append_assoc] at hy
    have hin : y <:+ (rest.drop chunk).take (chunk * k) := by
      refine List.suffix_of_suffix_length_le hy (List.suffix_append _ _) ?_
      rw [List.length_take]
      omega
    obtain ⟨w, hw, hyw⟩ := ih hdrop (hin.trans (List.suffix_append _ _))
    exact ⟨w, List.mem_cons_of_mem _ hw, hyw⟩

end Windows
