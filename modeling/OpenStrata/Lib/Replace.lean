import Mathlib.Data.List.Basic
import Mathlib.Data.List.Infix

/-!
# Replacing pieces of a list

Every occurrence of one piece of a list is exchanged for another, from the left and without
overlaps, and several pieces are replaced one after the other. Where each new piece begins with a
mark that no old piece holds, and no old piece starts inside a new one, the replacements do not
see each other: they come to one exchange of pieces, and nothing old is left.

## Main definitions

* `replace`: one piece replaced by another
* `replaceAll`: several replacements, one after the other
* `Exchange`: some pieces of a list exchanged for others
* `Detached`: a piece that starts nowhere inside another

## Main results

* `replaceAll_exchange`: marked replacements come to one exchange
* `not_infix_replaceAll`: and leave no old piece
-/

namespace Replace

variable {α : Type}

/-! ## One replacement -/

section Replace

variable [DecidableEq α] {old new x l : List α} {a c : α}

/-- The list from a place on, of which so many elements belong to an occurrence already replaced. -/
def replaceFrom (old new : List α) : ℕ → List α → List α
  | _, [] => []
  | skip + 1, _ :: l => replaceFrom old new skip l
  | 0, c :: l =>
    if old.isPrefixOf (c :: l) then new ++ replaceFrom old new (old.length - 1) l
    else c :: replaceFrom old new 0 l

/-- Every occurrence of `old` replaced by `new`. -/
def replace (old new l : List α) : List α := replaceFrom old new 0 l

@[simp]
theorem replace_nil : replace old new [] = [] := rfl

theorem replaceFrom_eq_drop (l : List α) :
    ∀ skip, replaceFrom old new skip l = replace old new (l.drop skip) := by
  induction l with
  | nil =>
    intro skip
    cases skip <;> rfl
  | cons c l ih =>
    intro skip
    cases skip with
    | zero => rfl
    | succ skip => exact ih skip

theorem replace_keep (h : ¬ old <+: c :: l) :
    replace old new (c :: l) = c :: replace old new l := by
  have hp : ¬ old.isPrefixOf (c :: l) := fun hp => h (List.isPrefixOf_iff_prefix.mp hp)
  rw [replace, replaceFrom, if_neg hp]
  rfl

theorem replace_swap (hold : old ≠ []) :
    replace old new (old ++ l) = new ++ replace old new l := by
  cases old with
  | nil => exact absurd rfl hold
  | cons b old =>
    have hp : (b :: old).isPrefixOf (b :: (old ++ l)) :=
      List.isPrefixOf_iff_prefix.mpr (List.prefix_append (b :: old) l)
    rw [replace, List.cons_append, replaceFrom, if_pos hp, replaceFrom_eq_drop]
    simp

/-- A list and its replacement are read together: either an element is kept, where no occurrence
starts, or an occurrence is exchanged. -/
theorem replace_induction (hold : old ≠ []) {P : List α → List α → Prop} (nil : P [] [])
    (keep : ∀ c l, ¬ old <+: c :: l → P l (replace old new l) → P (c :: l) (c :: replace old new l))
    (swap : ∀ l, P l (replace old new l) → P (old ++ l) (new ++ replace old new l)) :
    P l (replace old new l) := by
  induction hn : l.length using Nat.strong_induction_on generalizing l with
  | _ n ih =>
    subst hn
    cases l with
    | nil => exact nil
    | cons c l =>
      by_cases hp : old <+: c :: l
      · obtain ⟨rest, hrest⟩ := hp
        have hlt : rest.length < (c :: l).length := by
          rw [← hrest, List.length_append]
          have := List.length_pos_of_ne_nil hold
          omega
        rw [← hrest, replace_swap hold]
        exact swap rest (ih _ hlt rfl)
      · rw [replace_keep hp]
        exact keep c l hp (ih _ (Nat.lt_succ_self _) rfl)

end Replace

/-! ## Pieces that do not meet -/

section Detached

variable {x p l u v : List α} {a : α}

/-- No occurrence of `x` starts inside `p`, whatever follows. -/
def Detached (x p : List α) : Prop := ∀ s v, s <:+ p → s ≠ [] → ¬ x <+: s ++ v

theorem Detached.tail {c : α} (h : Detached x (c :: p)) : Detached x p :=
  fun s v hs => h s v (hs.trans (List.suffix_cons c p))

theorem Detached.infix_of_append (h : Detached x p) (hx : x <:+: p ++ l) : x <:+: l := by
  induction p with
  | nil => exact hx
  | cons c p ih =>
    rcases List.infix_cons_iff.mp hx with hx | hx
    · exact absurd hx (h (c :: p) l (List.suffix_refl _) (by simp))
    · exact ih h.tail hx

/-- An occurrence without the mark lies before or after it. -/
theorem infix_append_cons (ha : a ∉ x) (hx : x <:+: u ++ a :: v) : x <:+: u ++ [a] ∨ x <:+: v := by
  obtain ⟨before, after, heq⟩ := hx
  rw [List.append_assoc] at heq
  rcases List.append_eq_append_iff.mp heq with ⟨rest, hu, hrest⟩ | ⟨rest, rfl, hrest⟩
  · rcases List.append_eq_append_iff.mp hrest with ⟨rest', hx', -⟩ | ⟨rest', hx', hv⟩
    · exact Or.inl ⟨before, rest' ++ [a], by rw [hu, hx']; simp⟩
    · cases rest' with
      | nil => exact Or.inl ⟨before, [a], by rw [hu]; simpa using hx'⟩
      | cons b rest' =>
        obtain ⟨rfl, -⟩ := List.cons.inj hv
        exact absurd (hx' ▸ List.mem_append_right _ List.mem_cons_self) ha
  · cases rest with
    | nil =>
      cases x with
      | nil => exact Or.inr List.nil_infix
      | cons b x =>
        obtain ⟨rfl, -⟩ := List.cons.inj hrest
        exact absurd List.mem_cons_self ha
    | cons b rest =>
      obtain ⟨-, hrest⟩ := List.cons.inj hrest
      exact Or.inr ⟨rest, after, by rw [hrest]; simp⟩

/-- In a list of lines that end in the mark, the last one perhaps not, an occurrence without the
mark lies in one line. -/
theorem exists_infix_of_flatten (ha : a ∉ x) (hx : x ≠ []) : ∀ {lines : List (List α)},
    (∀ line ∈ lines.dropLast, ∃ u, line = u ++ [a]) → x <:+: lines.flatten →
      ∃ line ∈ lines, x <:+: line
  | [], _, h => absurd (List.infix_nil.mp h) hx
  | [line], _, h => ⟨line, List.mem_singleton_self line, by simpa using h⟩
  | line :: next :: lines, hlines, h => by
    obtain ⟨u, rfl⟩ := hlines line List.mem_cons_self
    rw [List.flatten_cons, List.append_assoc] at h
    rcases infix_append_cons ha h with h | h
    · exact ⟨u ++ [a], List.mem_cons_self, h⟩
    · have hrest : ∀ line ∈ (next :: lines).dropLast, ∃ u, line = u ++ [a] := fun other hother =>
        hlines other (List.mem_cons_of_mem _ hother)
      obtain ⟨other, hother, hin⟩ := exists_infix_of_flatten ha hx hrest h
      exact ⟨other, List.mem_cons_of_mem _ hother, hin⟩

end Detached

/-! ## What a replacement leaves -/

section Leaves

variable [DecidableEq α] {old new x l : List α} {a : α}

theorem prefix_of_replace (hold : old ≠ []) (hnew : new.head? = some a) :
    ∀ x, a ∉ x → x <+: replace old new l → x <+: l := by
  refine replace_induction (P := fun l l' => ∀ x, a ∉ x → x <+: l' → x <+: l) hold ?_ ?_ ?_
  · exact fun x _ hx => hx
  · intro c l _ ih x ha hx
    rcases List.prefix_cons_iff.mp hx with rfl | ⟨t, rfl, ht⟩
    · exact List.nil_prefix
    · exact List.cons_prefix_cons.mpr ⟨rfl, ih t (fun hm => ha (List.mem_cons_of_mem _ hm)) ht⟩
  · intro l _ x ha hx
    obtain ⟨t, rfl⟩ : ∃ t, new = a :: t := by
      cases new with
      | nil => simp at hnew
      | cons b t => exact ⟨t, by simpa using hnew⟩
    rcases List.prefix_cons_iff.mp hx with rfl | ⟨t, rfl, -⟩
    · exact List.nil_prefix
    · exact absurd List.mem_cons_self ha

/-- A replacement makes no occurrence of a piece without its mark. -/
theorem infix_of_replace (hold : old ≠ []) (hnew : new.head? = some a) (ha : a ∉ x)
    (hd : Detached x new) (hx : x <:+: replace old new l) : x <:+: l := by
  revert hx
  refine replace_induction (P := fun l l' => x <:+: l' → x <:+: l) hold id ?_ ?_
  · intro c l hp ih hx
    rcases List.infix_cons_iff.mp hx with hx | hx
    · refine (prefix_of_replace hold hnew x ha ?_).isInfix
      rwa [replace_keep hp]
    · exact List.infix_cons (ih hx)
  · intro l ih hx
    exact (ih (hd.infix_of_append hx)).trans (List.suffix_append old l).isInfix

/-- A replaced piece is gone. -/
theorem not_infix_replace (hold : old ≠ []) (hnew : new.head? = some a) (ha : a ∉ old)
    (hd : Detached old new) : ¬ old <:+: replace old new l := by
  refine replace_induction (P := fun _ l' => ¬ old <:+: l') hold ?_ ?_ ?_
  · exact fun h => hold (List.infix_nil.mp h)
  · intro c l hp ih hx
    rcases List.infix_cons_iff.mp hx with hx | hx
    · refine hp (prefix_of_replace hold hnew old ha ?_)
      rwa [replace_keep hp]
    · exact ih hx
  · exact fun l ih hx => ih (hd.infix_of_append hx)

end Leaves

/-! ## Exchanges -/

/-- Some pieces of a list exchanged for others that `R` gives them. -/
inductive Exchange (R : List α → List α → Prop) : List α → List α → Prop
  | nil : Exchange R [] []
  | keep (c : α) {l l' : List α} (h : Exchange R l l') : Exchange R (c :: l) (c :: l')
  | swap {old new l l' : List α} (hR : R old new) (h : Exchange R l l') :
    Exchange R (old ++ l) (new ++ l')

namespace Exchange

variable {R : List α → List α → Prop} {l l' old new x y : List α} {a b : α}

theorem refl : ∀ l : List α, Exchange R l l
  | [] => .nil
  | c :: l => .keep c (refl l)

theorem eq_nil (hR : ∀ old new, R old new → old ≠ []) (h : Exchange R l l') (hl : l = []) :
    l' = [] := by
  cases h with
  | nil => rfl
  | keep c h => simp at hl
  | swap hold h => exact absurd (List.append_eq_nil_iff.mp hl).1 (hR _ _ hold)

/-- An exchange that touches no `b` keeps the one at the end. -/
theorem concat (hR : ∀ old new, R old new → old ≠ [] ∧ b ∉ old) (h : Exchange R l l') :
    ∀ u, l = u ++ [b] → ∃ u', l' = u' ++ [b] := by
  have hne : ∀ old new, R old new → old ≠ [] := fun old new hold => (hR old new hold).1
  induction h with
  | nil =>
    intro u hu
    simp at hu
  | @keep c l l' h ih =>
    intro u hu
    cases u with
    | nil =>
      obtain ⟨rfl, hl⟩ := List.cons.inj hu
      exact ⟨[], by rw [h.eq_nil hne hl]; rfl⟩
    | cons d u =>
      obtain ⟨rfl, hl⟩ := List.cons.inj hu
      obtain ⟨u', rfl⟩ := ih u hl
      exact ⟨c :: u', rfl⟩
  | @swap old new l l' hold h ih =>
    intro u hu
    rcases List.eq_nil_or_concat l with rfl | ⟨v, d, rfl⟩
    · rw [List.append_nil] at hu
      exact absurd (hu ▸ List.mem_append_right u List.mem_cons_self) (hR _ _ hold).2
    · rw [List.concat_eq_append, ← List.append_assoc] at hu
      obtain ⟨-, hd⟩ := List.append_inj' hu rfl
      obtain ⟨u', rfl⟩ := ih v (by rw [List.concat_eq_append, hd])
      exact ⟨new ++ u', (List.append_assoc _ _ _).symm⟩

/-- A piece without the mark that begins the exchanged list begins the list itself. -/
theorem peel (hR : ∀ old new, R old new → new.head? = some a) {m' : List α} :
    ∀ x, a ∉ x → Exchange R l (x ++ m') → ∃ m, l = x ++ m ∧ Exchange R m m' := by
  intro x
  induction x generalizing l with
  | nil => exact fun _ h => ⟨l, rfl, h⟩
  | cons d x ih =>
    intro ha h
    generalize hl' : d :: x ++ m' = l' at h
    cases h with
    | nil => simp at hl'
    | @keep c l l' h =>
      obtain ⟨rfl, rfl⟩ := List.cons.inj hl'
      obtain ⟨m, rfl, hm⟩ := ih (fun hx => ha (List.mem_cons_of_mem _ hx)) h
      exact ⟨m, rfl, hm⟩
    | @swap old new l l' hold h =>
      have hhead := hR old new hold
      cases new with
      | nil => simp at hhead
      | cons b t =>
        obtain ⟨rfl, -⟩ := List.cons.inj hl'
        exact absurd (by simpa using hhead) (fun heq : d = a => ha (heq ▸ List.mem_cons_self))

end Exchange

/-! ## Several replacements -/

section All

variable [DecidableEq α] {l l' p x y : List α} {a : α} {R : List α → List α → Prop}

theorem replace_append (hd : Detached x p) : replace x y (p ++ l) = p ++ replace x y l := by
  induction p with
  | nil => rfl
  | cons c p ih =>
    have hp : ¬ x <+: c :: (p ++ l) := hd (c :: p) l (List.suffix_refl _) (by simp)
    rw [List.cons_append, replace_keep hp, ih hd.tail]
    rfl

/-- A replacement of a piece that the new pieces leave alone adds to an exchange. -/
theorem Exchange.replace (hx : x ≠ []) (ha : a ∉ x) (hxy : R x y)
    (hR : ∀ old new, R old new → new.head? = some a ∧ Detached x new) (h : Exchange R l l') :
    Exchange R l (replace x y l') := by
  induction hn : l'.length using Nat.strong_induction_on generalizing l l' with
  | _ n ih =>
    subst hn
    by_cases hp : x <+: l'
    · obtain ⟨m', rfl⟩ := hp
      obtain ⟨m, rfl, hm⟩ := h.peel (fun old new hold => (hR old new hold).1) x ha
      rw [replace_swap hx]
      have hlt : m'.length < (x ++ m').length := by
        have := List.length_pos_of_ne_nil hx
        rw [List.length_append]
        omega
      exact .swap hxy (ih _ hlt hm rfl)
    · cases h with
      | nil => exact .nil
      | @keep c l l' h =>
        rw [replace_keep hp]
        exact .keep c (ih _ (Nat.lt_succ_self _) h rfl)
      | @swap old new l l' hold h =>
        obtain ⟨hhead, hd⟩ := hR old new hold
        rw [replace_append hd]
        have hlt : l'.length < (new ++ l').length := by
          have : new ≠ [] := by
            rintro rfl
            simp at hhead
          have := List.length_pos_of_ne_nil this
          rw [List.length_append]
          omega
        exact .swap hold (ih _ hlt h rfl)

/-- Replacements, one after the other. -/
def replaceAll (steps : List (List α × List α)) (l : List α) : List α :=
  steps.foldl (fun l step => replace step.1 step.2 l) l

/-- Replacements that do not see each other: the mark begins every new piece and is in no old
one, and no old piece starts inside a new one. -/
structure Marked (a : α) (steps : List (List α × List α)) : Prop where
  ne_nil : ∀ step ∈ steps, step.1 ≠ []
  head : ∀ step ∈ steps, step.2.head? = some a
  not_mem : ∀ step ∈ steps, a ∉ step.1
  detached : ∀ step ∈ steps, ∀ other ∈ steps, Detached step.1 other.2

theorem Marked.exchange_of_subset {all steps : List (List α × List α)} (h : Marked a all) :
    ∀ l', steps ⊆ all → Exchange (fun old new => (old, new) ∈ all) l l' →
      Exchange (fun old new => (old, new) ∈ all) l (replaceAll steps l') := by
  induction steps with
  | nil => exact fun _ _ hl => hl
  | cons step steps ih =>
    intro l' hsub hl
    obtain ⟨hstep, hsteps⟩ := List.cons_subset.mp hsub
    exact ih _ hsteps (hl.replace (h.ne_nil step hstep) (h.not_mem step hstep) hstep
      fun old new hold => ⟨h.head _ hold, h.detached _ hstep _ hold⟩)

theorem replaceAll_exchange {steps : List (List α × List α)} (h : Marked a steps) (l : List α) :
    Exchange (fun old new => (old, new) ∈ steps) l (replaceAll steps l) :=
  h.exchange_of_subset l (List.Subset.refl _) (.refl l)

/-- Later replacements bring nothing back. -/
theorem Marked.infix_of_replaceAll {all steps : List (List α × List α)} (h : Marked a all)
    {step : List α × List α} (hstep : step ∈ all) :
    ∀ l, steps ⊆ all → step.1 <:+: replaceAll steps l → step.1 <:+: l := by
  induction steps with
  | nil => exact fun _ _ hl => hl
  | cons other steps ih =>
    intro l hsub hl
    obtain ⟨hother, hsteps⟩ := List.cons_subset.mp hsub
    exact infix_of_replace (h.ne_nil other hother) (h.head other hother) (h.not_mem step hstep)
      (h.detached _ hstep _ hother) (ih _ hsteps hl)

/-- No piece that was to be replaced is left. -/
theorem not_infix_replaceAll {steps : List (List α × List α)} (h : Marked a steps)
    {step : List α × List α} (hstep : step ∈ steps) (l : List α) :
    ¬ step.1 <:+: replaceAll steps l := by
  obtain ⟨before, after, heq⟩ := List.append_of_mem hstep
  intro hl
  have hafter : after ⊆ steps := by
    rw [heq]
    exact fun other hother => List.mem_append_right _ (List.mem_cons_of_mem _ hother)
  rw [replaceAll, heq, List.foldl_append, List.foldl_cons] at hl
  exact not_infix_replace (h.ne_nil step hstep) (h.head step hstep) (h.not_mem step hstep)
    (h.detached _ hstep _ hstep) (h.infix_of_replaceAll hstep _ hafter hl)

end All

end Replace
