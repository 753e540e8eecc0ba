import Mathlib.Data.List.Basic

/-!
# Patterns with stars

A pattern is a list in which one symbol, the star, stands for any run. The relation is generic in
what the other symbols stand for, so that it serves for the characters of a name and for the
components of a path.

The usual matcher walks along the value and remembers the last star it has met; when it gets stuck
it lets that star take one symbol more. It is complete for values without stars. Where the value
has a star of its own, the matcher takes the two for equal before it takes the first for a
wildcard, and loses the runs that begin with a star.

## Main definitions

* `Matches`: the pattern stands for the value
* `Meets`: it does, with every star that comes upon a star taking exactly that one
* `Scan`, `Scan.run`: the matcher that remembers the last star
* `Code`: an encoding by which lists are flattened, in which a symbol can be told from the middle
  of another one
* `Table.accepts`: the matcher that fills a table of prefixes, one row for each symbol

## Main results

* `matches_star_cons`, `matches_one_iff`: what a pattern stands for, by its first symbol
* `Scan.run_iff`: what the matcher accepts
* `Meets.matches`: what it accepts is a match
* `Code.meets_iff`: on encoded lists it accepts the same
* `Table.accepts_iff`: what the table accepts
-/

namespace Glob

variable {α β : Type}

/-- Every star of the pattern stands for a run and every other symbol for a related one. -/
inductive Matches (star : α) (R : α → β → Prop) : List α → List β → Prop
  | nil : Matches star R [] []
  | star (run : List β) {p : List α} {v : List β} :
    Matches star R p v → Matches star R (star :: p) (run ++ v)
  | one {a : α} {b : β} {p : List α} {v : List β} :
    a ≠ star → R a b → Matches star R p v → Matches star R (a :: p) (b :: v)

/-- A match in which a star that stands before a star of the value takes exactly that one. -/
inductive Meets (star : α) : List α → List α → Prop
  | nil : Meets star [] []
  | star (run : List α) {p v : List α} :
    (run ++ v).head? ≠ some star → Meets star p v → Meets star (star :: p) (run ++ v)
  | same {a : α} {p v : List α} : Meets star p v → Meets star (a :: p) (a :: v)

section Relations

variable {star a : α} {R : α → β → Prop} {p q v : List α} {w : List β}

theorem matches_nil_iff : Matches star R [] w ↔ w = [] := by
  constructor
  · intro h
    cases h
    rfl
  · rintro rfl
    exact .nil

/-- A star takes what a suffix leaves. -/
theorem matches_star_iff : Matches star R (star :: p) w ↔ ∃ k, Matches star R p (w.drop k) := by
  constructor
  · intro h
    cases h with
    | star run h => exact ⟨run.length, by rwa [List.drop_left]⟩
    | one hne => exact absurd rfl hne
  · rintro ⟨k, h⟩
    rw [← List.take_append_drop k w]
    exact .star _ h

/-- A star takes nothing, or one symbol and goes on. -/
theorem matches_star_cons {b : β} : Matches star R (star :: p) (b :: w) ↔
    Matches star R p (b :: w) ∨ Matches star R (star :: p) w := by
  simp only [matches_star_iff]
  constructor
  · rintro ⟨k, h⟩
    cases k with
    | zero => exact .inl h
    | succ k => exact .inr ⟨k, h⟩
  · rintro (h | ⟨k, h⟩)
    · exact ⟨0, h⟩
    · exact ⟨k + 1, h⟩

theorem matches_one_iff (ha : a ≠ star) :
    Matches star R (a :: p) w ↔ ∃ b w', w = b :: w' ∧ R a b ∧ Matches star R p w' := by
  constructor
  · intro h
    cases h with
    | star run h => exact absurd rfl ha
    | one _ hab h => exact ⟨_, _, rfl, hab, h⟩
  · rintro ⟨b, w', rfl, hab, h⟩
    exact .one ha hab h

/-- Weaker relations match more. -/
theorem Matches.imp_mem {S : α → β → Prop} (h : Matches star R p w)
    (hRS : ∀ a, ∀ b ∈ w, R a b → S a b) : Matches star S p w := by
  induction h with
  | nil => exact .nil
  | star run _ ih => exact .star run (ih fun a b hb => hRS a b (List.mem_append_right run hb))
  | one hne hab _ ih =>
    exact .one hne (hRS _ _ List.mem_cons_self hab)
      (ih fun a b hb => hRS a b (List.mem_cons_of_mem _ hb))

theorem Matches.imp {S : α → β → Prop} (h : Matches star R p w) (hRS : ∀ a b, R a b → S a b) :
    Matches star S p w :=
  h.imp_mem fun a b _ => hRS a b

/-- What meets the value matches it. -/
theorem Meets.matches (h : Meets star p v) : Matches star (· = ·) p v := by
  induction h with
  | nil => exact .nil
  | star run _ _ ih => exact .star run ih
  | @same a p v h ih =>
    by_cases ha : a = star
    · subst ha
      exact .star [a] ih
    · exact .one ha rfl ih

theorem meets_nil_left (h : Meets star [] v) : v = [] := by
  cases h
  rfl

/-- Before another symbol a star takes what a suffix leaves. -/
theorem meets_star_iff (hv : v.head? ≠ some star) :
    Meets star (star :: p) v ↔ ∃ k, Meets star p (v.drop k) := by
  constructor
  · intro h
    cases h with
    | star run _ h => exact ⟨run.length, by rwa [List.drop_left]⟩
    | same h => exact absurd rfl hv
  · rintro ⟨k, h⟩
    rw [← List.take_append_drop k v] at hv ⊢
    exact .star _ hv h

theorem not_meets_nil {b : α} : ¬Meets star [] (b :: v) := by
  intro h
  cases meets_nil_left h

theorem meets_cons_self : Meets star (a :: p) (a :: v) ↔ Meets star p v := by
  refine ⟨fun h => ?_, .same⟩
  generalize hw : a :: v = w at h
  cases h with
  | star run hhead _ =>
    rw [← hw] at hhead
    exact absurd rfl hhead
  | same h =>
    cases hw
    exact h

theorem not_meets_of_ne {b : α} (hab : a ≠ b) (ha : a ≠ star) : ¬Meets star (a :: p) (b :: v) := by
  intro h
  generalize hw : b :: v = w at h
  cases h with
  | star run _ _ => exact ha rfl
  | same _ => exact hab (List.cons.inj hw).1.symm

/-- Of what a star may take, a suffix remains. -/
theorem Meets.exists_drop (h : Meets star (star :: p) v) : ∃ k, Meets star p (v.drop k) := by
  cases h with
  | star run _ h => exact ⟨run.length, by rwa [List.drop_left]⟩
  | same h => exact ⟨1, h⟩

/-- What has been taken for the same once leaves no less when the pattern is tried later. -/
theorem Meets.of_shift {l : List α} {k : Nat} (h : Meets star (l ++ q) ((l ++ v).drop k)) :
    ∃ j, Meets star q (v.drop j) := by
  induction l generalizing k with
  | nil => exact ⟨k, h⟩
  | cons c l ih =>
    cases k with
    | zero => exact ih (k := 0) (meets_cons_self.mp h)
    | succ k =>
      rw [List.cons_append, List.cons_append, List.drop_succ_cons] at h
      by_cases hc : c = star
      · subst hc
        obtain ⟨j, h⟩ := h.exists_drop
        rw [List.drop_drop] at h
        exact ih h
      · generalize hw : (l ++ v).drop k = w at h
        cases h with
        | star run _ _ => exact absurd rfl hc
        | @same _ _ w h =>
          have htail : (l ++ v).drop (k + 1) = w := by
            rw [← List.drop_drop, hw]
            rfl
          rw [← htail] at h
          exact ih h

end Relations

/-! ## The matcher -/

/-- What is left of the pattern and of the value, and the last star met: what follows it in the
pattern, and the value from where it stands. What both have left is the same run shorter. -/
structure Scan (α : Type) where
  pattern : List α
  value : List α
  star : Option (List α × List α)
  consumed : ∀ s ∈ star, ∃ l, s.1 = l ++ pattern ∧ s.2 = l ++ value

namespace Scan

def start (p v : List α) : Scan α := ⟨p, v, none, by simp⟩

/-- The star was met here. -/
def meet (p v : List α) : Scan α := ⟨p, v, some (p, v), by simp⟩

def same {a : α} {p v : List α} {star : Option (List α × List α)}
    (consumed : ∀ s ∈ star, ∃ l, s.1 = l ++ a :: p ∧ s.2 = l ++ a :: v) : Scan α :=
  ⟨p, v, star, fun s hs => by
    obtain ⟨l, hp, hv⟩ := consumed s hs
    exact ⟨l ++ [a], by simp [hp], by simp [hv]⟩⟩

variable [DecidableEq α]

/-- The loop of the matcher: the same symbol, a star, or one symbol more for the last star. -/
def run (star : α) : Scan α → Bool
  | ⟨p, [], _, _⟩ => (p.dropWhile (· = star)).isEmpty
  | ⟨a :: p, b :: v, last, consumed⟩ =>
    if h : a = b then run star (same (h ▸ consumed))
    else if a = star then run star (meet p (b :: v))
    else
      match last with
      | some (q, w) => run star (meet q w.tail)
      | none => false
  | ⟨[], b :: v, last, _consumed⟩ =>
    match last with
    | some (q, w) => run star (meet q w.tail)
    | none => false
termination_by s => (s.star.elim (s.value.length + 1) (·.2.length), s.pattern.length)
decreasing_by
  · cases last with
    | none => exact Prod.Lex.left _ _ (by simp [same])
    | some last => exact Prod.Lex.right _ (by simp [same])
  · cases last with
    | none => exact Prod.Lex.left _ _ (by simp [meet])
    | some last =>
      obtain ⟨l, -, hl⟩ := consumed last rfl
      exact Prod.Lex.right' _ (by simp [meet, hl]) (by simp [meet])
  · obtain ⟨l, -, hl⟩ := consumed _ rfl
    dsimp only at hl
    exact Prod.Lex.left _ _ (by simp [meet, hl])
  · obtain ⟨l, -, hl⟩ := _consumed _ rfl
    dsimp only at hl
    exact Prod.Lex.left _ _ (by simp [meet, hl])

/-- What is left matches, or the last star takes more than it has and the rest matches again. -/
def Accepts (star : α) (s : Scan α) : Prop :=
  Meets star s.pattern s.value ∨ ∃ last ∈ s.star, ∃ k, Meets star last.1 (last.2.drop (k + 1))

section Accepts

variable {star a b : α} {p q v w : List α} {last : Option (List α × List α)}

omit [DecidableEq α] in
theorem accepts_start : Accepts star (start p v) ↔ Meets star p v := by
  simp [Accepts, start]

omit [DecidableEq α] in
theorem accepts_meet : Accepts star (meet p v) ↔ ∃ k, Meets star p (v.drop k) := by
  simp only [Accepts, meet, Option.mem_def, Option.some.injEq, exists_eq_left']
  constructor
  · rintro (h | ⟨k, h⟩)
    · exact ⟨0, h⟩
    · exact ⟨k + 1, h⟩
  · rintro ⟨k, h⟩
    cases k with
    | zero => exact .inl h
    | succ k => exact .inr ⟨k, h⟩

omit [DecidableEq α] in
theorem accepts_same {consumed : ∀ s ∈ last, ∃ l, s.1 = l ++ a :: p ∧ s.2 = l ++ a :: v} :
    Accepts star ⟨a :: p, a :: v, last, consumed⟩ ↔ Accepts star (same consumed) :=
  or_congr meets_cons_self Iff.rfl

omit [DecidableEq α] in
/-- A new star gives up the one before: it may take whatever that one could leave. -/
theorem accepts_star {consumed : ∀ s ∈ last, ∃ l, s.1 = l ++ star :: p ∧ s.2 = l ++ b :: v}
    (hb : star ≠ b) :
    Accepts star ⟨star :: p, b :: v, last, consumed⟩ ↔ Accepts star (meet p (b :: v)) := by
  have hhead : (b :: v).head? ≠ some star := fun h => hb (Option.some.inj h).symm
  rw [accepts_meet, ← meets_star_iff hhead]
  refine ⟨?_, .inl⟩
  rintro (h | ⟨s, hs, k, h⟩)
  · exact h
  · obtain ⟨l, hp, hv⟩ := consumed s hs
    rw [hp, hv] at h
    obtain ⟨j, h⟩ := h.of_shift
    obtain ⟨i, h⟩ := h.exists_drop
    rw [List.drop_drop] at h
    exact (meets_star_iff hhead).mpr ⟨_, h⟩

omit [DecidableEq α] in
/-- Where the pattern does not go on, only the last star helps. -/
theorem accepts_stuck {s : Scan α} (hstuck : ¬Meets star s.pattern s.value)
    (hlast : s.star = some (q, w)) : Accepts star s ↔ Accepts star (meet q w.tail) := by
  rw [accepts_meet]
  simp only [Accepts, hstuck, hlast, false_or, Option.mem_def, Option.some.injEq, exists_eq_left',
    List.drop_tail]

omit [DecidableEq α] in
theorem accepts_none {s : Scan α} (hlast : s.star = none) :
    Accepts star s ↔ Meets star s.pattern s.value := by
  simp [Accepts, hlast]

theorem meets_nil_right : Meets star p [] ↔ (p.dropWhile (· = star)).isEmpty = true := by
  induction p with
  | nil => simp [Meets.nil]
  | cons a p ih =>
    by_cases ha : a = star
    · subst ha
      rw [meets_star_iff (by simp), List.dropWhile_cons_of_pos (by simp), ← ih]
      simp
    · rw [List.dropWhile_cons_of_neg (by simpa using ha)]
      refine iff_of_false (fun h => ?_) (by simp)
      generalize hv : ([] : List α) = v at h
      cases h with
      | star _ _ _ => exact ha rfl
      | same _ => cases hv

/-- At the end of the value the stars that are left take nothing. -/
theorem accepts_nil {consumed : ∀ s ∈ last, ∃ l, s.1 = l ++ p ∧ s.2 = l ++ []} :
    Accepts star ⟨p, [], last, consumed⟩ ↔ (p.dropWhile (· = star)).isEmpty = true := by
  rw [← meets_nil_right]
  refine ⟨?_, .inl⟩
  rintro (h | ⟨s, hs, k, h⟩)
  · exact h
  · obtain ⟨l, hp, hv⟩ := consumed s hs
    rw [hp, hv] at h
    obtain ⟨j, h⟩ := h.of_shift
    simpa using h

theorem run_iff_accepts (s : Scan α) : run star s = true ↔ Accepts star s := by
  fun_induction run star s with
  | case1 p last consumed => exact accepts_nil.symm
  | case2 p v last a consumed ih => exact ih.trans accepts_same.symm
  | case3 p b v last consumed hb ih => exact ih.trans (accepts_star hb).symm
  | case4 a p b v hab ha q w consumed _ ih =>
    exact ih.trans (accepts_stuck (not_meets_of_ne hab ha) rfl).symm
  | case5 a p b v hab ha consumed _ =>
    exact iff_of_false nofun ((accepts_none rfl).not.mpr (not_meets_of_ne hab ha))
  | case6 b v q w consumed _ ih =>
    exact ih.trans (accepts_stuck not_meets_nil rfl).symm
  | case7 b v consumed _ =>
    exact iff_of_false nofun ((accepts_none rfl).not.mpr not_meets_nil)

/-- The matcher accepts the values that meet the pattern. -/
theorem run_iff : run star (start p v) = true ↔ Meets star p v :=
  (run_iff_accepts _).trans accepts_start

end Accepts

end Scan

/-! ## Encodings -/

/-- Every symbol is encoded by a head and a tail of other symbols, and an encoding says whose it
is. -/
structure Code (enc : α → List β) (isTail : β → Bool) : Prop where
  parts : ∀ a, ∃ b rest, enc a = b :: rest ∧ isTail b = false ∧ ∀ c ∈ rest, isTail c = true
  unique : ∀ {a b : α} {x y : List β}, enc a ++ x = enc b ++ y → a = b

section Code

variable {enc : α → List β} {isTail : β → Bool} {star a : α} {star' : β} {p v : List α}
  {q w l : List β}

theorem Meets.append (l : List α) (h : Meets star p v) : Meets star (l ++ p) (l ++ v) := by
  induction l with
  | nil => exact h
  | cons a l ih => exact .same ih

/-- Symbols that are not the star stand for themselves. -/
theorem Meets.of_append (hl : star' ∉ l) (h : Meets star' (l ++ q) w) :
    ∃ w', w = l ++ w' ∧ Meets star' q w' := by
  induction l generalizing w with
  | nil => exact ⟨w, rfl, h⟩
  | cons b l ih =>
    obtain ⟨hb, hl⟩ := not_or.mp fun hmem => hl (List.mem_cons.mpr hmem)
    cases h with
    | star run _ _ => exact absurd rfl hb
    | same h =>
      obtain ⟨w', rfl, hrest⟩ := ih hl h
      exact ⟨w', rfl, hrest⟩

namespace Code

theorem ne_nil (hcode : Code enc isTail) (a : α) : enc a ≠ [] := by
  obtain ⟨b, rest, h, -⟩ := hcode.parts a
  simp [h]

theorem eq_of_head (hcode : Code enc isTail) (hstar : enc star = [star'])
    (h : (enc a).head? = some star') : a = star := by
  obtain ⟨rest, hrest⟩ := List.head?_eq_some_iff.mp h
  refine hcode.unique (x := []) (y := rest) ?_
  rw [List.append_nil, hrest, hstar]
  rfl

theorem isTail_star (hcode : Code enc isTail) (hstar : enc star = [star']) :
    isTail star' = false := by
  obtain ⟨b, rest, h, hb, -⟩ := hcode.parts star
  rw [hstar] at h
  cases h
  exact hb

/-- The star is in no other encoding. -/
theorem not_mem (hcode : Code enc isTail) (hstar : enc star = [star']) (ha : a ≠ star) :
    star' ∉ enc a := by
  intro hmem
  obtain ⟨b, rest, h, -, hrest⟩ := hcode.parts a
  rw [h] at hmem
  rcases List.mem_cons.mp hmem with rfl | hmem
  · exact ha (hcode.eq_of_head hstar (by rw [h]; rfl))
  · have htail := hrest star' hmem
    rw [hcode.isTail_star hstar] at htail
    cases htail

/-- An encoded list that begins with an encoding begins with its symbol. -/
theorem exists_cons (hcode : Code enc isTail) (h : v.flatMap enc = enc a ++ w) :
    ∃ v', v = a :: v' ∧ w = v'.flatMap enc := by
  cases v with
  | nil =>
    have hnil := (List.append_eq_nil_iff.mp h.symm).1
    exact absurd hnil (hcode.ne_nil a)
  | cons b v =>
    rw [List.flatMap_cons] at h
    obtain rfl := hcode.unique h
    exact ⟨v, rfl, (List.append_cancel_left h).symm⟩

/-- An encoded list is cut between two symbols or in the middle of one. -/
theorem exists_cut (hcode : Code enc isTail) (h : v.flatMap enc = q ++ w) :
    (∃ before after, v = before ++ after ∧ w = after.flatMap enc) ∨
      ∃ before x after tail, v = before ++ x :: after ∧ w = tail ++ after.flatMap enc ∧
        tail ≠ [] ∧ (∀ b ∈ tail, isTail b = true) ∧ 2 ≤ (enc x).length := by
  induction v generalizing q with
  | nil =>
    obtain ⟨-, rfl⟩ := List.append_eq_nil_iff.mp h.symm
    exact .inl ⟨[], [], rfl, rfl⟩
  | cons a v ih =>
    rw [List.flatMap_cons] at h
    rcases List.append_eq_append_iff.mp h with ⟨q', rfl, hv⟩ | ⟨tail, hq, rfl⟩
    · rcases ih hv with ⟨before, after, rfl, hw⟩ | ⟨before, x, after, tail, rfl, hw⟩
      · exact .inl ⟨a :: before, after, rfl, hw⟩
      · exact .inr ⟨a :: before, x, after, tail, rfl, hw⟩
    · by_cases htail : tail = []
      · subst htail
        exact .inl ⟨[a], v, rfl, rfl⟩
      · cases q with
        | nil => exact .inl ⟨[], a :: v, rfl, by rw [List.flatMap_cons, hq]; rfl⟩
        | cons b q =>
          obtain ⟨b', rest, hparts, -, hrest⟩ := hcode.parts a
          have hall : ∀ c ∈ tail, isTail c = true := by
            rw [hparts, List.cons_append] at hq
            obtain ⟨-, rfl⟩ := List.cons.inj hq
            exact fun c hc => hrest c (List.mem_append_right q hc)
          refine .inr ⟨[], a, v, tail, rfl, rfl, htail, hall, ?_⟩
          have hpos := List.length_pos_iff.mpr htail
          rw [hq, List.length_append, List.length_cons]
          omega

theorem head?_flatMap (hstar : enc star = [star']) (h : v.head? = some star) :
    (v.flatMap enc).head? = some star' := by
  obtain ⟨v', rfl⟩ := List.head?_eq_some_iff.mp h
  rw [List.flatMap_cons, hstar]
  rfl

/-- What meets on encodings meets. Where the value begins with the tail of a symbol, that symbol
has been left to the star before. -/
theorem meets_of_encoded (hcode : Code enc isTail) (hstar : enc star = [star']) (tail : List β)
    (htail : ∀ b ∈ tail, isTail b = true)
    (h : Meets star' (p.flatMap enc) (tail ++ v.flatMap enc)) :
    (tail = [] → Meets star p v) ∧ (tail ≠ [] → ∀ x ≠ star, Meets star p (x :: v)) := by
  induction p generalizing tail v with
  | nil =>
    obtain ⟨rfl, hv⟩ := List.append_eq_nil_iff.mp (meets_nil_left h)
    have hv : v = [] := by
      cases v with
      | nil => rfl
      | cons a v => exact absurd (List.append_eq_nil_iff.mp hv).1 (hcode.ne_nil a)
    subst hv
    exact ⟨fun _ => .nil, fun hne => absurd rfl hne⟩
  | cons a p ih =>
    rw [List.flatMap_cons] at h
    by_cases ha : a = star
    · subst ha
      rw [hstar] at h
      generalize hw : tail ++ v.flatMap enc = w at h
      cases h with
      | same h =>
        cases tail with
        | nil =>
          rw [List.nil_append, ← List.singleton_append, ← hstar] at hw
          obtain ⟨v, rfl, rfl⟩ := hcode.exists_cons hw
          exact ⟨fun _ => .same ((ih [] (by simp) h).1 rfl), fun hne => absurd rfl hne⟩
        | cons b tail =>
          obtain ⟨rfl, -⟩ := List.cons.inj hw
          have hb := htail b List.mem_cons_self
          rw [hcode.isTail_star hstar] at hb
          cases hb
      | star run hhead h =>
        rw [← hw] at hhead
        rcases List.append_eq_append_iff.mp hw with ⟨more, -, hv⟩ | ⟨left, rfl, rfl⟩
        · -- The star has taken all of the tail: the rest begins at a symbol, or in one.
          obtain ⟨before, after, rfl, hmeets⟩ : ∃ before after, v = before ++ after ∧
              Meets a p after := by
            rcases hcode.exists_cut hv with ⟨before, after, rfl, rfl⟩ |
              ⟨before, x, after, left, rfl, rfl, hne, hleft, hlength⟩
            · exact ⟨before, after, rfl, (ih [] (by simp) h).1 rfl⟩
            · have hx : x ≠ a := by
                rintro rfl
                rw [hstar] at hlength
                simp at hlength
              exact ⟨before, x :: after, rfl, (ih left hleft h).2 hne x hx⟩
          refine ⟨fun hnil => ?_, fun _ x hx => .star (x :: before) ?_ hmeets⟩
          · subst hnil
            exact .star before (fun hv => hhead (head?_flatMap hstar hv)) hmeets
          · simpa using hx
        · have hleft : ∀ b ∈ left, isTail b = true :=
            fun b hb => htail b (List.mem_append_right run hb)
          obtain ⟨hnil, hcons⟩ := ih left hleft h
          refine ⟨fun htail => ?_, fun _ x hx => ?_⟩
          · obtain ⟨rfl, rfl⟩ := List.append_eq_nil_iff.mp htail
            exact .star [] (fun hv => hhead (head?_flatMap hstar hv)) (hnil rfl)
          · by_cases hl : left = []
            · exact .star [x] (by simpa using hx) (hnil hl)
            · exact .star [] (by simpa using hx) (hcons hl x hx)
    · obtain ⟨w, hw, h⟩ := h.of_append (hcode.not_mem hstar ha)
      cases tail with
      | nil =>
        obtain ⟨v, rfl, rfl⟩ := hcode.exists_cons hw
        exact ⟨fun _ => .same ((ih [] (by simp) h).1 rfl), fun hne => absurd rfl hne⟩
      | cons b tail =>
        obtain ⟨b', rest, hparts, hb', -⟩ := hcode.parts a
        rw [hparts] at hw
        obtain ⟨rfl, -⟩ := List.cons.inj hw
        rw [htail b List.mem_cons_self] at hb'
        cases hb'

theorem encoded_of_meets (hcode : Code enc isTail) (hstar : enc star = [star'])
    (h : Meets star p v) : Meets star' (p.flatMap enc) (v.flatMap enc) := by
  induction h with
  | nil => exact .nil
  | @star run p v hhead h ih =>
    rw [List.flatMap_cons, hstar, List.flatMap_append]
    refine .star _ (fun hv => hhead ?_) ih
    rw [← List.flatMap_append] at hv
    cases hrun : run ++ v with
    | nil =>
      rw [hrun] at hv
      cases hv
    | cons a l =>
      rw [hrun, List.flatMap_cons, List.head?_append_of_ne_nil _ (hcode.ne_nil a)] at hv
      rw [hcode.eq_of_head hstar hv]
      rfl
  | @same a p v h ih =>
    rw [List.flatMap_cons, List.flatMap_cons]
    exact ih.append (enc a)

/-- On encoded lists the same meets. -/
theorem meets_iff (hcode : Code enc isTail) (hstar : enc star = [star']) :
    Meets star' (p.flatMap enc) (v.flatMap enc) ↔ Meets star p v :=
  ⟨fun h => (hcode.meets_of_encoded hstar [] (by simp) h).1 rfl, hcode.encoded_of_meets hstar⟩

end Code

end Code

/-! ## Tables -/

section Append

variable {star a : α} {R : α → β → Prop} {p q : List α} {v w : List β}

theorem Matches.append (h : Matches star R p v) (hq : Matches star R q w) :
    Matches star R (p ++ q) (v ++ w) := by
  induction h with
  | nil => exact hq
  | star run _ ih =>
    rw [List.cons_append, List.append_assoc]
    exact .star run ih
  | one hne hab _ ih => exact .one hne hab ih

theorem matches_append_iff : Matches star R (p ++ q) v ↔
    ∃ v₁ v₂, v = v₁ ++ v₂ ∧ Matches star R p v₁ ∧ Matches star R q v₂ := by
  refine ⟨fun h => ?_, fun ⟨v₁, v₂, hv, hp, hq⟩ => hv ▸ hp.append hq⟩
  induction p generalizing v with
  | nil => exact ⟨[], v, rfl, .nil, h⟩
  | cons a p ih =>
    cases h with
    | star run h =>
      obtain ⟨v₁, v₂, rfl, hp, hq⟩ := ih h
      exact ⟨run ++ v₁, v₂, (List.append_assoc _ _ _).symm, .star run hp, hq⟩
    | one hne hab h =>
      obtain ⟨v₁, v₂, rfl, hp, hq⟩ := ih h
      exact ⟨_ :: v₁, v₂, rfl, .one hne hab hp, hq⟩

theorem matches_concat_star :
    Matches star R (p ++ [star]) v ↔ ∃ v₁ v₂, v = v₁ ++ v₂ ∧ Matches star R p v₁ := by
  rw [matches_append_iff]
  refine exists_congr fun v₁ => exists_congr fun v₂ => and_congr_right fun _ =>
    ⟨And.left, fun h => ⟨h, ?_⟩⟩
  rw [← List.append_nil v₂]
  exact .star v₂ .nil

theorem matches_concat_one (ha : a ≠ star) {b : β} :
    Matches star R (p ++ [a]) (v ++ [b]) ↔ R a b ∧ Matches star R p v := by
  constructor
  · intro h
    obtain ⟨v₁, v₂, hv, hp, hq⟩ := matches_append_iff.mp h
    obtain ⟨c, rest, rfl, hac, hrest⟩ := (matches_one_iff ha).mp hq
    rw [matches_nil_iff.mp hrest] at hv
    obtain ⟨rfl, hbc⟩ := List.append_inj' hv rfl
    cases hbc
    exact ⟨hac, hp⟩
  · exact fun h => h.2.append (.one ha h.1 .nil)

theorem not_matches_concat_one (ha : a ≠ star) : ¬Matches star R (p ++ [a]) [] := by
  intro h
  obtain ⟨v₁, v₂, hv, -, hq⟩ := matches_append_iff.mp h
  obtain ⟨c, rest, rfl, -, -⟩ := (matches_one_iff ha).mp hq
  simp at hv

end Append

namespace Table

variable [DecidableEq α] {star a : α} {r : α → β → Bool} {p : List α} {seen rest : List β}
  {row : List Bool}

/-- The row below one for a star: a match goes on with every symbol. -/
def starRow : Bool → List Bool → List Bool
  | _, [] => []
  | carried, m :: row => (carried || m) :: starRow (carried || m) row

/-- The row below one for a symbol. -/
def nextRow (star : α) (r : α → β → Bool) (value : List β) (row : List Bool) (a : α) : List Bool :=
  if a = star then starRow false row
  else false :: List.zipWith (fun m b => m && r a b) row value

/-- The pattern matches when the whole value is marked in the last row. -/
def accepts (star : α) (r : α → β → Bool) (pattern : List α) (value : List β) : Bool :=
  (pattern.foldl (nextRow star r value) (true :: List.replicate value.length false)).getLast?.any id

/-- A row marks the prefixes of a value that a pattern matches, from those seen so far. -/
def Marks (star : α) (r : α → β → Bool) (p : List α) : List β → List β → List Bool → Prop
  | seen, [], row => ∃ m, row = [m] ∧ (m = true ↔ Matches star (fun a b => r a b) p seen)
  | seen, b :: rest, row => ∃ m row', row = m :: row' ∧
      (m = true ↔ Matches star (fun a b => r a b) p seen) ∧ Marks star r p (seen ++ [b]) rest row'

omit [DecidableEq α] in
theorem marks_start (hseen : seen ≠ []) :
    Marks star r [] seen rest (List.replicate (rest.length + 1) false) := by
  have hnot : ∀ seen : List β, seen ≠ [] →
      (false = true ↔ Matches star (fun a b => r a b) [] seen) := fun _ hseen =>
    iff_of_false Bool.false_ne_true (mt matches_nil_iff.mp hseen)
  induction rest generalizing seen with
  | nil => exact ⟨false, rfl, hnot seen hseen⟩
  | cons b rest ih => exact ⟨false, _, rfl, hnot seen hseen, ih (by simp)⟩

omit [DecidableEq α] in
/-- A star takes what follows a shorter prefix, or nothing. -/
theorem mark_star {carried m : Bool} (hm : m = true ↔ Matches star (fun a b => r a b) p seen)
    (hcarried : carried = true ↔ ∃ v w, seen = v ++ w ∧ w ≠ [] ∧
      Matches star (fun a b => r a b) p v) :
    (carried || m) = true ↔ Matches star (fun a b => r a b) (p ++ [star]) seen := by
  rw [Bool.or_eq_true, hcarried, hm, matches_concat_star]
  constructor
  · rintro (⟨v, w, hv, -, hmatch⟩ | hmatch)
    · exact ⟨v, w, hv, hmatch⟩
    · exact ⟨seen, [], (List.append_nil _).symm, hmatch⟩
  · rintro ⟨v, w, rfl, hmatch⟩
    by_cases hw : w = []
    · subst hw
      exact .inr (by rwa [List.append_nil])
    · exact .inl ⟨v, w, rfl, hw, hmatch⟩

omit [DecidableEq α] in
theorem marks_starRow {carried : Bool} (h : Marks star r p seen rest row)
    (hcarried : carried = true ↔ ∃ v w, seen = v ++ w ∧ w ≠ [] ∧
      Matches star (fun a b => r a b) p v) :
    Marks star r (p ++ [star]) seen rest (starRow carried row) := by
  induction rest generalizing seen row carried with
  | nil =>
    obtain ⟨m, rfl, hm⟩ := h
    exact ⟨_, rfl, mark_star hm hcarried⟩
  | cons b rest ih =>
    obtain ⟨m, row', rfl, hm, hrow⟩ := h
    refine ⟨_, _, rfl, mark_star hm hcarried, ih hrow ?_⟩
    rw [mark_star hm hcarried, matches_concat_star]
    constructor
    · rintro ⟨v, w, rfl, hmatch⟩
      exact ⟨v, w ++ [b], List.append_assoc _ _ _, by simp, hmatch⟩
    · rintro ⟨v, w, hv, hw, hmatch⟩
      rcases List.eq_nil_or_concat w with rfl | ⟨w', c, rfl⟩
      · exact absurd rfl hw
      · rw [List.concat_eq_append, ← List.append_assoc] at hv
        exact ⟨v, w', (List.append_inj' hv rfl).1, hmatch⟩

omit [DecidableEq α] in
theorem marks_oneRow (ha : a ≠ star) {m : Bool} (h : Marks star r p seen rest row)
    (hm : m = true ↔ Matches star (fun a b => r a b) (p ++ [a]) seen) :
    Marks star r (p ++ [a]) seen rest (m :: List.zipWith (fun m b => m && r a b) row rest) := by
  induction rest generalizing seen row m with
  | nil =>
    obtain ⟨m', rfl, -⟩ := h
    exact ⟨m, rfl, hm⟩
  | cons b rest ih =>
    obtain ⟨m', row', rfl, hm', hrow⟩ := h
    refine ⟨m, _, rfl, hm, ih hrow ?_⟩
    rw [Bool.and_eq_true, hm', matches_concat_one ha, and_comm]

theorem marks_nextRow {value : List β} (h : Marks star r p [] value row) (a : α) :
    Marks star r (p ++ [a]) [] value (nextRow star r value row a) := by
  unfold nextRow
  split
  · next heq =>
    subst heq
    refine marks_starRow h (iff_of_false Bool.false_ne_true ?_)
    rintro ⟨v, w, hv, hw, -⟩
    exact hw (List.append_eq_nil_iff.mp hv.symm).2
  · next ha =>
    exact marks_oneRow ha h (iff_of_false Bool.false_ne_true (not_matches_concat_one ha))

omit [DecidableEq α] in
/-- The end of a row marks the whole value. -/
theorem getLast_of_marks (h : Marks star r p seen rest row) :
    row.getLast?.any id ↔ Matches star (fun a b => r a b) p (seen ++ rest) := by
  induction rest generalizing seen row with
  | nil =>
    obtain ⟨m, rfl, hm⟩ := h
    rw [List.append_nil, ← hm]
    rfl
  | cons b rest ih =>
    obtain ⟨m, row', rfl, -, hrow⟩ := h
    have hne : row' ≠ [] := by
      cases rest with
      | nil =>
        obtain ⟨m', rfl, -⟩ := hrow
        exact List.cons_ne_nil _ _
      | cons c rest =>
        obtain ⟨m', row'', rfl, -⟩ := hrow
        exact List.cons_ne_nil _ _
    rw [List.getLast?_cons_of_ne_nil hne, ih hrow, List.append_assoc, List.singleton_append]

/-- The table accepts what the pattern stands for. -/
theorem accepts_iff {pattern : List α} {value : List β} :
    Table.accepts star r pattern value = true ↔
      Matches star (fun a b => r a b) pattern value := by
  have hrun : ∀ (p rest : List α) (row : List Bool), Marks star r p [] value row →
      Marks star r (p ++ rest) [] value (rest.foldl (nextRow star r value) row) := by
    intro p rest
    induction rest generalizing p with
    | nil => exact fun row h => by rwa [List.append_nil]
    | cons a rest ih =>
      intro row h
      rw [List.append_cons]
      exact ih (p ++ [a]) _ (marks_nextRow h a)
  have hstart : Marks star r [] [] value (true :: List.replicate value.length false) := by
    have hnil : (true = true ↔ Matches star (fun a b => r a b) ([] : List α) ([] : List β)) :=
      iff_of_true rfl .nil
    cases value with
    | nil => exact ⟨true, rfl, hnil⟩
    | cons b rest => exact ⟨true, _, rfl, hnil, marks_start (List.cons_ne_nil _ _)⟩
  exact getLast_of_marks (hrun [] pattern _ hstart)

end Table

end Glob
