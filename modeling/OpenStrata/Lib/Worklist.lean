import Mathlib.Data.List.Destutter

/-!
# Worklists

A worklist takes entries from the front of a queue, changes a state by each, and appends the
entries that follow from it. `drain` is the loop with a bound on its iterations, `Drained` the
same run without one; a measure of the entries a state may still append connects the two.

## Main definitions

* `Worklist.drain`: the bounded loop
* `Worklist.Drained`: runs that empty the queue

## Main results

* `Worklist.drained_of_drain`, `Worklist.Drained.drain`: with enough fuel the loop is the run
* `Worklist.Drained.invariant`: what every visit preserves holds at the end
* `Worklist.drained_repeat_iff`: an entry that repeats its neighbour may be dropped
* `Worklist.drain_map`: the loop is carried along a map of states and entries
-/

namespace Worklist

variable {σ τ σ' τ' ε : Type*}

/-- A state with the entries still to visit. -/
@[ext] structure Loop (σ τ : Type*) where
  queue : List τ
  state : σ

/-- Visit the front entry, if there is one. -/
def step (visit : σ → τ → Except ε (σ × List τ)) (l : Loop σ τ) : Except ε (Loop σ τ) :=
  match l.queue with
  | [] => .ok l
  | entry :: rest => do
    let (state, pushed) ← visit l.state entry
    return { queue := rest ++ pushed, state }

/-- At most `fuel` visits. -/
def drain (visit : σ → τ → Except ε (σ × List τ)) : Nat → Loop σ τ → Except ε (Loop σ τ)
  | 0, l => .ok l
  | fuel + 1, l => do drain visit fuel (← step visit l)

/-- The runs that empty a queue. -/
inductive Drained (visit : σ → τ → Except ε (σ × List τ)) : σ → List τ → σ → Prop
  | done (s : σ) : Drained visit s [] s
  | visit {s s₁ s' : σ} {entry : τ} {rest pushed : List τ}
      (hvisit : visit s entry = .ok (s₁, pushed))
      (hrest : Drained visit s₁ (rest ++ pushed) s') : Drained visit s (entry :: rest) s'

variable {visit : σ → τ → Except ε (σ × List τ)}

theorem step_cons {s s₁ : σ} {entry : τ} {rest pushed : List τ}
    (h : visit s entry = .ok (s₁, pushed)) :
    step visit ⟨entry :: rest, s⟩ = .ok ⟨rest ++ pushed, s₁⟩ := by
  simp [step, h, bind, Except.bind, pure, Except.pure]

theorem step_cons_ok {s : σ} {entry : τ} {rest : List τ} {l : Loop σ τ}
    (h : step visit ⟨entry :: rest, s⟩ = .ok l) :
    ∃ s₁ pushed, visit s entry = .ok (s₁, pushed) ∧ l = ⟨rest ++ pushed, s₁⟩ := by
  cases hv : visit s entry with
  | error e => simp [step, hv, bind, Except.bind] at h
  | ok r =>
    obtain ⟨s₁, pushed⟩ := r
    rw [step_cons hv] at h
    cases h
    exact ⟨s₁, pushed, rfl, rfl⟩

theorem drain_nil (fuel : Nat) (s : σ) : drain visit fuel ⟨[], s⟩ = .ok ⟨[], s⟩ := by
  induction fuel with
  | zero => rfl
  | succ fuel ih => simpa [drain, step, bind, Except.bind] using ih

/-! ## Fuel -/

section Fuel

variable {measure : σ → Nat}

/-- With fuel for the queue and for what may still be appended, a successful loop has emptied
its queue. -/
theorem drained_of_drain
    (hmeasure : ∀ s entry s₁ pushed, visit s entry = .ok (s₁, pushed) →
      measure s₁ + pushed.length ≤ measure s)
    {fuel : Nat} {l l' : Loop σ τ} (hfuel : l.queue.length + measure l.state ≤ fuel)
    (h : drain visit fuel l = .ok l') :
    l'.queue = [] ∧ Drained visit l.state l.queue l'.state := by
  induction fuel generalizing l with
  | zero =>
    have hq : l.queue = [] := List.eq_nil_of_length_eq_zero (by omega)
    cases h
    exact ⟨hq, hq ▸ .done _⟩
  | succ fuel ih =>
    obtain ⟨queue, s⟩ := l
    cases queue with
    | nil =>
      rw [drain_nil] at h
      cases h
      exact ⟨rfl, .done _⟩
    | cons entry rest =>
      cases hs : step visit ⟨entry :: rest, s⟩ with
      | error e => simp [drain, hs, bind, Except.bind] at h
      | ok l₁ =>
        obtain ⟨s₁, pushed, hv, rfl⟩ := step_cons_ok hs
        have hle := hmeasure _ _ _ _ hv
        have hdrain : drain visit fuel ⟨rest ++ pushed, s₁⟩ = .ok l' := by
          simpa [drain, hs, bind, Except.bind] using h
        obtain ⟨hq, hd⟩ := ih (by simp at hfuel ⊢; omega) hdrain
        exact ⟨hq, .visit hv hd⟩

/-- A run that empties the queue is the loop with enough fuel. -/
theorem Drained.drain
    (hmeasure : ∀ s entry s₁ pushed, visit s entry = .ok (s₁, pushed) →
      measure s₁ + pushed.length ≤ measure s)
    {fuel : Nat} {s s' : σ} {queue : List τ} (h : Drained visit s queue s')
    (hfuel : queue.length + measure s ≤ fuel) :
    drain visit fuel ⟨queue, s⟩ = .ok ⟨[], s'⟩ := by
  induction h generalizing fuel with
  | done s => exact drain_nil fuel s
  | @visit s s₁ s' entry rest pushed hv _ ih =>
    have hle := hmeasure _ _ _ _ hv
    cases fuel with
    | zero => simp at hfuel
    | succ fuel =>
      have hrest := @ih fuel (by simp at hfuel ⊢; omega)
      simpa [Worklist.drain, step_cons hv, bind, Except.bind] using hrest

end Fuel

/-! ## Invariants -/

/-- What holds of a state and its queue, and is preserved by every visit, holds at the end. -/
theorem Drained.invariant {inv : σ → List τ → Prop}
    (hvisit : ∀ s entry rest s₁ pushed, inv s (entry :: rest) →
      visit s entry = .ok (s₁, pushed) → inv s₁ (rest ++ pushed))
    {s s' : σ} {queue : List τ} (h : Drained visit s queue s') (hinv : inv s queue) :
    inv s' [] := by
  induction h with
  | done s => exact hinv
  | visit hv _ ih => exact ih (hvisit _ _ _ _ _ hinv hv)

/-! ## Repeated entries -/

/-- An entry that changes nothing when it is visited a second time. -/
def Settles (visit : σ → τ → Except ε (σ × List τ)) (entry : τ) : Prop :=
  ∀ s s₁ pushed, visit s entry = .ok (s₁, pushed) → visit s₁ entry = .ok (s₁, [])

/-- A second visit right after the first may be dropped, or inserted. -/
theorem drained_repeat_iff {entry : τ} (hset : Settles visit entry) {s s' : σ}
    {before after : List τ} :
    Drained visit s (before ++ entry :: entry :: after) s' ↔
      Drained visit s (before ++ entry :: after) s' := by
  constructor
  · intro h
    generalize hq : before ++ entry :: entry :: after = queue at h
    induction h generalizing before after with
    | done s => simp at hq
    | @visit s s₁ s' e rest pushed hv hrest ih =>
      cases before with
      | nil =>
        obtain ⟨rfl, rfl⟩ := List.cons.inj hq
        cases hrest with
        | visit hv₂ hrest₂ =>
          rw [hset _ _ _ hv] at hv₂
          cases hv₂
          exact .visit hv (by simpa using hrest₂)
      | cons b before =>
        obtain ⟨rfl, rfl⟩ := List.cons.inj hq
        refine .visit hv ?_
        have := @ih before (after ++ pushed) (by simp)
        simpa using this
  · intro h
    generalize hq : before ++ entry :: after = queue at h
    induction h generalizing before after with
    | done s => simp at hq
    | @visit s s₁ s' e rest pushed hv hrest ih =>
      cases before with
      | nil =>
        obtain ⟨rfl, rfl⟩ := List.cons.inj hq
        refine .visit hv (.visit (hset _ _ _ hv) ?_)
        simpa using hrest
      | cons b before =>
        obtain ⟨rfl, rfl⟩ := List.cons.inj hq
        refine .visit hv ?_
        have := @ih before (after ++ pushed) (by simp)
        simpa using this

/-- Neighbouring repetitions of a queue make no difference. -/
theorem drained_destutter_iff [DecidableEq τ] {queue : List τ}
    (hset : ∀ entry ∈ queue, Settles visit entry) {s s' : σ} :
    Drained visit s (queue.destutter (· ≠ ·)) s' ↔ Drained visit s queue s' := by
  have hfrom : ∀ (rest before : List τ) (a : τ), (∀ entry ∈ a :: rest, Settles visit entry) →
      (Drained visit s (before ++ rest.destutter' (· ≠ ·) a) s' ↔
        Drained visit s (before ++ a :: rest) s') := by
    intro rest
    induction rest with
    | nil => simp
    | cons b rest ih =>
      intro before a hset
      by_cases hab : a = b
      · subst hab
        rw [List.destutter'_cons_neg _ (by simp),
          ih before a fun entry he => hset entry (List.mem_cons_of_mem _ he)]
        exact (drained_repeat_iff (hset a List.mem_cons_self)).symm
      · rw [List.destutter'_cons_pos _ hab]
        have := ih (before ++ [a]) b fun entry he => hset entry (List.mem_cons_of_mem _ he)
        simpa using this
  cases queue with
  | nil => simp
  | cons a rest => exact hfrom rest [] a hset

/-! ## Maps -/

/-- A loop with its states and entries carried along maps. -/
def Loop.map (f : σ → σ') (g : τ → τ') (l : Loop σ τ) : Loop σ' τ' :=
  { queue := l.queue.map g, state := f l.state }

/-- The loop is carried along a map of states and entries that visiting respects. -/
theorem drain_map {visit' : σ' → τ' → Except ε (σ' × List τ')} {f : σ → σ'} {g : τ → τ'}
    (hvisit : ∀ s entry, visit' (f s) (g entry) =
      (visit s entry).map fun r => (f r.1, r.2.map g))
    (fuel : Nat) (l : Loop σ τ) :
    drain visit' fuel (l.map f g) = (drain visit fuel l).map (Loop.map f g) := by
  induction fuel generalizing l with
  | zero => rfl
  | succ fuel ih =>
    obtain ⟨queue, s⟩ := l
    cases queue with
    | nil =>
      show drain visit' (fuel + 1) ⟨[], f s⟩ = _
      rw [drain_nil, drain_nil]
      rfl
    | cons entry rest =>
      have hv := hvisit s entry
      cases h : visit s entry with
      | error e =>
        rw [h] at hv
        simp [drain, step, Loop.map, h, hv, Except.map, bind, Except.bind]
      | ok r =>
        obtain ⟨s₁, pushed⟩ := r
        rw [h] at hv
        have hstep : step visit' (Loop.map f g ⟨entry :: rest, s⟩) =
            .ok (Loop.map f g ⟨rest ++ pushed, s₁⟩) := by
          rw [Loop.map, List.map_cons, step_cons hv]
          simp [Loop.map]
        simp only [drain, hstep, step_cons h, bind, Except.bind]
        exact ih _

end Worklist
