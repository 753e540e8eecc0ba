import Mathlib.Data.Finset.Card
import Mathlib.Data.List.Infix
import Mathlib.Logic.Relation
import Std.Data.ExtTreeMap

/-!
# Depth-first walks

A graph is given by the successors of each vertex. `enter` walks depth-first from a vertex and
appends each vertex after its successors, `search` also tells the vertices of its own path
from the finished ones and records the path that closes a cycle. Both recurse to a depth
bounded by `fuel`, and a bound on the vertices not yet seen is a bound on the depth.

## Main definitions

* `DepthFirst.DependenciesFirst`: lists in which the successors of a vertex stand before it
* `DepthFirst.enter`, `DepthFirst.Walk`: the walk that lists vertices after their successors
* `DepthFirst.search`, `DepthFirst.Search`: the walk that looks for cycles

## Main results

* `DepthFirst.DependenciesFirst.acyclic`: a graph whose vertices can be so listed has no cycle
* `DepthFirst.foldlM_enter`: in a graph without cycles a walk lists what its roots reach, each
  vertex once and after its successors
* `DepthFirst.search_some`: enough fuel lets a search finish
* `DepthFirst.foldlM_searchNew_acyclic`: a graph in which no cycle is recorded has none
-/

namespace DepthFirst

open Relation (TransGen ReflTransGen)
open Std (ExtTreeMap TransOrd LawfulEqOrd)

variable {α β : Type*} {next : α → List α}

/-- An edge leads from a vertex to each of its successors. -/
def Edge (next : α → List α) (a b : α) : Prop := b ∈ next a

/-- No vertex reaches itself. -/
def Acyclic (r : α → α → Prop) : Prop := ∀ a, ¬ TransGen r a a

/-! ## Lists in which successors stand first -/

/-- Each vertex of the list has all its successors before it. -/
def DependenciesFirst (next : α → List α) (l : List α) : Prop :=
  ∀ before a after, l = before ++ a :: after → ∀ b ∈ next a, b ∈ before

namespace DependenciesFirst

variable {l : List α} {a : α}

theorem nil : DependenciesFirst next [] := by
  intro before a after h
  simp at h

/-- A vertex may be appended once its successors are listed. -/
theorem append_singleton (h : DependenciesFirst next l) (ha : ∀ b ∈ next a, b ∈ l) :
    DependenciesFirst next (l ++ [a]) := by
  intro before c after heq b hb
  rcases List.append_eq_append_iff.mp heq with ⟨tail, hbefore, htail⟩ | ⟨tail, hl, htail⟩
  · -- the vertex is the appended one, or stands after it, which nothing does
    cases tail with
    | nil =>
      obtain ⟨rfl, -⟩ := List.cons.inj htail
      rw [hbefore, List.append_nil]
      exact ha b hb
    | cons d tail => simp at htail
  · cases tail with
    | nil =>
      obtain ⟨rfl, -⟩ := List.cons.inj htail
      rw [List.append_nil] at hl
      exact hl ▸ ha b hb
    | cons d tail =>
      obtain ⟨rfl, -⟩ := List.cons.inj htail
      exact h before c tail hl b hb

/-- The successors of a listed vertex are listed. -/
theorem mem_of_edge (h : DependenciesFirst next l) {b : α} (ha : a ∈ l)
    (hab : Edge next a b) : b ∈ l := by
  obtain ⟨before, after, rfl⟩ := List.append_of_mem ha
  exact List.mem_append_left _ (h before a after rfl b hab)

theorem mem_of_reach (h : DependenciesFirst next l) {b : α} (ha : a ∈ l)
    (hab : ReflTransGen (Edge next) a b) : b ∈ l := by
  induction hab with
  | refl => exact ha
  | tail _ hedge ih => exact h.mem_of_edge ih hedge

section

variable [DecidableEq α]

/-- A successor first occurs before the vertex does. -/
theorem idxOf_lt (h : DependenciesFirst next l) {b : α} (ha : a ∈ l) (hab : Edge next a b) :
    l.idxOf b < l.idxOf a := by
  obtain ⟨before, after, rfl, hnot⟩ := List.eq_append_cons_of_mem ha
  have hb := h before a after rfl b hab
  rw [List.idxOf_append_of_mem hb, List.idxOf_append_of_notMem hnot, List.idxOf_cons_self,
    Nat.add_zero]
  exact List.idxOf_lt_length_of_mem hb

/-- A graph whose vertices are all listed after their successors has no cycle. -/
theorem acyclic (h : DependenciesFirst next l) (hall : ∀ a b, Edge next a b → a ∈ l) :
    Acyclic (Edge next) := by
  have hlt : ∀ a b, TransGen (Edge next) a b → l.idxOf b < l.idxOf a := by
    intro a b hab
    induction hab with
    | single hedge => exact h.idxOf_lt (hall _ _ hedge) hedge
    | tail _ hedge ih => exact (h.idxOf_lt (hall _ _ hedge) hedge).trans ih
  intro a ha
  exact absurd (hlt a a ha) (lt_irrefl _)

end

end DependenciesFirst

/-! ## Walks -/

/-- The vertices entered so far, and those of them already left, in that order. -/
structure Walk (α : Type*) where
  visited : Finset α
  ordered : List α

/-- Nothing entered. -/
def Walk.empty : Walk α := { visited := ∅, ordered := [] }

/-- The vertices on the way to the current one are entered and not yet listed, all others that
were entered are listed once, after their successors. -/
structure Walk.Listed (next : α → List α) (active : Finset α) (w : Walk α) : Prop where
  visited : ∀ a, a ∈ w.visited ↔ a ∈ w.ordered ∨ a ∈ active
  active : ∀ a ∈ active, a ∉ w.ordered
  nodup : w.ordered.Nodup
  first : DependenciesFirst next w.ordered

/-- What a walk from some roots adds to the list. -/
structure Walk.Lists (next : α → List α) (roots : List α) (w w' : Walk α) : Prop where
  grows : w.ordered <+: w'.ordered
  listed : ∀ r ∈ roots, r ∈ w'.ordered
  reached : ∀ a ∈ w'.ordered, a ∈ w.ordered ∨ ∃ r ∈ roots, ReflTransGen (Edge next) r a

theorem Walk.Listed.empty : Walk.Listed next ∅ (Walk.empty : Walk α) where
  visited := by simp [Walk.empty]
  active := by simp
  nodup := List.nodup_nil
  first := .nil

theorem Walk.Listed.visited_subset {active active' : Finset α} {w w' : Walk α}
    (h : w.Listed next active)
    (h' : w'.Listed next active') (hsub : active ⊆ active') (hgrows : w.ordered <+: w'.ordered) :
    w.visited ⊆ w'.visited := by
  intro a ha
  rcases (h.visited a).mp ha with ha | ha
  · exact (h'.visited a).mpr (.inl (hgrows.subset ha))
  · exact (h'.visited a).mpr (.inr (hsub ha))

section Enter

variable [DecidableEq α]

/-- Enter a vertex that was not entered before, walk from its successors, and list it. -/
def enter (next : α → List α) : Nat → Walk α → α → Option (Walk α)
  | 0, _, _ => none
  | fuel + 1, w, a =>
    if a ∈ w.visited then some w
    else do
      let w ← (next a).foldlM (enter next fuel) { w with visited := insert a w.visited }
      return { w with ordered := w.ordered ++ [a] }

variable {active vertices : Finset α} {w w' : Walk α} {fuel : Nat} {a : α}

/-- A vertex that is entered becomes active. -/
theorem Walk.Listed.visit (h : w.Listed next active) (ha : a ∉ w.visited) :
    Walk.Listed next (insert a active) { w with visited := insert a w.visited } where
  visited := by
    intro b
    rw [Finset.mem_insert, Finset.mem_insert, h.visited b]
    tauto
  active := by
    intro b hb
    rcases Finset.mem_insert.mp hb with rfl | hb
    · exact fun hmem => ha ((h.visited b).mpr (.inl hmem))
    · exact h.active b hb
  nodup := h.nodup
  first := h.first

/-- An active vertex whose successors are listed may be left. -/
theorem Walk.Listed.leave (h : w.Listed next (insert a active)) (ha : a ∉ active)
    (hnext : ∀ b ∈ next a, b ∈ w.ordered) :
    Walk.Listed next active { w with ordered := w.ordered ++ [a] } where
  visited := by
    intro b
    rw [h.visited b, Finset.mem_insert, List.mem_append, List.mem_singleton]
    tauto
  active := by
    intro b hb
    rw [List.mem_append, List.mem_singleton, not_or]
    exact ⟨h.active b (Finset.mem_insert_of_mem hb), fun heq => ha (heq ▸ hb)⟩
  nodup := by
    refine List.nodup_append.mpr ⟨h.nodup, List.nodup_singleton a, ?_⟩
    rintro b hb c hc rfl
    rw [List.mem_singleton] at hc
    exact h.active b (hc ▸ Finset.mem_insert_self b active) hb
  first := h.first.append_singleton hnext

/-- What entering one vertex does, entering several in turn does. -/
theorem foldlM_enter_of (henter : ∀ w a, w.Listed next active → a ∈ vertices →
      (∀ s ∈ active, TransGen (Edge next) s a) → (vertices \ w.visited).card < fuel →
      ∃ w', enter next fuel w a = some w' ∧ w'.Listed next active ∧ w.Lists next [a] w')
    (roots : List α) {w : Walk α} (hw : w.Listed next active) (hroots : ∀ r ∈ roots, r ∈ vertices)
    (hactive : ∀ r ∈ roots, ∀ s ∈ active, TransGen (Edge next) s r)
    (hfuel : (vertices \ w.visited).card < fuel) :
    ∃ w', roots.foldlM (enter next fuel) w = some w' ∧ w'.Listed next active ∧
      w.Lists next roots w' := by
  induction roots generalizing w with
  | nil =>
    refine ⟨w, rfl, hw, List.prefix_refl _, ?_, fun a ha => .inl ha⟩
    intro r hr
    cases hr
  | cons r roots ih =>
    obtain ⟨w₁, hrun, hw₁, hlists⟩ := henter w r hw (hroots r (List.mem_cons_self ..))
      (hactive r (List.mem_cons_self ..)) hfuel
    have hvisited := hw.visited_subset hw₁ (Finset.Subset.refl _) hlists.grows
    have hcard : (vertices \ w₁.visited).card ≤ (vertices \ w.visited).card :=
      Finset.card_le_card (Finset.sdiff_subset_sdiff (Finset.Subset.refl _) hvisited)
    obtain ⟨w₂, hrest, hw₂, hlists'⟩ := ih hw₁ (fun s hs => hroots s (List.mem_cons_of_mem _ hs))
      (fun s hs => hactive s (List.mem_cons_of_mem _ hs)) (by omega)
    refine ⟨w₂, ?_, hw₂, hlists.grows.trans hlists'.grows, ?_, ?_⟩
    · rw [List.foldlM_cons, hrun]
      exact hrest
    · intro s hs
      rcases List.mem_cons.mp hs with rfl | hs
      · exact hlists'.grows.subset (hlists.listed s (List.mem_singleton_self s))
      · exact hlists'.listed s hs
    · intro x hx
      rcases hlists'.reached x hx with hx | ⟨s, hs, hreach⟩
      · rcases hlists.reached x hx with hx | ⟨s, hs, hreach⟩
        · exact .inl hx
        · rw [List.mem_singleton] at hs
          exact .inr ⟨r, List.mem_cons_self .., hs ▸ hreach⟩
      · exact .inr ⟨s, List.mem_cons_of_mem _ hs, hreach⟩

/-- In a graph without cycles, entering a vertex lists what it reaches. -/
theorem enter_some (hacyclic : Acyclic (Edge next))
    (hclosed : ∀ a ∈ vertices, ∀ b ∈ next a, b ∈ vertices) :
    ∀ (fuel : Nat) (active : Finset α) (w : Walk α) (a : α), w.Listed next active →
      a ∈ vertices → (∀ s ∈ active, TransGen (Edge next) s a) →
      (vertices \ w.visited).card < fuel →
      ∃ w', enter next fuel w a = some w' ∧ w'.Listed next active ∧ w.Lists next [a] w' := by
  intro fuel
  induction fuel with
  | zero =>
    intro active w a _ _ _ hfuel
    omega
  | succ fuel ih =>
    intro active w a hw ha hactive hfuel
    have hnot : a ∉ active := fun h => hacyclic a (hactive a h)
    unfold enter
    by_cases hvisited : a ∈ w.visited
    · -- what is entered and not active is listed
      have hmem : a ∈ w.ordered := ((hw.visited a).mp hvisited).resolve_right hnot
      rw [if_pos hvisited]
      refine ⟨w, rfl, hw, List.prefix_refl _, ?_, fun b hb => .inl hb⟩
      intro r hr
      rw [List.mem_singleton] at hr
      exact hr ▸ hmem
    · rw [if_neg hvisited]
      have hw₁ := hw.visit hvisited
      have hcard : (vertices \ insert a w.visited).card < fuel := by
        refine lt_of_lt_of_le (Finset.card_lt_card ⟨?_, ?_⟩) (Nat.lt_succ_iff.mp hfuel)
        · exact Finset.sdiff_subset_sdiff (Finset.Subset.refl _) (Finset.subset_insert _ _)
        · intro hsub
          have := hsub (Finset.mem_sdiff.mpr ⟨ha, hvisited⟩)
          simp at this
      have hreach : ∀ r ∈ next a, ∀ s ∈ insert a active, TransGen (Edge next) s r := by
        intro r hr s hs
        rcases Finset.mem_insert.mp hs with rfl | hs
        · exact .single hr
        · exact (hactive s hs).tail hr
      obtain ⟨w₂, hrun, hw₂, hlists⟩ := foldlM_enter_of (ih (insert a active)) (next a) hw₁
        (hclosed a ha) hreach hcard
      have hnext : ∀ b ∈ next a, b ∈ w₂.ordered := hlists.listed
      refine ⟨{ w₂ with ordered := w₂.ordered ++ [a] }, ?_, hw₂.leave hnot hnext,
        hlists.grows.trans (List.prefix_append _ _), ?_, ?_⟩
      · rw [hrun]
        rfl
      · intro r hr
        exact List.mem_append_right _ hr
      · intro b hb
        rcases List.mem_append.mp hb with hb | hb
        · rcases hlists.reached b hb with hb | ⟨r, hr, hreach⟩
          · exact .inl hb
          · exact .inr ⟨a, List.mem_singleton_self a, .head hr hreach⟩
        · rw [List.mem_singleton] at hb
          exact .inr ⟨a, List.mem_singleton_self a, hb ▸ .refl⟩

/-- In a graph without cycles, a walk lists what its roots reach, each vertex once and after
its successors. -/
theorem foldlM_enter (hacyclic : Acyclic (Edge next))
    (hclosed : ∀ a ∈ vertices, ∀ b ∈ next a, b ∈ vertices) {roots : List α}
    (hroots : ∀ r ∈ roots, r ∈ vertices) (hfuel : vertices.card < fuel) :
    ∃ w, roots.foldlM (enter next fuel) Walk.empty = some w ∧ w.ordered.Nodup ∧
      DependenciesFirst next w.ordered ∧
      ∀ a, a ∈ w.ordered ↔ ∃ r ∈ roots, ReflTransGen (Edge next) r a := by
  have hcard : (vertices \ (Walk.empty : Walk α).visited).card < fuel := by
    simpa [Walk.empty] using hfuel
  obtain ⟨w, hrun, hw, hlists⟩ := foldlM_enter_of (enter_some hacyclic hclosed fuel ∅) roots
    .empty hroots (by simp) hcard
  refine ⟨w, hrun, hw.nodup, hw.first, fun a => ⟨fun ha => ?_, ?_⟩⟩
  · rcases hlists.reached a ha with ha | h
    · cases ha
    · exact h
  · rintro ⟨r, hr, hreach⟩
    exact hw.first.mem_of_reach (hlists.listed r hr) hreach

end Enter

/-! ## Searches for cycles -/

/-- The state of each vertex, `0` before it is entered, `1` while it is on the path and `2` when
it is finished; the path; and what was recorded where the path closed. -/
structure Search (α β : Type*) [Ord α] where
  states : ExtTreeMap α Nat
  stack : List α
  cycles : List β

namespace Search

variable [Ord α] [TransOrd α]

/-- The state of a vertex. -/
def state (s : Search α β) (a : α) : Nat := s.states[a]?.getD 0

/-- Put a vertex on the path. -/
def push (s : Search α β) (a : α) : Search α β :=
  { s with states := s.states.insert a 1, stack := s.stack ++ [a] }

/-- Take the last vertex from the path and finish it. -/
def pop (s : Search α β) (a : α) : Search α β :=
  { s with states := s.states.insert a 2, stack := s.stack.dropLast }

/-- Record the part of the path that starts at a vertex. -/
def record [DecidableEq α] (close : List α → β) (s : Search α β) (a : α) : Search α β :=
  match s.stack.idxOf? a with
  | some start => { s with cycles := s.cycles ++ [close (s.stack.drop start)] }
  | none => s

end Search

section Search

variable [Ord α] [TransOrd α] [DecidableEq α]

/-- Search from a vertex that was not entered before. -/
def search (next : α → List α) (close : List α → β) : Nat → Search α β → α → Option (Search α β)
  | 0, _, _ => none
  | fuel + 1, s, a => do
    let s ← (next a).foldlM (fun s b =>
      match s.state b with
      | 0 => search next close fuel s b
      | 1 => some (s.record close b)
      | _ => some s) (s.push a)
    return s.pop a

/-- Search from a vertex if it was not entered before. -/
def searchNew (next : α → List α) (close : List α → β) (fuel : Nat) (s : Search α β) (a : α) :
    Option (Search α β) :=
  if s.state a = 0 then search next close fuel s a else some s

/-- What is done with a successor of the last vertex of the path. -/
def searchEdge (next : α → List α) (close : List α → β) (fuel : Nat) (s : Search α β) (a : α) :
    Option (Search α β) :=
  match s.state a with
  | 0 => search next close fuel s a
  | 1 => some (s.record close a)
  | _ => some s

theorem search_succ (next : α → List α) (close : List α → β) (fuel : Nat) (s : Search α β)
    (a : α) : search next close (fuel + 1) s a =
      ((next a).foldlM (searchEdge next close fuel) (s.push a)).map fun s => s.pop a := by
  rw [search, Option.map_eq_bind]
  rfl

variable [LawfulEqOrd α] {close : List α → β} {vertices : Finset α} {fuel : Nat}
  {s s' : Search α β} {a b : α} {finished : List α}

namespace Search

theorem state_push (s : Search α β) (a b : α) :
    (s.push a).state b = if a = b then 1 else s.state b := by
  rw [state, push, ExtTreeMap.getElem?_insert]
  by_cases h : a = b
  · simp [h]
  · simp [h, state]

theorem state_pop (s : Search α β) (a b : α) :
    (s.pop a).state b = if a = b then 2 else s.state b := by
  rw [state, pop, ExtTreeMap.getElem?_insert]
  by_cases h : a = b
  · simp [h]
  · simp [h, state]

omit [LawfulEqOrd α] [TransOrd α] in
theorem record_states (s : Search α β) : (s.record close a).states = s.states := by
  unfold record
  split <;> rfl

omit [LawfulEqOrd α] in
@[simp] theorem state_record (s : Search α β) : (s.record close a).state b = s.state b := by
  rw [state, record_states, state]

/-- A search goes on from another: nothing entered is forgotten and nothing recorded is lost. -/
structure Continues (s s' : Search α β) : Prop where
  entered : ∀ a, s.state a ≠ 0 → s'.state a ≠ 0
  recorded : s.cycles <+: s'.cycles

omit [DecidableEq α] [LawfulEqOrd α] in
theorem Continues.refl (s : Search α β) : s.Continues s :=
  ⟨fun _ h => h, List.prefix_refl _⟩

omit [DecidableEq α] [LawfulEqOrd α] in
theorem Continues.trans {s₁ s₂ s₃ : Search α β} (h : s₁.Continues s₂) (h' : s₂.Continues s₃) :
    s₁.Continues s₃ :=
  ⟨fun a ha => h'.entered a (h.entered a ha), h.recorded.trans h'.recorded⟩

theorem continues_push (s : Search α β) (a : α) : s.Continues (s.push a) := by
  refine ⟨fun b hb => ?_, List.prefix_refl _⟩
  rw [state_push]
  split
  · decide
  · exact hb

theorem continues_pop (s : Search α β) (a : α) : s.Continues (s.pop a) := by
  refine ⟨fun b hb => ?_, List.prefix_refl _⟩
  rw [state_pop]
  split
  · decide
  · exact hb

omit [LawfulEqOrd α] in
theorem continues_record (s : Search α β) (a : α) : s.Continues (s.record close a) := by
  refine ⟨fun b hb => by rwa [state_record], ?_⟩
  unfold record
  split
  · exact List.prefix_append _ _
  · exact List.prefix_refl _

end Search

/-- Steps that continue a search do so one after the other. -/
theorem continues_foldlM {step : Search α β → α → Option (Search α β)}
    (hstep : ∀ s a s', step s a = some s' → s.Continues s') (l : List α)
    (h : l.foldlM step s = some s') : s.Continues s' := by
  induction l generalizing s with
  | nil =>
    obtain rfl := Option.some.inj h
    exact .refl s
  | cons a l ih =>
    rw [List.foldlM_cons] at h
    obtain ⟨s₁, hs₁, hrest⟩ := Option.bind_eq_some_iff.mp h
    exact (hstep s a s₁ hs₁).trans (ih hrest)

theorem continues_search : ∀ (fuel : Nat) (s : Search α β) (a : α) (s' : Search α β),
    search next close fuel s a = some s' → s.Continues s' := by
  intro fuel
  induction fuel with
  | zero =>
    intro s a s' h
    cases h
  | succ fuel ih =>
    intro s a s' h
    rw [search_succ] at h
    obtain ⟨s₁, hs₁, rfl⟩ := Option.map_eq_some_iff.mp h
    have hedges := continues_foldlM (fun s b s' hs' => ?_) _ hs₁
    · exact (s.continues_push a).trans (hedges.trans (s₁.continues_pop a))
    · unfold searchEdge at hs'
      split at hs'
      · exact ih s b s' hs'
      · obtain rfl := Option.some.inj hs'
        exact s.continues_record b
      · obtain rfl := Option.some.inj hs'
        exact .refl s

theorem continues_searchEdge (h : searchEdge next close fuel s a = some s') : s.Continues s' := by
  unfold searchEdge at h
  split at h
  · exact continues_search fuel s a s' h
  · obtain rfl := Option.some.inj h
    exact s.continues_record a
  · obtain rfl := Option.some.inj h
    exact .refl s

theorem continues_searchNew (h : searchNew next close fuel s a = some s') : s.Continues s' := by
  unfold searchNew at h
  split_ifs at h
  · exact continues_search fuel s a s' h
  · obtain rfl := Option.some.inj h
    exact .refl s

/-! ### Fuel -/

/-- The vertices not entered before. -/
def unentered (vertices : Finset α) (s : Search α β) : Finset α :=
  vertices.filter fun a => s.state a = 0

omit [LawfulEqOrd α] [DecidableEq α] in
theorem card_unentered_le (h : s.Continues s') :
    (unentered vertices s').card ≤ (unentered vertices s).card := by
  refine Finset.card_le_card fun a ha => ?_
  rw [unentered, Finset.mem_filter] at ha ⊢
  refine ⟨ha.1, ?_⟩
  by_contra hne
  exact h.entered a hne ha.2

theorem card_unentered_push (ha : a ∈ vertices) (hstate : s.state a = 0) :
    (unentered vertices (s.push a)).card < (unentered vertices s).card := by
  refine Finset.card_lt_card (Finset.ssubset_iff_of_subset ?_ |>.mpr ⟨a, ?_, ?_⟩)
  · intro b hb
    rw [unentered, Finset.mem_filter, Search.state_push] at hb
    rw [unentered, Finset.mem_filter]
    refine ⟨hb.1, ?_⟩
    by_cases hab : a = b
    · rw [if_pos hab] at hb
      exact absurd hb.2 one_ne_zero
    · rw [if_neg hab] at hb
      exact hb.2
  · exact Finset.mem_filter.mpr ⟨ha, hstate⟩
  · intro hmem
    have hzero := (Finset.mem_filter.mp hmem).2
    rw [Search.state_push, if_pos rfl] at hzero
    cases hzero

/-- Steps that finish with the fuel left, one after the other. -/
theorem foldlM_some {step : Search α β → α → Option (Search α β)}
    (hsome : ∀ s a, a ∈ vertices → (unentered vertices s).card ≤ fuel → ∃ s', step s a = some s')
    (hcontinues : ∀ s a s', step s a = some s' → s.Continues s') (l : List α)
    (hl : ∀ a ∈ l, a ∈ vertices) (hfuel : (unentered vertices s).card ≤ fuel) :
    ∃ s', l.foldlM step s = some s' := by
  induction l generalizing s with
  | nil => exact ⟨s, rfl⟩
  | cons a l ih =>
    obtain ⟨s₁, hs₁⟩ := hsome s a (hl a (List.mem_cons_self ..)) hfuel
    have hle : (unentered vertices s₁).card ≤ (unentered vertices s).card :=
      card_unentered_le (hcontinues s a s₁ hs₁)
    obtain ⟨s₂, hs₂⟩ := @ih s₁ (fun b hb => hl b (List.mem_cons_of_mem _ hb)) (by omega)
    exact ⟨s₂, by rw [List.foldlM_cons, hs₁]; exact hs₂⟩

/-- Fuel for the vertices not yet entered lets a search finish. -/
theorem search_some (hclosed : ∀ a ∈ vertices, ∀ b ∈ next a, b ∈ vertices) :
    ∀ (fuel : Nat) (s : Search α β) (a : α), a ∈ vertices → s.state a = 0 →
      (unentered vertices s).card ≤ fuel → ∃ s', search next close fuel s a = some s' := by
  intro fuel
  induction fuel with
  | zero =>
    intro s a ha hstate hfuel
    have hpush := card_unentered_push ha hstate
    omega
  | succ fuel ih =>
    intro s a ha hstate hfuel
    have hpush := card_unentered_push ha hstate
    rw [search_succ]
    have hedge : ∀ s b, b ∈ vertices → (unentered vertices s).card ≤ fuel →
        ∃ s', searchEdge next close fuel s b = some s' := by
      intro s b hb hle
      unfold searchEdge
      split
      · next hzero => exact ih s b hb hzero hle
      · exact ⟨_, rfl⟩
      · exact ⟨_, rfl⟩
    obtain ⟨s', hs'⟩ := foldlM_some hedge (fun _ _ _ => continues_searchEdge) (next a)
      (hclosed a ha) (s := s.push a) (by omega)
    exact ⟨s'.pop a, by rw [hs']; rfl⟩

theorem foldlM_searchNew_some (hclosed : ∀ a ∈ vertices, ∀ b ∈ next a, b ∈ vertices)
    {l : List α} (hl : ∀ a ∈ l, a ∈ vertices) (hfuel : vertices.card ≤ fuel)
    (s : Search α β) : ∃ s', l.foldlM (searchNew next close fuel) s = some s' := by
  have hnew : ∀ s a, a ∈ vertices → (unentered vertices s).card ≤ fuel →
      ∃ s', searchNew next close fuel s a = some s' := by
    intro s a ha hle
    unfold searchNew
    split_ifs with hstate
    · exact search_some hclosed fuel s a ha hstate hle
    · exact ⟨s, rfl⟩
  exact foldlM_some hnew (fun _ _ _ => continues_searchNew) l hl
    ((Finset.card_filter_le _ _).trans hfuel)

/-! ### What a search without a recorded cycle has found -/

/-- The finished vertices are listed after their successors, the path holds those that are
entered and not finished. -/
structure Search.Explored (next : α → List α) (finished : List α) (s : Search α β) : Prop where
  left : ∀ a, s.state a = 2 ↔ a ∈ finished
  active : ∀ a, s.state a = 1 ↔ a ∈ s.stack
  small : ∀ a, s.state a ≤ 2
  first : DependenciesFirst next finished

theorem Search.Explored.push (h : s.Explored next finished) (ha : s.state a = 0) :
    (s.push a).Explored next finished where
  left := by
    intro b
    rw [Search.state_push, ← h.left b]
    by_cases hab : a = b
    · subst hab
      simp [ha]
    · rw [if_neg hab]
  active := by
    intro b
    show (s.push a).state b = 1 ↔ b ∈ s.stack ++ [a]
    rw [Search.state_push, List.mem_append, List.mem_singleton, ← h.active b]
    by_cases hab : a = b
    · simp [hab]
    · rw [if_neg hab]
      exact ⟨.inl, fun hb => hb.resolve_right fun heq => hab heq.symm⟩
  small := by
    intro b
    rw [Search.state_push]
    split
    · decide
    · exact h.small b
  first := h.first

/-- A vertex whose successors are finished may be finished. -/
theorem Search.Explored.pop {stack : List α} (h : s.Explored next finished)
    (hstack : s.stack = stack ++ [a]) (hnot : a ∉ stack) (hnext : ∀ b ∈ next a, b ∈ finished) :
    (s.pop a).Explored next (finished ++ [a]) where
  left := by
    intro b
    rw [Search.state_pop, List.mem_append, List.mem_singleton, ← h.left b]
    by_cases hab : a = b
    · simp [hab]
    · rw [if_neg hab]
      exact ⟨.inl, fun hb => hb.resolve_right fun heq => hab heq.symm⟩
  active := by
    intro b
    show (s.pop a).state b = 1 ↔ b ∈ s.stack.dropLast
    rw [Search.state_pop, hstack, List.dropLast_concat]
    by_cases hab : a = b
    · subst hab
      simp [hnot]
    · rw [if_neg hab, h.active b, hstack, List.mem_append, List.mem_singleton]
      exact ⟨fun hb => hb.resolve_right fun heq => hab heq.symm, .inl⟩
  small := by
    intro b
    rw [Search.state_pop]
    split
    · exact le_rfl
    · exact h.small b
  first := h.first.append_singleton hnext

/-- A step that records nothing leaves the path as it was and finishes its vertex. -/
def Finishes (next : α → List α) (step : Search α β → α → Option (Search α β)) : Prop :=
  ∀ (s : Search α β) (a : α) (s' : Search α β), step s a = some s' → s'.cycles = [] →
    ∀ finished : List α, s.Explored next finished → ∃ finished', s'.Explored next finished' ∧
      s'.stack = s.stack ∧ finished ⊆ finished' ∧ a ∈ finished'

theorem Finishes.foldlM {step : Search α β → α → Option (Search α β)}
    (hstep : Finishes next step)
    (hcontinues : ∀ s a s', step s a = some s' → s.Continues s') (l : List α)
    (h : l.foldlM step s = some s') (hnone : s'.cycles = []) (hs : s.Explored next finished) :
    ∃ finished', s'.Explored next finished' ∧ s'.stack = s.stack ∧ finished ⊆ finished' ∧
      ∀ a ∈ l, a ∈ finished' := by
  induction l generalizing s finished with
  | nil =>
    obtain rfl := Option.some.inj h
    exact ⟨finished, hs, rfl, fun _ ha => ha, by simp⟩
  | cons a l ih =>
    rw [List.foldlM_cons] at h
    obtain ⟨s₁, hs₁, hrest⟩ := Option.bind_eq_some_iff.mp h
    -- what the first step recorded would still be there at the end
    have hnone₁ : s₁.cycles = [] :=
      List.prefix_nil.mp (hnone ▸ (continues_foldlM hcontinues l hrest).recorded)
    obtain ⟨finished₁, hexplored₁, hstack₁, hsub₁, ha⟩ := hstep s a s₁ hs₁ hnone₁ finished hs
    obtain ⟨finished₂, hexplored₂, hstack₂, hsub₂, hl⟩ := ih hrest hexplored₁
    refine ⟨finished₂, hexplored₂, hstack₂.trans hstack₁, List.Subset.trans hsub₁ hsub₂, ?_⟩
    intro b hb
    rcases List.mem_cons.mp hb with rfl | hb
    · exact hsub₂ ha
    · exact hl b hb

omit [TransOrd α] [LawfulEqOrd α] in
/-- Where a successor lies on the path, its cycle is recorded. -/
theorem record_cycles_ne_nil (h : a ∈ s.stack) : (s.record close a).cycles ≠ [] := by
  unfold Search.record
  cases hidx : s.stack.idxOf? a with
  | some start => simp
  | none => exact absurd h (List.idxOf?_eq_none_iff.mp hidx)

theorem finishes_search : ∀ (fuel : Nat) (s : Search α β) (a : α) (s' : Search α β),
    search next close fuel s a = some s' → s.state a = 0 → s'.cycles = [] →
    ∀ finished : List α, s.Explored next finished → ∃ finished', s'.Explored next finished' ∧
      s'.stack = s.stack ∧ finished ⊆ finished' ∧ a ∈ finished' := by
  intro fuel
  induction fuel with
  | zero =>
    intro s a s' h
    cases h
  | succ fuel ih =>
    intro s a s' h hstate hnone finished hs
    rw [search_succ] at h
    obtain ⟨s₁, hs₁, rfl⟩ := Option.map_eq_some_iff.mp h
    have hedge : Finishes next (searchEdge next close fuel) := by
      intro s b s' hs' hnone finished hs
      unfold searchEdge at hs'
      split at hs'
      · next hzero => exact ih s b s' hs' hzero hnone finished hs
      · next hone =>
        obtain rfl := Option.some.inj hs'
        exact absurd hnone (record_cycles_ne_nil ((hs.active b).mp hone))
      · next hzero hone =>
        obtain rfl := Option.some.inj hs'
        have hsmall := hs.small b
        have htwo : s.state b = 2 := by
          have hzero' : s.state b ≠ 0 := hzero
          have hone' : s.state b ≠ 1 := hone
          omega
        exact ⟨finished, hs, rfl, fun _ ha => ha, (hs.left b).mp htwo⟩
    obtain ⟨finished₁, hexplored, hstack, hsub, hnext⟩ := hedge.foldlM
      (fun _ _ _ => continues_searchEdge) _ hs₁ hnone (hs.push hstate)
    have hnot : a ∉ s.stack := by
      rw [← hs.active a, hstate]
      decide
    refine ⟨finished₁ ++ [a], hexplored.pop hstack hnot hnext, ?_, ?_, ?_⟩
    · show s₁.stack.dropLast = s.stack
      rw [hstack]
      exact List.dropLast_concat
    · exact List.Subset.trans hsub (List.subset_append_left _ _)
    · exact List.mem_append_right _ (List.mem_singleton_self a)

/-- A graph in which a search from every vertex records no cycle has none. -/
theorem foldlM_searchNew_acyclic {l : List α} (hall : ∀ a b, Edge next a b → a ∈ l)
    (hstates : ∀ a, s.state a = 0) (hstack : s.stack = [])
    (h : l.foldlM (searchNew next close fuel) s = some s') (hnone : s'.cycles = []) :
    Acyclic (Edge next) := by
  have hs : s.Explored next [] := by
    refine ⟨fun a => ?_, fun a => ?_, fun a => ?_, .nil⟩
    · simp [hstates a]
    · simp [hstates a, hstack]
    · simp [hstates a]
  -- between the searches the path is empty, so that a vertex entered before is finished
  have hnew : ∀ (l : List α) (s : Search α β) (finished : List α), s.stack = [] →
      s.Explored next finished → l.foldlM (searchNew next close fuel) s = some s' →
      ∃ finished', s'.Explored next finished' ∧ finished ⊆ finished' ∧ ∀ a ∈ l, a ∈ finished' := by
    intro l
    induction l with
    | nil =>
      intro s finished _ hs h
      obtain rfl := Option.some.inj h
      exact ⟨finished, hs, fun _ ha => ha, by simp⟩
    | cons a l ih =>
      intro s finished hempty hs h
      rw [List.foldlM_cons] at h
      obtain ⟨s₁, hs₁, hrest⟩ := Option.bind_eq_some_iff.mp h
      have hnone₁ : s₁.cycles = [] := List.prefix_nil.mp
        (hnone ▸ (continues_foldlM (fun _ _ _ => continues_searchNew) l hrest).recorded)
      have hfirst : ∃ finished₁, s₁.Explored next finished₁ ∧ s₁.stack = s.stack ∧
          finished ⊆ finished₁ ∧ a ∈ finished₁ := by
        unfold searchNew at hs₁
        split_ifs at hs₁ with hstate
        · exact finishes_search fuel s a s₁ hs₁ hstate hnone₁ finished hs
        · obtain rfl := Option.some.inj hs₁
          have hone : s.state a ≠ 1 := by
            rw [Ne, hs.active a, hempty]
            exact List.not_mem_nil
          have hsmall := hs.small a
          have htwo : s.state a = 2 := by omega
          exact ⟨finished, hs, rfl, fun _ ha => ha, (hs.left a).mp htwo⟩
      obtain ⟨finished₁, hexplored, hstack₁, hsub, ha⟩ := hfirst
      obtain ⟨finished₂, hexplored₂, hsub₂, hl⟩ := ih s₁ finished₁ (hstack₁.trans hempty)
        hexplored hrest
      refine ⟨finished₂, hexplored₂, List.Subset.trans hsub hsub₂, ?_⟩
      intro b hb
      rcases List.mem_cons.mp hb with rfl | hb
      · exact hsub₂ ha
      · exact hl b hb
  obtain ⟨finished, hexplored, -, hl⟩ := hnew l s [] hstack hs h
  exact hexplored.first.acyclic fun a b hab => hl a (hall a b hab)

end Search

end DepthFirst
