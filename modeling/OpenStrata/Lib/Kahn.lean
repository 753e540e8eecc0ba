import Mathlib.Data.Finset.Card
import Mathlib.Data.List.Perm.Subperm
import Mathlib.Data.List.Sort
import Mathlib.Logic.Function.Basic
import Mathlib.Logic.Relation

/-!
# Topological order

Kahn's algorithm over a linearly ordered set of nodes: among the nodes whose predecessors are
all emitted, the least is emitted next. Edges from a node to itself are ignored.

## Main definitions

* `Kahn.step`, `Kahn.run`: the loop
* `Kahn.order`: the order, when there is one
* `Kahn.Acyclic`: the graphs that admit a rank function
* `Kahn.IsTopological`: the lists that list every node once, after its predecessors

## Main results

* `Kahn.order_perm`: an order lists every node once
* `Kahn.order_sound`: every node comes after its predecessors
* `Kahn.order_isSome_iff`: there is an order exactly when the graph is acyclic
* `Kahn.acyclic_iff`: a graph is acyclic exactly when no node reaches itself
* `Kahn.order_least`: over ascending nodes, the order is the least of the topological ones
-/

namespace Kahn

variable {α : Type*} [LinearOrder α]

/-- The loop: remaining predecessors, nodes that may be emitted in ascending order, and the
nodes emitted so far. -/
structure State (α : Type*) where
  indegree : α → Nat
  ready : List α
  order : List α

/-- Insert into an ascending list, unless present. -/
def insertReady (v : α) (ready : List α) : List α :=
  if v ∈ ready then ready else ready.orderedInsert (· ≤ ·) v

/-- One predecessor of `v` has been emitted. -/
def release (s : State α) (v : α) : State α :=
  let degree := s.indegree v - 1
  { s with
    indegree := Function.update s.indegree v degree
    ready := if degree = 0 then insertReady v s.ready else s.ready }

/-- Emit the least ready node. -/
def step (targets : α → List α) (s : State α) : State α :=
  match s.ready with
  | [] => s
  | v :: rest => (targets v).foldl release { s with ready := rest, order := s.order ++ [v] }

def run (targets : α → List α) : Nat → State α → State α
  | 0, s => s
  | fuel + 1, s => run targets fuel (step targets s)

/-- The edges that count: those between distinct nodes. -/
def proper (edges : List (α × α)) : List (α × α) := edges.filter fun e => e.1 ≠ e.2

/-- The targets of a node, ascending. -/
def targets (edges : List (α × α)) (v : α) : List α :=
  (((proper edges).filter fun e => e.1 = v).map (·.2)).insertionSort (· ≤ ·)

/-- The number of predecessors of a node that are not in `emitted`. -/
def degree (edges : List (α × α)) (emitted : List α) (v : α) : Nat :=
  (proper edges).countP fun e => e.2 = v ∧ e.1 ∉ emitted

def init (nodes : List α) (edges : List (α × α)) : State α where
  indegree := degree edges []
  ready := nodes.filter fun v => degree edges [] v = 0
  order := []

/-- The order of the nodes, unless some remain unemitted. -/
def order (nodes : List α) (edges : List (α × α)) : Option (List α) :=
  let s := run (targets edges) nodes.length (init nodes edges)
  if s.order.length = nodes.length then some s.order else none

/-- A graph with a rank that grows along every edge between distinct nodes. -/
def Acyclic (edges : List (α × α)) : Prop :=
  ∃ rank : α → Nat, ∀ e ∈ proper edges, rank e.1 < rank e.2

/-! ## One step -/

@[simp] theorem mem_insertReady {v w : α} {ready : List α} :
    w ∈ insertReady v ready ↔ w = v ∨ w ∈ ready := by
  unfold insertReady
  split_ifs with h
  · constructor
    · exact Or.inr
    · rintro (rfl | hw)
      · exact h
      · exact hw
  · rw [List.mem_orderedInsert]

theorem nodup_insertReady {v : α} {ready : List α} (h : ready.Nodup) :
    (insertReady v ready).Nodup := by
  unfold insertReady
  split_ifs with hv
  · exact h
  · exact (List.perm_orderedInsert (· ≤ ·) v ready).nodup_iff.mpr (List.nodup_cons.mpr ⟨hv, h⟩)

/-- What releasing distinct targets does. -/
theorem foldl_release {ts : List α} (hts : ts.Nodup) (s : State α) :
    (∀ w, (ts.foldl release s).indegree w =
        if w ∈ ts then s.indegree w - 1 else s.indegree w) ∧
      (ts.foldl release s).order = s.order ∧
      (∀ w, w ∈ (ts.foldl release s).ready ↔
        w ∈ s.ready ∨ w ∈ ts ∧ s.indegree w - 1 = 0) ∧
      (s.ready.Nodup → (ts.foldl release s).ready.Nodup) := by
  induction ts generalizing s with
  | nil => simp
  | cons t ts ih =>
    obtain ⟨ht, hts⟩ := List.nodup_cons.mp hts
    obtain ⟨hdeg, hord, hready, hnodup⟩ := ih hts (release s t)
    rw [List.foldl_cons]
    refine ⟨fun w => ?_, hord, fun w => ?_, fun h => hnodup ?_⟩
    · rw [hdeg w]
      by_cases hw : w = t
      · subst hw
        simp [ht, release]
      · simp [hw, release]
    · rw [hready w]
      by_cases hw : w = t
      · subst hw
        simp only [ht, false_and, or_false, release, List.mem_cons, true_and]
        split_ifs with h0
        · simp [h0]
        · simp [h0]
      · simp only [release, Function.update_of_ne hw, List.mem_cons, hw, false_or]
        split_ifs <;> simp [hw]
    · simp only [release]
      split_ifs
      · exact nodup_insertReady h
      · exact h

section Run

variable {nodes : List α} {edges : List (α × α)}

theorem mem_proper {e : α × α} : e ∈ proper edges ↔ e ∈ edges ∧ e.1 ≠ e.2 := by
  simp [proper]

@[simp] theorem mem_targets {v w : α} : w ∈ targets edges v ↔ (v, w) ∈ proper edges := by
  simp [targets]

theorem nodup_targets (hedges : edges.Nodup) (v : α) : (targets edges v).Nodup := by
  unfold targets
  rw [(List.perm_insertionSort _ _).nodup_iff]
  refine List.Nodup.map_on ?_ ((hedges.filter _).filter _)
  rintro ⟨a, b⟩ ha ⟨c, d⟩ hc hbd
  simp only [List.mem_filter, decide_eq_true_eq] at ha hc
  obtain ⟨-, rfl⟩ := ha
  obtain ⟨-, rfl⟩ := hc
  exact Prod.ext rfl hbd

theorem degree_eq_zero {emitted : List α} {v : α} :
    degree edges emitted v = 0 ↔ ∀ u, (u, v) ∈ proper edges → u ∈ emitted := by
  simp only [degree, List.countP_eq_zero]
  constructor
  · intro h u hu
    simpa using h _ hu
  · rintro h ⟨u, w⟩ hu
    simp only [decide_eq_true_eq, not_and, not_not]
    rintro rfl
    exact h u hu

/-- Emitting a node lowers the degree of its targets by one, and of no other node. -/
theorem degree_append (hedges : edges.Nodup) {emitted : List α} {u : α} (hu : u ∉ emitted)
    (v : α) :
    degree edges (emitted ++ [u]) v =
      if v ∈ targets edges u then degree edges emitted v - 1 else degree edges emitted v := by
  have hproper : (proper edges).Nodup := hedges.filter _
  have hsplit : degree edges emitted v =
      degree edges (emitted ++ [u]) v + (proper edges).countP fun e => e = (u, v) := by
    simp only [degree]
    rw [List.countP_eq_length_filter, List.countP_eq_length_filter,
      List.countP_eq_length_filter, ← List.length_append]
    refine List.Perm.length_eq ?_
    rw [List.perm_ext_iff_of_nodup (hproper.filter _) ?_]
    · rintro ⟨a, b⟩
      simp only [List.mem_filter, List.mem_append, List.mem_singleton, decide_eq_true_eq,
        Prod.mk.injEq]
      by_cases ha : a = u
      · subst ha
        constructor
        · rintro ⟨h, rfl, -⟩
          exact Or.inr ⟨h, rfl, rfl⟩
        · rintro (⟨-, -, h⟩ | ⟨h, -, rfl⟩)
          · exact absurd (Or.inr rfl) h
          · exact ⟨h, rfl, hu⟩
      · simp [ha]
    · refine List.Nodup.append (hproper.filter _) (hproper.filter _) ?_
      rintro ⟨a, b⟩ h₁ h₂
      simp only [List.mem_filter, List.mem_append, List.mem_singleton, decide_eq_true_eq,
        Prod.mk.injEq] at h₁ h₂
      exact h₁.2.2 (Or.inr h₂.2.1)
  have hcount : ((proper edges).countP fun e => e = (u, v)) =
      if v ∈ targets edges u then 1 else 0 := by
    have hcongr : ((proper edges).countP fun e => e = (u, v)) = (proper edges).count (u, v) :=
      List.countP_congr fun e _ => by simp
    rw [hcongr, hproper.count]
    simp
  rw [hcount] at hsplit
  split_ifs at hsplit ⊢ <;> omega

/-- What the loop maintains. -/
structure Inv (nodes : List α) (edges : List (α × α)) (s : State α) : Prop where
  nodup_order : s.order.Nodup
  nodup_ready : s.ready.Nodup
  subset : ∀ v, v ∈ s.ready ∨ v ∈ s.order → v ∈ nodes
  disjoint : ∀ v ∈ s.ready, v ∉ s.order
  indegree_eq : ∀ v, s.indegree v = degree edges s.order v
  ready_of_degree : ∀ v ∈ nodes, degree edges s.order v = 0 → v ∈ s.ready ∨ v ∈ s.order
  degree_of_ready : ∀ v ∈ s.ready, degree edges s.order v = 0
  after : ∀ pre v post, s.order = pre ++ v :: post → ∀ u, (u, v) ∈ proper edges → u ∈ pre

theorem Inv.init (hnodes : nodes.Nodup) (edges : List (α × α)) :
    Inv nodes edges (init nodes edges) where
  nodup_order := List.nodup_nil
  nodup_ready := hnodes.filter _
  subset v := by
    rintro (h | h)
    · exact (List.mem_filter.mp h).1
    · cases h
  disjoint _ _ := List.not_mem_nil
  indegree_eq _ := rfl
  ready_of_degree _ hv h := Or.inl (List.mem_filter.mpr ⟨hv, decide_eq_true h⟩)
  degree_of_ready _ hv := of_decide_eq_true (List.mem_filter.mp hv).2
  after pre v post h := by simp [Kahn.init] at h

theorem Inv.step (hedges : edges.Nodup) (hclosed : ∀ e ∈ edges, e.1 ∈ nodes ∧ e.2 ∈ nodes)
    {s : State α} (h : Inv nodes edges s) : Inv nodes edges (step (targets edges) s) := by
  unfold Kahn.step
  split
  · exact h
  · next v rest hready =>
    have hv : v ∈ s.ready := hready ▸ List.mem_cons_self
    have hvo : v ∉ s.order := h.disjoint v hv
    have hnodup := h.nodup_ready
    rw [hready, List.nodup_cons] at hnodup
    obtain ⟨hdeg, hord, hmem, hnd⟩ := foldl_release (nodup_targets hedges v)
      { s with ready := rest, order := s.order ++ [v] }
    have hdegree := degree_append hedges hvo
    -- a target of `v` was neither ready nor emitted: `v` itself was still to come
    have hfresh : ∀ w ∈ targets edges v, degree edges s.order w ≠ 0 := fun w hw h0 =>
      hvo (degree_eq_zero.mp h0 v (mem_targets.mp hw))
    have hready' : ∀ w, w ∈ s.ready ↔ w = v ∨ w ∈ rest := fun w => by
      rw [hready, List.mem_cons]
    have hindeg : ∀ w, w ∈ targets edges v ∧ s.indegree w - 1 = 0 ↔
        w ∈ targets edges v ∧ degree edges (s.order ++ [v]) w = 0 := by
      intro w
      rw [hdegree w, h.indegree_eq w]
      constructor <;> rintro ⟨hw, h0⟩ <;> exact ⟨hw, by simpa [hw] using h0⟩
    refine ⟨?_, hnd hnodup.2, ?_, ?_, ?_, ?_, ?_, ?_⟩
    · rw [hord]
      exact List.Nodup.append h.nodup_order (List.nodup_singleton v) (by simpa using hvo)
    · rintro w (hw | hw)
      · rcases (hmem w).mp hw with hw | ⟨hw, -⟩
        · exact h.subset w (Or.inl ((hready' w).mpr (Or.inr hw)))
        · exact (hclosed _ (mem_proper.mp (mem_targets.mp hw)).1).2
      · rw [hord] at hw
        rcases List.mem_append.mp hw with hw | hw
        · exact h.subset w (Or.inr hw)
        · obtain rfl := List.mem_singleton.mp hw
          exact h.subset w (Or.inl hv)
    · intro w hw
      rw [hord]
      show w ∉ s.order ++ [v]
      rw [List.mem_append, List.mem_singleton, not_or]
      rcases (hmem w).mp hw with hw | ⟨hw, -⟩
      · exact ⟨h.disjoint w ((hready' w).mpr (Or.inr hw)), fun heq => hnodup.1 (heq ▸ hw)⟩
      · refine ⟨fun ho => ?_, fun heq => (mem_proper.mp (mem_targets.mp hw)).2 heq.symm⟩
        obtain ⟨pre, post, hsplit⟩ := List.append_of_mem ho
        have hpre := h.after pre w post hsplit v (mem_targets.mp hw)
        exact hvo (hsplit ▸ List.mem_append_left _ hpre)
    · intro w
      rw [hdeg w, hord, hdegree w, h.indegree_eq w]
    · intro w hw h0
      rw [hord] at h0 ⊢
      by_cases ht : w ∈ targets edges v
      · exact Or.inl ((hmem w).mpr (Or.inr ((hindeg w).mpr ⟨ht, h0⟩)))
      · rw [hdegree w, if_neg ht] at h0
        rcases h.ready_of_degree w hw h0 with hr | ho
        · rcases (hready' w).mp hr with rfl | hr
          · exact Or.inr (by simp)
          · exact Or.inl ((hmem w).mpr (Or.inl hr))
        · exact Or.inr (List.mem_append_left _ ho)
    · intro w hw
      rw [hord]
      rcases (hmem w).mp hw with hw | hw
      · have h0 := h.degree_of_ready w ((hready' w).mpr (Or.inr hw))
        rw [hdegree w]
        split_ifs
        · rw [h0]
        · exact h0
      · exact ((hindeg w).mp hw).2
    · intro pre w post hsplit u hu
      rw [hord] at hsplit
      rcases List.eq_nil_or_concat post with rfl | ⟨post', x, rfl⟩
      · obtain ⟨rfl, hw⟩ := List.append_inj' hsplit rfl
        obtain rfl : v = w := by simpa using hw
        exact degree_eq_zero.mp (h.degree_of_ready v hv) u hu
      · have : s.order ++ [v] = (pre ++ w :: post') ++ [x] := by simpa using hsplit
        exact h.after pre w post' (List.append_inj' this rfl).1 u hu

theorem Inv.run (hedges : edges.Nodup) (hclosed : ∀ e ∈ edges, e.1 ∈ nodes ∧ e.2 ∈ nodes)
    {s : State α} (h : Inv nodes edges s) (fuel : Nat) :
    Inv nodes edges (run (targets edges) fuel s) := by
  induction fuel generalizing s with
  | zero => exact h
  | succ fuel ih => exact ih (h.step hedges hclosed)

theorem length_order_step {s : State α} (hedges : edges.Nodup) :
    (step (targets edges) s).ready = [] ∧ (step (targets edges) s).order = s.order ∨
      (step (targets edges) s).order.length = s.order.length + 1 := by
  unfold step
  split
  · next h => exact Or.inl ⟨h, rfl⟩
  · next v rest h =>
    rw [(foldl_release (nodup_targets hedges v) _).2.1]
    exact Or.inr (by simp)

theorem run_of_ready_nil {s : State α} (h : s.ready = []) (fuel : Nat) :
    Kahn.run (targets edges) fuel s = s := by
  induction fuel with
  | zero => rfl
  | succ fuel ih => rw [Kahn.run, Kahn.step, h]; exact ih

theorem Inv.length_le (hs : Inv nodes edges s) : s.order.length ≤ nodes.length :=
  (hs.nodup_order.subperm fun v hv => hs.subset v (Or.inr hv)).length_le

/-- When every node is emitted none is ready. -/
theorem Inv.ready_nil (hs : Inv nodes edges s) (hlen : s.order.length = nodes.length) :
    s.ready = [] := by
  have hperm := (hs.nodup_order.subperm fun v hv =>
    hs.subset v (Or.inr hv)).perm_of_length_le hlen.ge
  refine List.eq_nil_iff_forall_not_mem.mpr fun v hv => ?_
  exact hs.disjoint v hv (hperm.mem_iff.mpr (hs.subset v (Or.inl hv)))

/-- After as many steps as there are nodes nothing is ready any more. -/
theorem run_ready_nil (hedges : edges.Nodup)
    (hclosed : ∀ e ∈ edges, e.1 ∈ nodes ∧ e.2 ∈ nodes) {fuel : Nat} {s : State α}
    (hs : Inv nodes edges s) (hfuel : nodes.length ≤ s.order.length + fuel) :
    (Kahn.run (targets edges) fuel s).ready = [] := by
  induction fuel generalizing s with
  | zero => exact hs.ready_nil (le_antisymm hs.length_le hfuel)
  | succ fuel ih =>
    rw [Kahn.run]
    rcases length_order_step hedges (s := s) with ⟨hnil, -⟩ | hlen
    · rw [run_of_ready_nil hnil]
      exact hnil
    · exact ih (hs.step hedges hclosed) (by omega)

end Run

/-! ## The order -/

section Order

variable {nodes : List α} {edges : List (α × α)}

theorem order_eq_some {l : List α} (h : order nodes edges = some l) :
    l = (run (targets edges) nodes.length (init nodes edges)).order ∧
      l.length = nodes.length := by
  simp only [order] at h
  split_ifs at h with hlen
  cases h
  exact ⟨rfl, hlen⟩

/-- An order lists every node once. -/
theorem order_perm (hnodes : nodes.Nodup) (hedges : edges.Nodup)
    (hclosed : ∀ e ∈ edges, e.1 ∈ nodes ∧ e.2 ∈ nodes) {l : List α}
    (h : order nodes edges = some l) : l.Perm nodes := by
  obtain ⟨rfl, hlen⟩ := order_eq_some h
  have hinv := (Inv.init hnodes edges).run hedges hclosed nodes.length
  exact (hinv.nodup_order.subperm fun v hv =>
    hinv.subset v (Or.inr hv)).perm_of_length_le hlen.ge

/-- In an order every node comes after its predecessors. -/
theorem order_sound (hnodes : nodes.Nodup) (hedges : edges.Nodup)
    (hclosed : ∀ e ∈ edges, e.1 ∈ nodes ∧ e.2 ∈ nodes) {l : List α}
    (h : order nodes edges = some l) {pre post : List α} {u v : α}
    (hl : l = pre ++ v :: post) (huv : (u, v) ∈ edges) (hne : u ≠ v) : u ∈ pre := by
  obtain ⟨rfl, -⟩ := order_eq_some h
  exact ((Inv.init hnodes edges).run hedges hclosed nodes.length).after pre v post hl u
    (mem_proper.mpr ⟨huv, hne⟩)

/-- There is an order exactly when the graph is acyclic. -/
theorem order_isSome_iff (hnodes : nodes.Nodup) (hedges : edges.Nodup)
    (hclosed : ∀ e ∈ edges, e.1 ∈ nodes ∧ e.2 ∈ nodes) :
    (order nodes edges).isSome ↔ Acyclic edges := by
  constructor
  · intro h
    obtain ⟨l, hl⟩ := Option.isSome_iff_exists.mp h
    have hperm := order_perm hnodes hedges hclosed hl
    refine ⟨fun v => l.idxOf v, ?_⟩
    rintro ⟨u, v⟩ huv
    obtain ⟨he, hne⟩ := mem_proper.mp huv
    have hv : v ∈ l := hperm.mem_iff.mpr (hclosed _ he).2
    obtain ⟨pre, post, hsplit, hnot⟩ := List.eq_append_cons_of_mem hv
    have hu : u ∈ pre := order_sound hnodes hedges hclosed hl hsplit he hne
    show l.idxOf u < l.idxOf v
    rw [hsplit, List.idxOf_append_of_mem hu, List.idxOf_append_of_notMem hnot]
    have := List.idxOf_lt_length_of_mem hu
    omega
  · rintro ⟨rank, hrank⟩
    have hinv := (Inv.init hnodes edges).run hedges hclosed nodes.length
    have hnil := run_ready_nil hedges hclosed (Inv.init hnodes edges)
      (Nat.le_add_left nodes.length _)
    unfold order
    generalize run (targets edges) nodes.length (init nodes edges) = s at hinv hnil
    -- by induction on the rank every node is emitted
    have hall : ∀ n, ∀ v ∈ nodes, rank v = n → v ∈ s.order := by
      intro n
      induction n using Nat.strong_induction_on with
      | _ n ih =>
        intro v hv hn
        have h0 : degree edges s.order v = 0 := degree_eq_zero.mpr fun u hu =>
          ih (rank u) (hn ▸ hrank _ hu) u (hclosed _ (mem_proper.mp hu).1).1 rfl
        rcases hinv.ready_of_degree v hv h0 with hr | ho
        · rw [hnil] at hr
          cases hr
        · exact ho
    have hle := (hnodes.subperm fun v hv => hall _ v hv rfl).length_le
    simp [le_antisymm hinv.length_le hle]

end Order

/-! ## Cycles -/

section Cycles

variable {edges : List (α × α)}

/-- A node reaches another along edges between distinct nodes. -/
def Reaches (edges : List (α × α)) : α → α → Prop :=
  Relation.TransGen fun u v => (u, v) ∈ proper edges

/-- A graph is acyclic exactly when no node reaches itself. -/
theorem acyclic_iff : Acyclic edges ↔ ∀ v, ¬ Reaches edges v v := by
  constructor
  · rintro ⟨rank, hrank⟩ v hv
    have hgrows : ∀ u w, Reaches edges u w → rank u < rank w := by
      intro u w h
      induction h with
      | single huv => exact hrank _ huv
      | tail _ hvw ih => exact ih.trans (hrank _ hvw)
    exact lt_irrefl _ (hgrows v v hv)
  · intro hcycle
    classical
    -- the rank of a node counts the sources of edges that reach it
    let sources : α → Finset α := fun v =>
      (edges.map Prod.fst).toFinset.filter fun u => Reaches edges u v
    refine ⟨fun v => (sources v).card, ?_⟩
    rintro ⟨u, v⟩ huv
    refine Finset.card_lt_card (Finset.ssubset_iff_of_subset ?_ |>.mpr ⟨u, ?_, ?_⟩)
    · intro w hw
      obtain ⟨hmem, hreach⟩ := Finset.mem_filter.mp hw
      exact Finset.mem_filter.mpr ⟨hmem, hreach.tail huv⟩
    · refine Finset.mem_filter.mpr ⟨?_, .single huv⟩
      exact List.mem_toFinset.mpr (List.mem_map.mpr ⟨_, (mem_proper.mp huv).1, rfl⟩)
    · intro hu
      exact hcycle u (Finset.mem_filter.mp hu).2

end Cycles

/-! ## The least order -/

section Least

variable {nodes : List α} {edges : List (α × α)}

/-- A list of every node once, each after its predecessors. -/
structure IsTopological (nodes : List α) (edges : List (α × α)) (l : List α) : Prop where
  perm : l.Perm nodes
  after : ∀ pre v post, l = pre ++ v :: post → ∀ u, (u, v) ∈ edges → u ≠ v → u ∈ pre

theorem sorted_insertReady {v : α} {ready : List α} (h : ready.Pairwise (· ≤ ·)) :
    (insertReady v ready).Pairwise (· ≤ ·) := by
  unfold insertReady
  split_ifs
  · exact h
  · exact h.orderedInsert v ready

theorem sorted_foldl_release {ts : List α} : ∀ {s : State α}, s.ready.Pairwise (· ≤ ·) →
    (ts.foldl release s).ready.Pairwise (· ≤ ·) := by
  induction ts with
  | nil => exact id
  | cons t ts ih =>
    intro s h
    refine ih ?_
    show (if _ then _ else _ : List α).Pairwise (· ≤ ·)
    split_ifs
    · exact sorted_insertReady h
    · exact h

/-- What the loop maintains over ascending nodes: each node emitted so far was the least of those
that could be emitted then. -/
structure Least (nodes : List α) (edges : List (α × α)) (s : State α) : Prop where
  sorted : s.ready.Pairwise (· ≤ ·)
  least : ∀ pre v post, s.order = pre ++ v :: post → ∀ w ∈ nodes, w ∉ pre →
    (∀ u, (u, w) ∈ proper edges → u ∈ pre) → v ≤ w

theorem Least.init (hsorted : nodes.Pairwise (· ≤ ·)) (edges : List (α × α)) :
    Least nodes edges (init nodes edges) where
  sorted := hsorted.sublist List.filter_sublist
  least pre v post h := by simp [Kahn.init] at h

/-- A step: what is emitted next is the least ready node. -/
theorem Least.step (hedges : edges.Nodup) {s : State α} (hinv : Inv nodes edges s)
    (h : Least nodes edges s) : Least nodes edges (step (targets edges) s) := by
  unfold Kahn.step
  split
  · exact h
  · next v rest hready =>
    have hsorted := h.sorted
    rw [hready, List.pairwise_cons] at hsorted
    refine ⟨sorted_foldl_release hsorted.2, fun pre x post hsplit w hw hpre hall => ?_⟩
    rw [(foldl_release (nodup_targets hedges v) _).2.1] at hsplit
    rcases List.eq_nil_or_concat post with rfl | ⟨post', y, rfl⟩
    · obtain ⟨rfl, hx⟩ := List.append_inj' hsplit rfl
      obtain rfl : v = x := by simpa using hx
      -- `w` could have been emitted here, so it is ready too
      rcases hinv.ready_of_degree w hw (degree_eq_zero.mpr hall) with hmem | hmem
      · rw [hready] at hmem
        rcases List.mem_cons.mp hmem with rfl | hmem
        · exact le_refl _
        · exact hsorted.1 w hmem
      · exact absurd hmem hpre
    · have hinit : s.order ++ [v] = (pre ++ x :: post') ++ [y] := by simpa using hsplit
      exact h.least pre x post' (List.append_inj' hinit rfl).1 w hw hpre hall

/-- A run. -/
theorem Least.run (hedges : edges.Nodup) (hclosed : ∀ e ∈ edges, e.1 ∈ nodes ∧ e.2 ∈ nodes)
    {s : State α} (hinv : Inv nodes edges s) (h : Least nodes edges s) (fuel : Nat) :
    Least nodes edges (run (targets edges) fuel s) := by
  induction fuel generalizing s with
  | zero => exact h
  | succ fuel ih => exact ih (hinv.step hedges hclosed) (h.step hedges hinv)

/-- A list is not after another when at each place where they first differ it has the lesser
element. -/
theorem not_lex_of_forall_split {l l' : List α} (hlen : l.length = l'.length)
    (h : ∀ pre v w post post', l = pre ++ v :: post → l' = pre ++ w :: post' → v ≤ w) :
    ¬ List.Lex (· < ·) l' l := by
  induction l generalizing l' with
  | nil => exact List.not_lex_nil
  | cons v rest ih =>
    intro hlex
    cases hlex with
    | nil => cases hlen
    | rel hlt => exact absurd hlt (h [] v _ rest _ rfl rfl).not_gt
    | @cons _ rest' _ htail =>
      refine ih (Nat.succ.inj hlen) (fun pre x y post post' hl hl' => ?_) htail
      exact h (v :: pre) x y post post' (by rw [hl]; rfl) (by rw [hl']; rfl)

/-- An order is topological. -/
theorem order_isTopological (hnodes : nodes.Nodup) (hedges : edges.Nodup)
    (hclosed : ∀ e ∈ edges, e.1 ∈ nodes ∧ e.2 ∈ nodes) {l : List α}
    (h : order nodes edges = some l) : IsTopological nodes edges l where
  perm := order_perm hnodes hedges hclosed h
  after _ _ _ hl _ huv hne := order_sound hnodes hedges hclosed h hl huv hne

/-- Over ascending nodes, the order is the least of the topological ones. -/
theorem order_least (hnodes : nodes.Nodup) (hsorted : nodes.Pairwise (· ≤ ·))
    (hedges : edges.Nodup) (hclosed : ∀ e ∈ edges, e.1 ∈ nodes ∧ e.2 ∈ nodes) {l l' : List α}
    (h : order nodes edges = some l) (hl' : IsTopological nodes edges l') :
    ¬ List.Lex (· < ·) l' l := by
  have hperm := order_perm hnodes hedges hclosed h
  obtain ⟨rfl, -⟩ := order_eq_some h
  have hleast := (Least.init hsorted edges).run hedges hclosed (Inv.init hnodes edges) nodes.length
  refine not_lex_of_forall_split (hperm.length_eq.trans hl'.perm.length_eq.symm)
    fun pre v w post post' hsplit hsplit' => hleast.least pre v post hsplit w ?_ ?_ ?_
  · rw [← hl'.perm.mem_iff, hsplit']
    exact List.mem_append_right _ List.mem_cons_self
  · -- a topological list has no node twice
    have hnodup : l'.Nodup := hl'.perm.nodup_iff.mpr hnodes
    rw [hsplit', List.nodup_append] at hnodup
    exact fun hmem => hnodup.2.2 w hmem w List.mem_cons_self rfl
  · intro u hu
    obtain ⟨huw, hne⟩ := mem_proper.mp hu
    exact hl'.after pre w post' hsplit' u huw hne

end Least

end Kahn
