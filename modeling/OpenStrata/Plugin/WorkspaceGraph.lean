import OpenStrata.Plugin.Workspace

/-!
# The graph of a workspace

The adjacency that every query builds from a list of edges, the search for cycles and the
walks over it.

## Main definitions

* `Linked`: two ids are the ends of a listed edge
* `ListsReached`: a list of what some ids reach, each once and after its dependencies

## Main results

* `cyclesOf_acyclic`: the search for cycles finishes, and finds one unless there is none
* `foldlM_enter_adjacencyOf`: a walk lists what its roots reach
-/

namespace OpenStrata.Plugin

open Std (ExtTreeMap)
open Relation (ReflTransGen TransGen)
open DepthFirst (Acyclic DependenciesFirst Edge Walk enter)

/-- Two ids are the ends of a listed edge. -/
def Linked (edges : List (String × String)) (a b : String) : Prop := (a, b) ∈ edges

/-- The list of all that some roots reach along a relation: each once, and after everything it
is related to. -/
structure ListsReached (r : String → String → Prop) (roots : String → Prop)
    (order : List String) : Prop where
  nodup : order.Nodup
  mem_iff : ∀ id, id ∈ order ↔ ∃ root, roots root ∧ ReflTransGen r root id
  dependencies_first : ∀ before a after, order = before ++ a :: after → ∀ b, r a b → b ∈ before

section Adjacency

variable {ids : List String} {edges : List (String × String)} {a b : String}

theorem getElem?_foldl_insert (ids : List String) (m : ExtTreeMap String (List String)) :
    (ids.foldl (fun m id => m.insert id []) m)[a]? = if a ∈ ids then some [] else m[a]? := by
  induction ids generalizing m with
  | nil => simp
  | cons id ids ih =>
    rw [List.foldl_cons, ih, ExtTreeMap.getElem?_insert]
    by_cases hmem : a ∈ ids
    · simp [hmem]
    · by_cases heq : id = a
      · simp [heq]
      · simp [hmem, heq, Ne.symm heq]

theorem getElem?_foldl_link (edges : List (String × String))
    (m : ExtTreeMap String (List String)) :
    (edges.foldl (fun m edge => m.alter edge.1 fun targets =>
      some (targets.getD [] ++ [edge.2])) m)[a]? =
      if (edges.filter (·.1 = a)) = [] then m[a]?
      else some (m[a]?.getD [] ++ (edges.filter (·.1 = a)).map (·.2)) := by
  induction edges generalizing m with
  | nil => simp
  | cons edge edges ih =>
    rw [List.foldl_cons, ih, ExtTreeMap.getElem?_alter]
    by_cases heq : edge.1 = a
    · by_cases hnil : edges.filter (·.1 = a) = []
      · simp [heq, hnil]
      · simp [heq, hnil]
    · rw [List.filter_cons_of_neg (by simpa using heq)]
      simp [heq]

theorem getElem?_adjacencyOf (a : String) : (adjacencyOf ids edges)[a]? =
    (if edges.filter (·.1 = a) = [] then (if a ∈ ids then some [] else none)
      else some ((edges.filter (·.1 = a)).map (·.2))).map
        fun targets => (SortBy.sortBy id targets).destutter (· ≠ ·) := by
  rw [adjacencyOf, ExtTreeMap.getElem?_map, getElem?_foldl_link, getElem?_foldl_insert]
  by_cases hmem : a ∈ ids
  · simp [hmem]
  · simp [hmem]

/-- The dependencies of an id are the other ends of its edges. -/
theorem mem_dependenciesOf : b ∈ dependenciesOf (adjacencyOf ids edges) a ↔ Linked edges a b := by
  have hmem : b ∈ (edges.filter (·.1 = a)).map (·.2) ↔ Linked edges a b := by
    rw [Linked, List.mem_map]
    constructor
    · rintro ⟨⟨x, y⟩, hmem, rfl⟩
      obtain ⟨hedge, heq⟩ := List.mem_filter.mp hmem
      obtain rfl : x = a := by simpa using heq
      exact hedge
    · intro hedge
      exact ⟨(a, b), List.mem_filter.mpr ⟨hedge, by simp⟩, rfl⟩
  rw [← hmem, dependenciesOf, getElem?_adjacencyOf]
  by_cases hnil : edges.filter (·.1 = a) = []
  · by_cases hid : a ∈ ids
    · simp [hnil, hid]
    · simp [hnil, hid]
  · rw [if_neg hnil, Option.map_some, Option.getD_some, SortBy.mem_destutter, SortBy.mem_sortBy]

theorem edge_dependenciesOf : Edge (dependenciesOf (adjacencyOf ids edges)) = Linked edges := by
  ext a b
  exact mem_dependenciesOf

theorem mem_adjacencyOf : a ∈ adjacencyOf ids edges ↔ a ∈ ids ∨ ∃ b, Linked edges a b := by
  rw [ExtTreeMap.mem_iff_isSome_getElem?, getElem?_adjacencyOf, Option.isSome_map]
  by_cases hnil : edges.filter (·.1 = a) = []
  · have hnone : ¬ ∃ b, Linked edges a b := by
      rintro ⟨b, hb⟩
      have := List.filter_eq_nil_iff.mp hnil (a, b) hb
      simp at this
    rw [if_pos hnil]
    by_cases hid : a ∈ ids
    · simp [hid]
    · simp [hid, hnone]
  · obtain ⟨⟨x, b⟩, hmem⟩ := List.exists_mem_of_ne_nil _ hnil
    obtain ⟨hedge, heq⟩ := List.mem_filter.mp hmem
    obtain rfl : x = a := by simpa using heq
    rw [if_neg hnil]
    exact ⟨fun _ => .inr ⟨b, hedge⟩, fun _ => rfl⟩

/-- The ids that stand in the adjacency, as nodes or as ends of edges. -/
def verticesOf (ids : List String) (edges : List (String × String)) : Finset String :=
  ((adjacencyOf ids edges).keys ++ edges.map (·.2)).toFinset

theorem mem_verticesOf_of_mem (h : a ∈ adjacencyOf ids edges) : a ∈ verticesOf ids edges := by
  rw [verticesOf, List.mem_toFinset, List.mem_append, ExtTreeMap.mem_keys]
  exact .inl h

theorem mem_verticesOf_of_linked (h : Linked edges a b) : b ∈ verticesOf ids edges := by
  rw [verticesOf, List.mem_toFinset, List.mem_append]
  exact .inr (List.mem_map.mpr ⟨(a, b), h, rfl⟩)

theorem verticesOf_closed : ∀ a ∈ verticesOf ids edges,
    ∀ b ∈ dependenciesOf (adjacencyOf ids edges) a, b ∈ verticesOf ids edges :=
  fun _ _ _ hb => mem_verticesOf_of_linked (mem_dependenciesOf.mp hb)

theorem card_verticesOf_le :
    (verticesOf ids edges).card ≤ (adjacencyOf ids edges).size + edges.length := by
  refine (List.toFinset_card_le _).trans ?_
  rw [List.length_append, List.length_map, ExtTreeMap.length_keys]

end Adjacency

section Queries

variable {ids : List String} {edges : List (String × String)}

/-- The search for cycles finishes; when it finds none, no id reaches itself. -/
theorem cyclesOf_acyclic (ids : List String) (edges : List (String × String)) :
    ∃ cycles, cyclesOf ids edges = some cycles ∧
      (cycles = [] → Acyclic (Linked edges)) := by
  let adjacency := adjacencyOf ids edges
  let start : DepthFirst.Search String (List String) :=
    { states := adjacency.map fun _ _ => 0, stack := [], cycles := [] }
  have hkeys : ∀ a ∈ adjacency.keys, a ∈ verticesOf ids edges := fun a ha =>
    mem_verticesOf_of_mem (ExtTreeMap.mem_keys.mp ha)
  have hfinishes : ∃ done, adjacency.keys.foldlM (DepthFirst.searchNew
      (dependenciesOf adjacency) rotateToLeast (adjacency.size + edges.length)) start = some done :=
    DepthFirst.foldlM_searchNew_some verticesOf_closed hkeys card_verticesOf_le start
  obtain ⟨done, hdone⟩ := hfinishes
  refine ⟨_, by rw [cyclesOf, hdone]; rfl, fun hnone => ?_⟩
  have hcycles : done.cycles = [] := by
    refine List.eq_nil_iff_forall_not_mem.mpr fun cycle hcycle => ?_
    have hmem : cycle ∈ (SortBy.sortBy id done.cycles).destutter (· ≠ ·) := by
      rwa [SortBy.mem_destutter, SortBy.mem_sortBy]
    rw [hnone] at hmem
    cases hmem
  have hstates : ∀ a, start.state a = 0 := by
    intro a
    show ((adjacency.map fun _ _ => 0)[a]?).getD 0 = 0
    rw [ExtTreeMap.getElem?_map]
    cases adjacency[a]? <;> rfl
  have hall : ∀ a b, Edge (dependenciesOf adjacency) a b → a ∈ adjacency.keys := by
    intro a b hedge
    rw [ExtTreeMap.mem_keys, mem_adjacencyOf]
    exact .inr ⟨b, mem_dependenciesOf.mp hedge⟩
  have hacyclic := DepthFirst.foldlM_searchNew_acyclic hall hstates rfl hdone hcycles
  rwa [edge_dependenciesOf] at hacyclic

/-- A walk from listed ids lists all they reach. -/
theorem foldlM_enter_adjacencyOf (hacyclic : Acyclic (Linked edges)) {roots : List String}
    (hroots : ∀ r ∈ roots, r ∈ verticesOf ids edges) :
    ∃ w, roots.foldlM (enter (dependenciesOf (adjacencyOf ids edges))
        (WorkspaceValidation.fuel (adjacencyOf ids edges) edges)) Walk.empty = some w ∧
      ListsReached (Linked edges) (· ∈ roots) w.ordered := by
  have hedge : Edge (dependenciesOf (adjacencyOf ids edges)) = Linked edges := edge_dependenciesOf
  rw [← hedge] at hacyclic
  obtain ⟨w, hrun, hnodup, hfirst, hmem⟩ := DepthFirst.foldlM_enter hacyclic verticesOf_closed
    hroots (Nat.lt_succ_of_le card_verticesOf_le)
  rw [hedge] at hmem
  refine ⟨w, hrun, hnodup, hmem, fun before a after heq b hb => ?_⟩
  exact hfirst before a after heq b (mem_dependenciesOf.mpr hb)

/-- What `visit` lists is what the id reaches over at least one edge. -/
theorem visit_adjacencyOf (ids : List String) (hacyclic : Acyclic (Linked edges)) (a : String) :
    ∃ w, WorkspaceValidation.visit (adjacencyOf ids edges)
        (WorkspaceValidation.fuel (adjacencyOf ids edges) edges) Walk.empty a = some w ∧
      ListsReached (Linked edges) (Linked edges a) w.ordered := by
  have hroots : ∀ r ∈ dependenciesOf (adjacencyOf ids edges) a, r ∈ verticesOf ids edges :=
    fun r hr => mem_verticesOf_of_linked (mem_dependenciesOf.mp hr)
  obtain ⟨w, hrun, hlists⟩ := foldlM_enter_adjacencyOf hacyclic hroots
  refine ⟨w, hrun, hlists.nodup, fun b => ?_, hlists.dependencies_first⟩
  rw [hlists.mem_iff]
  constructor
  · rintro ⟨r, hr, hreach⟩
    exact ⟨r, mem_dependenciesOf.mp hr, hreach⟩
  · rintro ⟨r, hr, hreach⟩
    exact ⟨r, mem_dependenciesOf.mpr hr, hreach⟩

end Queries

end OpenStrata.Plugin
