import Mathlib.Data.List.Infix
import Mathlib.Order.Basic

/-!
# Walking a path with links

A tree of directories, files and links, and a path as steps to names, upwards or to where it is.
The system walks a path step by step, follows the links that it meets up to a limit, and stops at
what is missing. Where a path leads is said without a limit, with the names that are missing
appended.

## Main definitions

* `Tree`: the nodes under their locations
* `walk`: what the system finds at a path
* `Leads`: where a path leads, whether something is there or not

## Main results

* `leads_of_walk`: what the system finds is where the path leads
* `walk_append`: a walk goes on where its first part has ended
* `Leads.unique`: a path leads to one location
-/

namespace LinkWalk

variable {ν : Type*}

inductive Step (ν : Type*)
  | here
  | up
  | name (n : ν)
  deriving DecidableEq, Repr

inductive Node (ν : Type*)
  | directory
  | file
  | link (absolute : Bool) (target : List (Step ν))
  deriving DecidableEq, Repr

def Node.isLink : Node ν → Bool
  | .link _ _ => true
  | .directory | .file => false

/-- The nodes of a tree; what stands above a node is a directory. -/
structure Tree (ν : Type*) where
  node : List ν → Option (Node ν)
  root : node [] = some .directory
  above : ∀ {location : List ν} {n : ν}, node (location ++ [n]) ≠ none →
    node location = some .directory

inductive Walked (ν : Type*)
  /-- A node, with the number of links that may still be followed. -/
  | found (location : List ν) (links : Nat)
  | notFound
  | notDirectory
  | loop
  deriving DecidableEq, Repr

def isDirectory : Option (Node ν) → Bool
  | some .directory => true
  | none | some .file | some (.link _ _) => false

/-- Walk a path from a location. The last name is followed when it is a link and that is asked
for. -/
def walk (t : Tree ν) (follow : Bool) : Nat → List ν → List (Step ν) → Walked ν
  | links, location, [] => .found location links
  | links, location, step :: rest =>
    if isDirectory (t.node location) then
      match step with
      | .here => walk t follow links location rest
      | .up => walk t follow links location.dropLast rest
      | .name n =>
        match t.node (location ++ [n]) with
        | none => .notFound
        | some .directory | some .file => walk t follow links (location ++ [n]) rest
        | some (.link absolute target) =>
          if rest.isEmpty && !follow then .found (location ++ [n]) links
          else match links with
            | 0 => .loop
            | links + 1 =>
              walk t follow links (if absolute then [] else location) (target ++ rest)
    else .notDirectory
termination_by links _ steps => (links, steps.length)

/-- Where a path leads from a location: links are followed, and other names are appended. -/
inductive Leads (t : Tree ν) : List ν → List (Step ν) → List ν → Prop
  | nil (location : List ν) : Leads t location [] location
  | here {location rest l} (h : Leads t location rest l) : Leads t location (.here :: rest) l
  | up {location rest l} (h : Leads t location.dropLast rest l) :
      Leads t location (.up :: rest) l
  | enter {location n rest l} (hnode : (t.node (location ++ [n])).all fun node => !node.isLink)
      (h : Leads t (location ++ [n]) rest l) : Leads t location (.name n :: rest) l
  | follow {location n rest l absolute target}
      (hnode : t.node (location ++ [n]) = some (.link absolute target))
      (h : Leads t (if absolute then [] else location) (target ++ rest) l) :
      Leads t location (.name n :: rest) l

/-! ## Walks -/

section Walk

variable {t : Tree ν} {follow : Bool} {links left : Nat} {location l m : List ν} {n : ν}
  {absolute : Bool} {target steps rest : List (Step ν)}

@[simp] theorem walk_nil : walk t follow links location [] = .found location links := by
  rw [walk]

theorem walk_here (h : isDirectory (t.node location)) :
    walk t follow links location (.here :: rest) = walk t follow links location rest := by
  rw [walk, if_pos h]

theorem walk_up (h : isDirectory (t.node location)) :
    walk t follow links location (.up :: rest) = walk t follow links location.dropLast rest := by
  rw [walk, if_pos h]

theorem walk_none (h : isDirectory (t.node location)) (hnode : t.node (location ++ [n]) = none) :
    walk t follow links location (.name n :: rest) = .notFound := by
  rw [walk, if_pos h, hnode]

theorem walk_enter (h : isDirectory (t.node location))
    (hnode : (t.node (location ++ [n])).any fun node => !node.isLink) :
    walk t follow links location (.name n :: rest) =
      walk t follow links (location ++ [n]) rest := by
  rw [walk, if_pos h]
  cases hstands : t.node (location ++ [n]) with
  | none =>
    rw [hstands] at hnode
    cases hnode
  | some node =>
    rw [hstands] at hnode
    cases node with
    | directory => rfl
    | file => rfl
    | link _ _ => cases hnode

/-- A link at the end that is not followed is found itself. -/
theorem walk_link (h : isDirectory (t.node location))
    (hnode : t.node (location ++ [n]) = some (.link absolute target)) :
    walk t false links location [.name n] = .found (location ++ [n]) links := by
  rw [walk, if_pos h, hnode]
  rfl

theorem walk_loop (h : isDirectory (t.node location))
    (hnode : t.node (location ++ [n]) = some (.link absolute target))
    (hfollow : ¬(rest.isEmpty && !follow) = true) :
    walk t follow 0 location (.name n :: rest) = .loop := by
  rw [walk.eq_def]
  dsimp only
  rw [if_pos h, hnode]
  exact if_neg hfollow

theorem walk_follow (h : isDirectory (t.node location))
    (hnode : t.node (location ++ [n]) = some (.link absolute target))
    (hfollow : ¬(rest.isEmpty && !follow) = true) :
    walk t follow (links + 1) location (.name n :: rest) =
      walk t follow links (if absolute then [] else location) (target ++ rest) := by
  rw [walk.eq_def]
  dsimp only
  rw [if_pos h, hnode]
  exact if_neg hfollow

theorem walk_stuck {step : Step ν} (h : ¬isDirectory (t.node location)) :
    walk t follow links location (step :: rest) = .notDirectory := by
  rw [walk.eq_def]
  exact if_neg h

/-- What the system finds is where the path leads. -/
theorem leads_of_walk (h : walk t true links location steps = .found l left) :
    Leads t location steps l := by
  induction links, location, steps using walk.induct t true with
  | case1 links location =>
    rw [walk_nil] at h
    cases h
    exact .nil _
  | case2 links location rest hdir ih => exact .here (ih (walk_here hdir ▸ h))
  | case3 links location rest hdir ih => exact .up (ih (walk_up hdir ▸ h))
  | case4 links location rest hdir n hnode =>
    rw [walk_none hdir hnode] at h
    cases h
  | case5 links location rest hdir n hnode ih =>
    rw [walk_enter hdir (by rw [hnode]; rfl)] at h
    exact .enter (by rw [hnode]; rfl) (ih h)
  | case6 links location rest hdir n hnode ih =>
    rw [walk_enter hdir (by rw [hnode]; rfl)] at h
    exact .enter (by rw [hnode]; rfl) (ih h)
  | case7 links location rest hdir n absolute target hnode hlast => simp at hlast
  | case8 location rest hdir n absolute target hnode hlast =>
    rw [walk_loop hdir hnode hlast] at h
    cases h
  | case9 location rest hdir n absolute target hnode hlast links ih =>
    rw [walk_follow hdir hnode hlast] at h
    exact .follow hnode (ih h)
  | case10 links location step rest hdir =>
    rw [walk_stuck hdir] at h
    cases h

/-- Go on from what was found. -/
def Walked.andThen (walked : Walked ν) (next : Nat → List ν → Walked ν) : Walked ν :=
  match walked with
  | .found location links => next links location
  | .notFound => .notFound
  | .notDirectory => .notDirectory
  | .loop => .loop

/-- A walk goes on where its first part has ended, with the links that are left. -/
theorem walk_append (hrest : rest ≠ []) :
    walk t follow links location (steps ++ rest) =
      (walk t true links location steps).andThen fun left l => walk t follow left l rest := by
  have hopen : ∀ steps : List (Step ν), ¬((steps ++ rest).isEmpty && !follow) = true := by
    intro steps
    simp [List.isEmpty_iff, hrest]
  have hfollow : ∀ steps : List (Step ν), ¬(steps.isEmpty && !true) = true := by simp
  induction links, location, steps using walk.induct t true with
  | case1 links location =>
    rw [walk_nil]
    rfl
  | case2 links location steps hdir ih =>
    rw [List.cons_append, walk_here hdir, walk_here hdir, ih]
  | case3 links location steps hdir ih =>
    rw [List.cons_append, walk_up hdir, walk_up hdir, ih]
  | case4 links location steps hdir n hnode =>
    rw [List.cons_append, walk_none hdir hnode, walk_none hdir hnode]
    rfl
  | case5 links location steps hdir n hnode ih =>
    have hstands : (t.node (location ++ [n])).any fun node => !node.isLink := by rw [hnode]; rfl
    rw [List.cons_append, walk_enter hdir hstands, walk_enter hdir hstands, ih]
  | case6 links location steps hdir n hnode ih =>
    have hstands : (t.node (location ++ [n])).any fun node => !node.isLink := by rw [hnode]; rfl
    rw [List.cons_append, walk_enter hdir hstands, walk_enter hdir hstands, ih]
  | case7 links location steps hdir n absolute target hnode hlast => simp at hlast
  | case8 location steps hdir n absolute target hnode hlast =>
    rw [List.cons_append, walk_loop hdir hnode (hopen _), walk_loop hdir hnode hlast]
    rfl
  | case9 location steps hdir n absolute target hnode hlast links ih =>
    rw [List.cons_append, walk_follow hdir hnode (hopen _), walk_follow hdir hnode hlast,
      ← List.append_assoc]
    exact ih
  | case10 links location step steps hdir =>
    rw [List.cons_append, walk_stuck hdir, walk_stuck hdir]
    rfl

/-! ## Canonical locations -/

/-- Nothing on the way to a location is missing or a link, nor is what stands there. -/
def Canonical (t : Tree ν) (location : List ν) : Prop :=
  ∀ l, l <+: location → (t.node l).any fun node => !node.isLink

theorem canonical_nil : Canonical t [] := by
  intro l hl
  rw [List.prefix_nil.mp hl, t.root]
  rfl

theorem Canonical.mono (h : Canonical t location) (hl : l <+: location) : Canonical t l :=
  fun m hm => h m (hm.trans hl)

theorem Canonical.snoc (h : Canonical t location)
    (hnode : (t.node (location ++ [n])).any fun node => !node.isLink) :
    Canonical t (location ++ [n]) := by
  intro l hl
  rcases List.prefix_concat_iff.mp hl with rfl | hl
  · exact hnode
  · exact h l hl

/-- What the system finds is canonical when the start is. -/
theorem canonical_of_walk (hstart : Canonical t location)
    (h : walk t true links location steps = .found l left) : Canonical t l := by
  induction links, location, steps using walk.induct t true with
  | case1 links location =>
    rw [walk_nil] at h
    cases h
    exact hstart
  | case2 links location rest hdir ih => exact ih hstart (walk_here hdir ▸ h)
  | case3 links location rest hdir ih =>
    exact ih (hstart.mono (List.dropLast_prefix location)) (walk_up hdir ▸ h)
  | case4 links location rest hdir n hnode =>
    rw [walk_none hdir hnode] at h
    cases h
  | case5 links location rest hdir n hnode ih =>
    have hstands : (t.node (location ++ [n])).any fun node => !node.isLink := by rw [hnode]; rfl
    exact ih (hstart.snoc hstands) (walk_enter hdir hstands ▸ h)
  | case6 links location rest hdir n hnode ih =>
    have hstands : (t.node (location ++ [n])).any fun node => !node.isLink := by rw [hnode]; rfl
    exact ih (hstart.snoc hstands) (walk_enter hdir hstands ▸ h)
  | case7 links location rest hdir n absolute target hnode hlast => simp at hlast
  | case8 location rest hdir n absolute target hnode hlast =>
    rw [walk_loop hdir hnode hlast] at h
    cases h
  | case9 location rest hdir n absolute target hnode hlast links ih =>
    rw [walk_follow hdir hnode hlast] at h
    refine ih ?_ h
    split
    · exact canonical_nil
    · exact hstart
  | case10 links location step rest hdir =>
    rw [walk_stuck hdir] at h
    cases h

theorem walk_names (location names : List ν) (h : Canonical t (location ++ names)) :
    walk t follow links location (names.map .name) = .found (location ++ names) links := by
  induction names generalizing location with
  | nil => simp
  | cons n names ih =>
    have hnode := h (location ++ [n]) ⟨names, by simp⟩
    have hdir : isDirectory (t.node location) := by
      have hstands : t.node (location ++ [n]) ≠ none := by
        intro hnone
        rw [hnone] at hnode
        cases hnode
      rw [t.above hstands]
      rfl
    rw [List.map_cons, walk_enter hdir hnode, ih _ (by simpa using h)]
    simp

/-- A canonical location is found without following a link. -/
theorem walk_canonical (follow : Bool) (links : Nat) (h : Canonical t location) :
    walk t follow links [] (location.map .name) = .found location links :=
  walk_names [] location h

theorem node_append_of_none (h : t.node location = none) (names : List ν) :
    t.node (location ++ names) = none := by
  induction names using List.reverseRecOn with
  | nil => simpa using h
  | append_singleton names n ih =>
    by_contra hstands
    rw [← List.append_assoc] at hstands
    rw [t.above hstands] at ih
    cases ih

end Walk

/-! ## Where a path leads -/

section Leads

variable {t : Tree ν} {location l m : List ν} {n : ν} {steps rest : List (Step ν)}

theorem Leads.append (h : Leads t location steps m) (hrest : Leads t m rest l) :
    Leads t location (steps ++ rest) l := by
  induction h with
  | nil => exact hrest
  | here _ ih => exact .here (ih hrest)
  | up _ ih => exact .up (ih hrest)
  | enter hnode _ ih => exact .enter hnode (ih hrest)
  | follow hnode _ ih => exact .follow hnode (by simpa using ih hrest)

/-- A path leads to one location. -/
theorem Leads.unique (h : Leads t location steps l) (h' : Leads t location steps m) : l = m := by
  induction h with
  | nil =>
    cases h'
    rfl
  | here _ ih =>
    cases h' with
    | here h' => exact ih h'
  | up _ ih =>
    cases h' with
    | up h' => exact ih h'
  | enter hnode _ ih =>
    cases h' with
    | enter _ h' => exact ih h'
    | follow hlink _ =>
      rw [hlink] at hnode
      cases hnode
  | follow hnode _ ih =>
    cases h' with
    | enter hstands _ =>
      rw [hnode] at hstands
      cases hstands
    | follow hlink h' =>
      rw [hnode] at hlink
      cases hlink
      exact ih h'

end Leads

end LinkWalk
