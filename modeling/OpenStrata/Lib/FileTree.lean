import OpenStrata.Lib.Program

/-!
# Trees of files

A file system as a tree of nodes under resolved paths, and the operations of a program on it. An
operation may be struck by a fault, which decides what it leaves behind. Links are stored and not
followed: a path is the resolved one.

## Main definitions

* `Node`, `Tree`, `IsTree`: what stands at a path, and a well-formed tree
* `Op`, `step`: the operations, and what they do when they are struck and when not
* `Op.Reaches`: the paths that an operation may change
* `Apart`: two paths of which no one is above the other

## Main results

* `step_of_not_reaches`: an operation changes nothing else
* `Op.Around.not_reaches`: what is done around one path reaches nothing below one that is apart
* `makeDirs_blocked`: no directory is made below a file
-/

namespace FileTree

/-- The names that lead to a node. -/
abbrev Location := List String

abbrev Content := List UInt8

inductive Node where
  | directory
  | file (content : Content)
  | link (target : String)
  deriving DecidableEq, Repr

abbrev Tree := Location → Option Node

def isDir (t : Tree) (p : Location) : Bool := t p == some .directory

/-- The root is a directory, and so is what stands above a node. -/
structure IsTree (t : Tree) : Prop where
  root : t [] = some .directory
  above : ∀ {p q : Location}, p <+: q → p ≠ q → t q ≠ none → t p = some .directory

inductive Op where
  /-- Resolve a path, which may fail. -/
  | resolve (p : Location)
  /-- What stands at a path. -/
  | status (p : Location)
  | readFile (p : Location)
  | createDirAll (p : Location)
  | createDir (p : Location)
  | writeFile (p : Location) (content : Content)
  | copyFile (source target : Location)
  | makeLink (target : String) (p : Location)
  | rename (source target : Location)
  | removeAll (p : Location)
  deriving DecidableEq

@[reducible] def Op.Reply : Op → Type
  | .status _ => Option Node
  | .readFile _ => Option Content
  | _ => Bool

/-- What an operation that was struck leaves behind: how many directories were made, what a file
was left with when it was touched, and what a removal has kept. -/
structure Fault where
  made : Nat
  leftover : Option Content
  kept : List Location

/-- The tree with another node at a path. -/
def put (t : Tree) (p : Location) (node : Node) : Tree := Function.update t p (some node)

/-- Make the directories that are missing, until something else stands in the way or as many were
made as a fault allows. -/
def makeDirs (limit : Option Nat) : List Location → Tree → Bool × Tree
  | [], t => (true, t)
  | p :: rest, t =>
    if isDir t p then makeDirs limit rest t
    else if t p = none ∧ limit ≠ some 0 then
      makeDirs (limit.map (· - 1)) rest (put t p .directory)
    else (false, t)

/-- A file can be written at a path. -/
def isWritable (t : Tree) (p : Location) : Bool :=
  isDir t p.dropLast && match t p with
    | none | some (.file _) => true
    | some .directory | some (.link _) => false

/-- Write a file; a fault leaves what it had, or something else. -/
def write (p : Location) (content : Content) (fault : Option Fault) (t : Tree) : Bool × Tree :=
  if isWritable t p then
    match fault with
    | none => (true, put t p (.file content))
    | some fault => (false, (fault.leftover.map fun left => put t p (.file left)).getD t)
  else (false, t)

/-- A new node at a path. -/
def create (p : Location) (node : Node) (fault : Option Fault) (t : Tree) : Bool × Tree :=
  if fault.isNone && isDir t p.dropLast && t p == none then (true, put t p node)
  else (false, t)

/-- What stands below one path, below another one. -/
def moved (source target : Location) (t : Tree) : Tree := fun q =>
  if target.isPrefixOf q then t (source ++ q.drop target.length)
  else if source.isPrefixOf q then none
  else t q

/-- The effect of an operation and its answer. -/
def step : (op : Op) → Option Fault → Tree → op.Reply × Tree
  | .resolve _, fault, t => (fault.isNone, t)
  | .status p, _, t => (t p, t)
  | .readFile p, fault, t =>
    (match fault, t p with
      | none, some (.file content) => some content
      | _, _ => none, t)
  | .createDirAll p, fault, t => makeDirs (fault.map (·.made)) p.inits t
  | .createDir p, fault, t => create p .directory fault t
  | .writeFile p content, fault, t => write p content fault t
  | .copyFile source target, fault, t =>
    match t source with
    | some (.file content) => write target content fault t
    | _ => (false, t)
  | .makeLink target p, fault, t => create p (.link target) fault t
  | .rename source target, fault, t =>
    if fault.isNone && (t source).isSome && (t target).isNone && isDir t target.dropLast then
      (true, moved source target t)
    else (false, t)
  | .removeAll p, fault, t =>
    (fault.isNone && (t p).isSome, fun q =>
      if p.isPrefixOf q && !(fault.any fun fault => fault.kept.contains q) then none else t q)

/-! ## What an operation changes -/

/-- The paths that an operation may change. -/
def Op.Reaches : Op → Location → Prop
  | .resolve _, _ | .status _, _ | .readFile _, _ => False
  | .createDirAll p, q => q <+: p
  | .createDir p, q | .writeFile p _, q | .copyFile _ p, q | .makeLink _ p, q => q = p
  | .rename source target, q => source <+: q ∨ target <+: q
  | .removeAll p, q => p <+: q

section Changes

variable {t : Tree} {p q : Location} {node : Node} {op : Op} {fault : Option Fault}

theorem put_of_ne (h : q ≠ p) : put t p node q = t q := Function.update_of_ne h _ _

theorem put_self : put t p node p = some node := Function.update_self _ _ _

theorem makeDirs_of_not_mem {limit : Option Nat} {ps : List Location} (h : q ∉ ps) :
    (makeDirs limit ps t).2 q = t q := by
  induction ps generalizing limit t with
  | nil => rfl
  | cons p ps ih =>
    obtain ⟨hne, hrest⟩ := not_or.mp fun hmem => h (List.mem_cons.mpr hmem)
    rw [makeDirs]
    split_ifs
    · exact ih hrest
    · rw [ih hrest, put_of_ne hne]
    · rfl

theorem write_of_ne {content : Content} (h : q ≠ p) : (write p content fault t).2 q = t q := by
  unfold write
  split_ifs
  · cases fault with
    | none => exact put_of_ne h
    | some fault =>
      cases hleft : fault.leftover with
      | none => simp [hleft]
      | some left => simpa [hleft] using put_of_ne h
  · rfl

theorem create_of_ne (h : q ≠ p) : (create p node fault t).2 q = t q := by
  unfold create
  split_ifs
  · exact put_of_ne h
  · rfl

theorem moved_of_not_prefix {source target : Location} (hsource : ¬source <+: q)
    (htarget : ¬target <+: q) : moved source target t q = t q := by
  rw [moved, if_neg (by simpa using htarget), if_neg (by simpa using hsource)]

/-- An operation changes nothing but what it reaches. -/
theorem step_of_not_reaches (h : ¬op.Reaches q) : (step op fault t).2 q = t q := by
  cases op with
  | resolve p => rfl
  | status p => rfl
  | readFile p => rfl
  | createDirAll p =>
    exact makeDirs_of_not_mem fun hmem => h ((List.mem_inits _ _).mp hmem)
  | createDir p => exact create_of_ne h
  | writeFile p content => exact write_of_ne h
  | copyFile source target =>
    rw [step]
    split
    · exact write_of_ne h
    · rfl
  | makeLink target p => exact create_of_ne h
  | rename source target =>
    rw [step]
    split_ifs
    · exact moved_of_not_prefix (fun hp => h (.inl hp)) fun hp => h (.inr hp)
    · rfl
  | removeAll p =>
    have hp : ¬p <+: q := h
    simp [step, hp]

/-- What was read stands there. -/
theorem step_readFile {content : Content} (h : (step (.readFile p) fault t).1 = some content) :
    t p = some (.file content) := by
  unfold step at h
  dsimp only at h
  split at h
  · rename_i heq
    cases h
    exact heq
  · cases h

/-- Neither of two paths is above the other, and they are not the same. -/
def Apart (p q : Location) : Prop := ¬p <+: q ∧ ¬q <+: p

/-- An operation that only reaches what is below a path, or above it. -/
def Op.Around (root : Location) (op : Op) : Prop :=
  ∀ q, op.Reaches q → q <+: root ∨ root <+: q

/-- What is done around one path reaches nothing below one that is apart. -/
theorem Op.Around.not_reaches {root x : Location} (hop : op.Around root) (hx : Apart root x)
    (hq : x <+: q) : ¬op.Reaches q := by
  intro hreach
  rcases hop q hreach with h | h
  · exact hx.2 (hq.trans h)
  · rcases List.prefix_or_prefix_of_prefix h hq with h | h
    · exact hx.1 h
    · exact hx.2 h

section Around

variable {root : Location}

theorem around_createDirAll (hp : p <+: q) (hroot : root <+: q) : (Op.createDirAll p).Around root :=
  fun _ hreach => List.prefix_or_prefix_of_prefix (hreach.trans hp) hroot

theorem around_createDir (hroot : root <+: p) : (Op.createDir p).Around root := by
  rintro q rfl
  exact .inr hroot

theorem around_writeFile {content : Content} (hroot : root <+: p) :
    (Op.writeFile p content).Around root := by
  rintro q rfl
  exact .inr hroot

theorem around_copyFile {source : Location} (hroot : root <+: p) :
    (Op.copyFile source p).Around root := by
  rintro q rfl
  exact .inr hroot

theorem around_makeLink {target : String} (hroot : root <+: p) :
    (Op.makeLink target p).Around root := by
  rintro q rfl
  exact .inr hroot

theorem around_removeAll : (Op.removeAll root).Around root := fun _ hreach => .inr hreach

end Around

theorem write_eq_of_true {content : Content} (h : (write p content fault t).1 = true) :
    (write p content fault t).2 = put t p (.file content) := by
  unfold write at h ⊢
  split_ifs at h ⊢
  cases fault with
  | none => rfl
  | some fault => cases h

theorem moved_target (source target rest : Location) :
    moved source target t (target ++ rest) = t (source ++ rest) := by
  rw [moved, if_pos (by simp), List.drop_left]

/-- The paths from the top to a path, through one above it. -/
theorem exists_inits {x : Location} (hxp : x <+: p) :
    ∃ before after, p.inits = before ++ x :: after ∧ ∀ y ∈ before, ¬x <+: y := by
  obtain ⟨rest, rfl⟩ := hxp
  rcases List.eq_nil_or_concat' x with rfl | ⟨init, last, rfl⟩
  · exact ⟨[], rest.inits.tail, by cases rest <;> rfl, by simp⟩
  · refine ⟨init.inits, rest.inits.tail.map (init ++ [last] ++ ·), ?_, fun y hy hbelow => ?_⟩
    · rw [List.inits_append, List.inits_append]
      simp
    · have hlength := (hbelow.trans ((List.mem_inits y init).mp hy)).length_le
      rw [List.length_append, List.length_singleton] at hlength
      omega

/-- No directory is made at a file or below it. -/
theorem makeDirs_blocked {limit : Option Nat} {x : Location} {content : Content}
    (hx : t x = some (.file content)) {before after : List Location}
    (hbefore : ∀ y ∈ before, ¬x <+: y) :
    (makeDirs limit (before ++ x :: after) t).1 = false ∧
      ∀ q, x <+: q → (makeDirs limit (before ++ x :: after) t).2 q = t q := by
  induction before generalizing limit t with
  | nil =>
    have hdir : isDir t x = false := by simp [isDir, hx]
    simp [makeDirs, hdir, hx]
  | cons y before ih =>
    obtain ⟨hy, hrest⟩ := List.forall_mem_cons.mp hbefore
    rw [List.cons_append, makeDirs]
    split_ifs
    · exact ih hx hrest
    · have hne : x ≠ y := fun h => hy (h ▸ List.prefix_rfl)
      have hput : put t y .directory x = some (.file content) := by rw [put_of_ne hne, hx]
      refine ⟨(ih hput hrest).1, fun q hq => ?_⟩
      have hqy : q ≠ y := fun h => hy (h ▸ hq)
      rw [(ih hput hrest).2 q hq, put_of_ne hqy]
    · exact ⟨rfl, fun _ _ => rfl⟩

/-- A tree of listed nodes. -/
def ofList (nodes : List (Location × Node)) : Tree := fun p => nodes.lookup p

/-- A list of nodes in which every node comes with the directories above it. -/
theorem isTree_ofList {nodes : List (Location × Node)} (hroot : nodes.lookup [] = some .directory)
    (habove : ∀ e ∈ nodes, ∀ p ∈ e.1.dropLast.inits, nodes.lookup p = some .directory) :
    IsTree (ofList nodes) := by
  refine ⟨hroot, fun {p q} hpq hne hq => ?_⟩
  obtain ⟨node, hnode⟩ := Option.ne_none_iff_exists'.mp hq
  have hmem : (q, node) ∈ nodes := by
    obtain ⟨before, after, hsplit, -⟩ := List.lookup_eq_some_iff.mp hnode
    rw [hsplit]
    exact List.mem_append_right _ List.mem_cons_self
  refine habove (q, node) hmem p ((List.mem_inits _ _).mpr ?_)
  rcases List.eq_nil_or_concat' q with rfl | ⟨parent, last, rfl⟩
  · exact absurd (List.prefix_nil.mp hpq) hne
  · rw [List.dropLast_concat]
    exact (List.prefix_concat_iff.mp hpq).resolve_left hne

end Changes

end FileTree
