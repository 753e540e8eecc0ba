import OpenStrata.Ci.Jobs

/-!
# Values in workflow documents

Which values of the support matrix reach the documents, and through which pieces. The shared
steps carry the bootstrap, the trust policy and the repository checks; everything else of the
matrix comes in through the entries.

## Main definitions

* `Document.Carries`: every value of a document comes in a piece of a given kind
* `SharedValues`: the kind takes in the values of the shared steps
* `EntryValue.texts`: the values that a field of an entry carries

## Main results

* `steps_carries`: the values of the steps of a source job
* `entry_carries`: the values of an entry
* `generateSource_carries`: the values of the source workflow
-/

namespace OpenStrata.Ci

variable {m : SupportMatrix} {P : Piece → Prop}

/-- Every value of a document comes in a piece that satisfies `P`. -/
def Document.Carries (P : Piece → Prop) (d : Document) : Prop :=
  ∀ piece ∈ d, piece.value?.isSome → P piece

namespace Document.Carries

variable {d e : Document}

theorem mono {Q : Piece → Prop} (h : Carries P d) (hPQ : ∀ piece, P piece → Q piece) :
    Carries Q d :=
  fun piece hpiece hvalue => hPQ piece (h piece hpiece hvalue)

theorem nil : Carries P [] := fun piece hpiece => by cases hpiece

theorem append_iff : Carries P (d ++ e) ↔ Carries P d ∧ Carries P e :=
  List.forall_mem_append

theorem append (hd : Carries P d) (he : Carries P e) : Carries P (d ++ e) :=
  append_iff.mpr ⟨hd, he⟩

theorem ite {c : Prop} [Decidable c] (hd : c → Carries P d) (he : ¬ c → Carries P e) :
    Carries P (if c then d else e) := by
  split
  · next h => exact hd h
  · next h => exact he h

theorem elim {α : Type} {o : Option α} {f : α → Document}
    (h : ∀ a, o = some a → Carries P (f a)) : Carries P (o.elim [] f) := by
  cases o with
  | none => exact nil
  | some a => exact h a rfl

theorem flatMap {α : Type} {l : List α} {f : α → Document} (h : ∀ a ∈ l, Carries P (f a)) :
    Carries P (l.flatMap f) := by
  intro piece hpiece
  obtain ⟨a, ha, hin⟩ := List.mem_flatMap.mp hpiece
  exact h a ha piece hin

/-- The values of a document whose pieces are in view are checked one by one. -/
theorem of_carried (pieces : List Piece) (h : d.filter (fun piece => piece.value?.isSome) = pieces)
    (hP : ∀ piece ∈ pieces, P piece) : Carries P d := by
  intro piece hpiece hvalue
  exact hP piece (h ▸ List.mem_filter.mpr ⟨hpiece, hvalue⟩)

/-- A document without values. -/
theorem of_none (h : d.filter (fun piece => piece.value?.isSome) = []) : Carries P d :=
  of_carried [] h (by simp)

theorem lines_cons {line : List Piece} {rest : List (List Piece)} (hline : Carries P line)
    (hrest : Carries P (lines rest)) : Carries P (lines (line :: rest)) :=
  .append (.append hline (.of_none rfl)) hrest

end Document.Carries

open Document

/-! ## Steps -/

/-- The kind of pieces takes in what the shared steps carry, the repository checks apart. -/
structure SharedValues (P : Piece → Prop) (m : SupportMatrix) : Prop where
  version : ∀ bootstrap, m.bootstrap = some bootstrap → P (.value bootstrap.ost.version)
  repository : ∀ bootstrap, m.bootstrap = some bootstrap → P (.value bootstrap.ost.repository)
  pins : ∀ bootstrap, m.bootstrap = some bootstrap →
    ∀ pin ∈ bootstrap.ost.sha256, P (.value pin.1) ∧ P (.value pin.2)
  policy : ∀ policy, m.trust.policy = some policy → P (.value policy)

/-- The kind of pieces takes in repository checks. -/
def CheckValues (P : Piece → Prop) (checks : List SourceCheck) : Prop :=
  ∀ check ∈ checks, P (.value check.name) ∧ P (.script check.run)

section Steps

theorem bootstrapSteps_carries (h : SharedValues P m) (requireExactPin : Bool) :
    Carries P (m.bootstrap.elim [] fun b => bootstrapStep b requireExactPin) := by
  refine .elim fun b hb => ?_
  have hversion := h.version b hb
  unfold bootstrapStep
  simp only [Carries.append_iff, and_assoc]
  refine ⟨.of_carried [.value b.ost.version] rfl (by simpa using hversion), ?_, .of_none rfl,
    .ite (fun _ => .of_none rfl) fun _ => .nil, ?_, ?_⟩
  · rw [pinLines, lines, List.flatMap_map]
    refine .flatMap fun pin hpin => .of_carried [.value pin.1, .value pin.2] rfl ?_
    simpa using h.pins b hb pin hpin
  · exact .of_carried [.value b.ost.repository, .value b.ost.version] rfl
      (by simpa using ⟨h.repository b hb, hversion⟩)
  · exact .of_carried [.value b.ost.version] rfl (by simpa using hversion)

theorem ostVersionStep_carries (h : SharedValues P m) :
    Carries P (ostVersionStep m.bootstrap) := by
  unfold ostVersionStep
  simp only [Carries.append_iff, and_assoc]
  refine ⟨.of_none rfl, .ite (fun _ => .of_none rfl) fun _ => .of_none rfl, .of_none rfl,
    .elim fun b hb => ?_, .of_none rfl⟩
  exact .of_carried [.value b.ost.version, .value b.ost.version] rfl
    (by simpa using h.version b hb)

theorem checkoutPreamble_carries (h : SharedValues P m) : Carries P (checkoutPreamble m) := by
  unfold checkoutPreamble
  simp only [Carries.append_iff, and_assoc]
  exact ⟨.of_none rfl, .of_none rfl, bootstrapSteps_carries h false, ostVersionStep_carries h,
    .of_none rfl⟩

theorem runtimeFetchSteps_carries (h : SharedValues P m) :
    Carries P (runtimeFetchSteps m.bootstrap) := by
  refine .append (.elim fun b hb => ?_) (.of_none rfl)
  exact .of_carried [.value b.ost.version] rfl (by simpa using h.version b hb)

theorem prebuildSteps_carries (m : SupportMatrix) : Carries P (prebuildSteps m) :=
  .append (.append (.ite (fun _ => .of_none rfl) fun _ => .nil)
    (.ite (fun _ => .of_none rfl) fun _ => .nil)) (.of_none rfl)

theorem policyFlag_carries (h : SharedValues P m) : Carries P (policyFlag m) :=
  .elim fun policy hpolicy => .of_carried [.value policy] rfl (by simpa using h.policy policy hpolicy)

theorem sourcePreamble_carries (h : SharedValues P m) : Carries P (sourcePreamble m) := by
  unfold sourcePreamble
  simp only [Carries.append_iff, and_assoc]
  refine ⟨checkoutPreamble_carries h, runtimeFetchSteps_carries h, ?_, .elim fun b hb => ?_,
    prebuildSteps_carries m⟩
  · -- the policy flag stands at the end of one line
    repeat' refine .lines_cons (.of_none rfl) ?_
    exact .lines_cons (.append (.of_none rfl) (policyFlag_carries h)) (.of_none rfl)
  · exact .of_carried [.value b.ost.version] rfl (by simpa using h.version b hb)

theorem sourceCheckSteps_carries {checks : List SourceCheck} {condition : Document}
    (hcondition : Carries P condition) (h : CheckValues P checks) :
    Carries P (sourceCheckSteps checks condition) := by
  refine .flatMap fun check hcheck => ?_
  simp only [Carries.append_iff, and_assoc]
  refine ⟨.of_carried [.value check.name] rfl (by simpa using (h check hcheck).1),
    .ite (fun _ => .nil) fun _ => ?_, .of_none rfl,
    .of_carried [.script check.run] rfl (by simpa using (h check hcheck).2)⟩
  exact .lines_cons (.append (.of_none rfl) hcondition) (.of_none rfl)

/-- The repository checks run in the jobs of these shapes. -/
def JobShape.runsChecks : JobShape → Bool
  | .bundle | .workspace => true
  | .workspaceRuntimeFree | .workspaceGraph => false

theorem steps_carries {shape : JobShape} (h : SharedValues P m)
    (hchecks : shape.runsChecks → CheckValues P m.sourceChecks) :
    Carries P (shape.steps m) := by
  cases shape with
  | bundle =>
    exact .append (.append (.append (sourcePreamble_carries h) (.of_none rfl))
      (sourceCheckSteps_carries .nil (hchecks rfl))) (.of_none rfl)
  | workspace =>
    exact .append (.append (.append (sourcePreamble_carries h) (.of_none rfl))
      (sourceCheckSteps_carries (.of_none rfl) (hchecks rfl))) (.of_none rfl)
  | workspaceRuntimeFree =>
    exact .append (.append (checkoutPreamble_carries h)
      (.ite (fun _ => .of_none rfl) fun _ => .nil)) (.of_none rfl)
  | workspaceGraph => exact .append (checkoutPreamble_carries h) (.of_none rfl)

end Steps

/-! ## Entries and jobs -/

/-- The values of a field of an entry. -/
def EntryValue.texts : EntryValue → List String
  | .plain s | .quoted s => [s]
  | .labels ss => ss

theorem labelPieces_carries {labels : List String} (h : ∀ label ∈ labels, P (.value label)) :
    Carries P (labelPieces labels) := by
  induction labels with
  | nil => exact .nil
  | cons label rest ih =>
    have hlabel := h label List.mem_cons_self
    cases rest with
    | nil => exact .of_carried [.value label] rfl (by simpa using hlabel)
    | cons next rest =>
      refine .append (.of_carried [.value label] rfl (by simpa using hlabel)) (ih ?_)
      exact fun label hmem => h label (List.mem_cons_of_mem _ hmem)

theorem entryValue_carries {value : EntryValue} (h : ∀ s ∈ value.texts, P (.value s)) :
    Carries P value.pieces := by
  cases value with
  | plain s => exact .of_carried [.value s] rfl (by simpa using h s (by simp [EntryValue.texts]))
  | quoted s => exact .of_carried [.value s] rfl (by simpa using h s (by simp [EntryValue.texts]))
  | labels ss =>
    exact .append (.append (.of_none rfl) (labelPieces_carries h)) (.of_none rfl)

theorem entry_carries {entry : Entry} (h : ∀ field ∈ entry, ∀ s ∈ field.value.texts, P (.value s)) :
    Carries P entry.pieces := by
  have hfield : ∀ (indent : String), ∀ field ∈ entry,
      Carries P (Entry.fieldPieces indent field) := by
    intro indent field hmem
    exact .append (.append (.of_none rfl) (entryValue_carries (h field hmem))) (.of_none rfl)
  cases entry with
  | nil => exact .nil
  | cons field rest =>
    exact .append (hfield _ field List.mem_cons_self)
      (.flatMap fun other hmem => hfield _ other (List.mem_cons_of_mem _ hmem))

theorem ciEnv_carries (withPlugin withRuntime : Bool) : Carries P (ciEnv withPlugin withRuntime) :=
  .append (.append (.of_none rfl) (.ite (fun _ => .of_none rfl) fun _ => .nil))
    (.ite (fun _ => .of_none rfl) fun _ => .nil)

theorem ostHome_carries (m : SupportMatrix) (directory : String) :
    Carries P (ostHome m directory) :=
  .ite (fun _ => .of_none rfl) fun _ => .nil

theorem Job.header_carries {job : Job} (htitle : Carries P job.title) (henv : Carries P job.env)
    (hstrategy : Carries P job.strategy) : Carries P job.header := by
  have hgate : Carries P job.gate.pieces := by
    cases job.gate <;> exact .of_none rfl
  refine .append (.append (.append (.append (.of_none rfl) hgate) ?_) henv) hstrategy
  exact .lines_cons (.append (.of_none rfl) htitle) (.of_none rfl)

theorem supportJob_header_carries (id event : String) (cells : List SupportCell) :
    Carries P (supportJob m id event cells).header :=
  Job.header_carries (.of_none rfl) (ciEnv_carries true true) (.of_none rfl)

theorem sourceJob_header_carries (id condition : String) (shape : JobShape)
    (cells : List SupportCell) : Carries P (sourceJob m id condition shape cells).header :=
  Job.header_carries (.of_none rfl) (.append (ciEnv_carries false _) (ostHome_carries m _))
    (.of_none rfl)

theorem candidateJob_header_carries (release : ReleaseLane) (policy : String) :
    Carries P (candidateJob m release policy).header :=
  Job.header_carries (.of_none rfl) (.append (ciEnv_carries false true) (ostHome_carries m _))
    (.of_none rfl)

theorem cells_ne_nil_of_mem {mode : SourceWorkflowMode} {job : Job} (h : job ∈ sourceJobs m mode) :
    job.cells ≠ [] := by
  obtain ⟨lane, -, hjob⟩ := List.mem_flatMap.mp h
  obtain ⟨shape, -, hshape⟩ := List.mem_filterMap.mp hjob
  dsimp only at hshape
  split at hshape
  · cases hshape
  · next hcells =>
    obtain rfl := Option.some.inj hshape
    exact fun hnil => hcells (List.isEmpty_iff.mpr hnil)

/-- Every value of the source workflow is one of the shared steps, of a repository check or of an
entry. -/
theorem generateSource_carries {mode : SourceWorkflowMode} {d : Document}
    (hdoc : generateSourceWithMode m mode = some d) (hshared : SharedValues P m)
    (hchecks : (∃ cell ∈ m.sourceCells, (jobShape cell).runsChecks) →
      CheckValues P m.sourceChecks)
    (hentries : ∀ cell ∈ m.sourceCells,
      ∀ field ∈ includeEntry m cell ((jobShape cell).includeKeys cell),
        ∀ s ∈ field.value.texts, P (.value s)) : Carries P d := by
  obtain ⟨first, hfirst, rfl⟩ := Option.map_eq_some_iff.mp hdoc
  simp only [Carries.append_iff, and_assoc]
  refine ⟨.of_none ?_, ?_, .of_none rfl, ?_, ?_⟩
  · cases mode <;> rfl
  · cases mode with
    | reusable => exact .of_none rfl
    | direct =>
      exact .append (.ite (fun _ => .of_none rfl) fun _ => .nil)
        (.ite (fun _ => .of_none rfl) fun _ => .nil)
  · refine .flatMap fun job hjob => ?_
    have hne := cells_ne_nil_of_mem hjob
    obtain ⟨lane, id, condition, shape, rfl, -⟩ := mem_sourceJobs hjob
    have hcells : ∀ cell ∈ laneCells m lane shape, cell ∈ m.sourceCells ∧ jobShape cell = shape := by
      intro cell hcell
      obtain ⟨hsource, hshape⟩ := List.mem_filter.mp hcell
      rw [Bool.and_eq_true, beq_iff_eq, beq_iff_eq] at hshape
      exact ⟨hsource, hshape.2⟩
    -- a job has a cell, to which the checks that it runs belong
    obtain ⟨cell, hcell⟩ := List.exists_mem_of_ne_nil _ hne
    refine .append (.append (sourceJob_header_carries _ _ _ _) (.flatMap fun entry hentry => ?_)) ?_
    · obtain ⟨other, hother, rfl⟩ := List.mem_map.mp hentry
      obtain ⟨hsource, rfl⟩ := hcells other hother
      exact entry_carries (hentries other hsource)
    · obtain ⟨hsource, rfl⟩ := hcells cell hcell
      exact steps_carries hshared fun hruns => hchecks ⟨cell, hsource, hruns⟩
  · refine .ite (fun _ => ?_) fun _ => .nil
    have hlabels : Carries P (labelPieces (m.runsOn first)) := by
      refine labelPieces_carries fun label hlabel => ?_
      exact hentries first (List.mem_of_mem_head? hfirst) ⟨.runsOn, .labels (m.runsOn first)⟩
        (by simp [includeEntry]) label hlabel
    refine .lines_cons (.of_none rfl) (.lines_cons (.of_none rfl) (.lines_cons ?_ (.of_none rfl)))
    exact .append (.append (.of_none rfl) hlabels) (.of_none rfl)

/-! ## Parts of the source workflow -/

theorem infix_flatMap {α β : Type} {l : List α} {a : α} (h : a ∈ l) (f : α → List β) :
    f a <:+: l.flatMap f :=
  List.infix_of_mem_flatten (List.mem_map_of_mem h)

/-- The job of a source cell is part of the source workflow. -/
theorem infix_generateSource {cell : SupportCell} (hcell : cell ∈ m.sourceCells)
    (mode : SourceWorkflowMode) :
    ∃ d, generateSourceWithMode m mode = some d ∧ ∃ id condition,
      (sourceJob m id condition (jobShape cell)
        (laneCells m cell.lane (jobShape cell))).pieces <:+: d := by
  have hlane : cell ∈ laneCells m cell.lane (jobShape cell) :=
    List.mem_filter.mpr ⟨hcell, by simp⟩
  have hsource : cell.lane.isSource := (List.mem_filter.mp hcell).2
  obtain ⟨id, condition, hjob⟩ := exists_mem_sourceJobs mode hsource hlane
  obtain ⟨first, hfirst⟩ : ∃ first, m.sourceCells.head? = some first := by
    cases hcells : m.sourceCells with
    | nil => rw [hcells] at hcell; cases hcell
    | cons first rest => exact ⟨first, rfl⟩
  refine ⟨_, Option.map_eq_some_iff.mpr ⟨first, hfirst, rfl⟩, id, condition, ?_⟩
  refine (infix_flatMap hjob Job.pieces).trans ?_
  exact List.infix_append _ _ _

end OpenStrata.Ci
