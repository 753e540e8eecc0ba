import OpenStrata.Ci.Accepted
import OpenStrata.Ci.Release

/-!
# Jobs over the cells

Every cell of an accepted matrix is rendered in exactly one job of the support or the source
workflow, under the condition of its lane, and a candidate once more in the release workflow.
What a job's own parts refer to is in each of its entries, except in a graph job that has cells
with and without a runtime: its environment exports the runtime of every cell.

## Main definitions

* `Document.Within`: a document refers only to the given keys
* `Job.SelfContained`: a job refers only to keys that each of its entries defines
* `RenderedOnce`: the law of the jobs of a matrix
* `MixedGraphLane`: a lane has graph cells with and without a runtime

## Main results

* `keys_includeEntry`: the keys of an entry
* `perm_workflowJobs`: the jobs share out the cells
* `renderedOnce_iff`: the law holds exactly when no lane mixes its graph cells
-/

namespace OpenStrata.Ci

variable {catalog : Catalog} {m : SupportMatrix} {cell : SupportCell}

/-! ## What documents refer to -/

/-- A document refers only to the given keys. -/
def Document.Within (keys : List MatrixKey) (d : Document) : Prop :=
  ∀ key ∈ d.references, key ∈ keys

namespace Document.Within

variable {keys keys' : List MatrixKey} {d e : Document}

theorem mono (h : Within keys d) (hkeys : keys ⊆ keys') : Within keys' d :=
  fun key hkey => hkeys (h key hkey)

theorem nil : Within keys [] := fun key hkey => by cases hkey

theorem append (hd : Within keys d) (he : Within keys e) : Within keys (d ++ e) := by
  intro key hkey
  rw [references_append, List.mem_append] at hkey
  exact hkey.elim (hd key) (he key)

theorem append_iff : Within keys (d ++ e) ↔ Within keys d ∧ Within keys e := by
  refine ⟨fun h => ⟨fun key hkey => h key ?_, fun key hkey => h key ?_⟩, fun h => h.1.append h.2⟩
  · rw [references_append]
    exact List.mem_append_left _ hkey
  · rw [references_append]
    exact List.mem_append_right _ hkey

theorem ite {c : Prop} [Decidable c] (hd : Within keys d) (he : Within keys e) :
    Within keys (if c then d else e) := by
  split
  · exact hd
  · exact he

theorem elim {α : Type} {o : Option α} {f : α → Document} (h : ∀ a, Within keys (f a)) :
    Within keys (o.elim [] f) := by
  cases o with
  | none => exact nil
  | some a => exact h a

theorem flatMap {α : Type} {l : List α} {f : α → Document} (h : ∀ a, Within keys (f a)) :
    Within keys (l.flatMap f) := by
  intro key hkey
  rw [references_flatMap] at hkey
  obtain ⟨a, -, ha⟩ := List.mem_flatMap.mp hkey
  exact h a key ha

/-- A document whose pieces are in view is checked piece by piece. -/
theorem of_check (h : (d.all fun piece => piece.reference?.all keys.contains) = true) :
    Within keys d := by
  intro key hkey
  obtain ⟨piece, hpiece, href⟩ := List.mem_filterMap.mp hkey
  have := List.all_eq_true.mp h piece hpiece
  rw [href] at this
  simpa using this

theorem lines_map {α : Type} {l : List α} {f : α → List Piece}
    (h : ∀ a, Within keys (f a ++ [.text "\n"])) : Within keys (lines (l.map f)) := by
  rw [lines, List.flatMap_map]
  exact flatMap h

end Document.Within

open Document

/-- Every key of a source entry that describes its runtime. -/
def runtimeKeyNames : List MatrixKey :=
  [.runtimeArtifact, .requireOpenusd, .requireOpenusdVersion, .openusdFlags, .targetTrust,
    .minimumTrust, .requireEvidence, .evidenceFlags]

/-- The keys of every entry. -/
def commonKeyNames : List MatrixKey :=
  [.name, .lane, .platform, .profile, .runsOn, .hosted, .runnerProfile]

/-- The keys of the build prerequisites. -/
def prerequisiteKeyNames : List MatrixKey :=
  [.runtimeRemote, .hostPython, .hostPackagesApt, .hostPackagesBrew]

section Steps

theorem bootstrapStep_within (bootstrap : Bootstrap) (requireExactPin : Bool) :
    Within [.hosted] (bootstrapStep bootstrap requireExactPin) := by
  unfold bootstrapStep
  refine .append (.append (.append (.append (.append ?_ ?_) ?_) ?_) ?_) ?_
  · exact .of_check rfl
  · exact .lines_map fun _ => .of_check rfl
  · exact .of_check rfl
  · exact .ite (.of_check rfl) .nil
  · exact .of_check rfl
  · exact .of_check rfl

theorem ostVersionStep_within (bootstrap : Option Bootstrap) :
    Within [.hosted] (ostVersionStep bootstrap) := by
  unfold ostVersionStep
  refine .append (.append (.append (.append ?_ ?_) ?_) ?_) ?_
  · exact .of_check rfl
  · exact .ite (.of_check rfl) (.of_check rfl)
  · exact .of_check rfl
  · exact .elim fun _ => .of_check rfl
  · exact .of_check rfl

theorem checkoutPreamble_within (m : SupportMatrix) : Within [.hosted] (checkoutPreamble m) := by
  unfold checkoutPreamble
  refine .append (.append (.append (.append ?_ ?_) ?_) ?_) ?_
  · exact .of_check rfl
  · exact .of_check rfl
  · exact .elim fun b => bootstrapStep_within b false
  · exact ostVersionStep_within _
  · exact .of_check rfl

theorem sourceCheckSteps_within {keys : List MatrixKey} (checks : List SourceCheck)
    {condition : Document} (h : Within keys condition) :
    Within keys (sourceCheckSteps checks condition) := by
  refine .flatMap fun check => ?_
  refine .append (.append (.append (.of_check rfl) (.ite .nil ?_)) (.of_check rfl))
    (.of_check rfl)
  have hline : lines [[Piece.text "        if: "] ++ condition] =
      [.text "        if: "] ++ condition ++ [.text "\n"] := List.append_nil _
  rw [hline]
  exact .append (.append (.of_check rfl) h) (.of_check rfl)

/-- The keys that the fetch of a runtime and the preparation of a build read. -/
def sourceKeyNames : List MatrixKey :=
  [.name, .hosted, .platform, .profile] ++ runtimeKeyNames ++ prerequisiteKeyNames

theorem runtimeFetchSteps_within (bootstrap : Option Bootstrap) :
    Within sourceKeyNames (runtimeFetchSteps bootstrap) :=
  .append (.elim fun _ => .of_check rfl) (.of_check rfl)

theorem prebuildSteps_within (m : SupportMatrix) : Within sourceKeyNames (prebuildSteps m) :=
  .append (.append (.ite (.of_check rfl) .nil) (.ite (.of_check rfl) .nil)) (.of_check rfl)

theorem policyFlag_within (m : SupportMatrix) : Within [] (policyFlag m) :=
  .elim fun _ => .of_check rfl

/-- Lines are read one by one. -/
theorem Document.Within.lines_cons {keys : List MatrixKey} {line : List Piece}
    {rest : List (List Piece)} (hline : Within keys line) (hrest : Within keys (lines rest)) :
    Within keys (lines (line :: rest)) :=
  .append (.append hline (.of_check rfl)) hrest

theorem sourcePreamble_within (m : SupportMatrix) : Within sourceKeyNames (sourcePreamble m) := by
  unfold sourcePreamble
  refine .append (.append (.append (.append ?_ (runtimeFetchSteps_within _)) ?_) ?_)
    (prebuildSteps_within m)
  · exact (checkoutPreamble_within m).mono (by decide)
  · -- the policy flag stands at the end of one line
    repeat' refine .lines_cons (.of_check rfl) ?_
    refine .lines_cons (.append (.of_check rfl) ((policyFlag_within m).mono (by decide))) ?_
    exact .of_check rfl
  · exact .elim fun _ => .of_check rfl

/-- The keys that the job of a shape may refer to, the runtime's exports apart. -/
def JobShape.keyNames : JobShape → List MatrixKey
  | .bundle => commonKeyNames ++ [.upTo, .bundle] ++ runtimeKeyNames ++ prerequisiteKeyNames
  | .workspace =>
    commonKeyNames ++ [.verify, .intentFlags, .upTo] ++ runtimeKeyNames ++ prerequisiteKeyNames
  | .workspaceRuntimeFree =>
    commonKeyNames ++ [.verify, .intentFlags, .hostPackagesApt, .hostPackagesBrew]
  | .workspaceGraph => commonKeyNames ++ [.verify]

theorem steps_within (m : SupportMatrix) (shape : JobShape) :
    Within shape.keyNames (shape.steps m) := by
  cases shape with
  | bundle =>
    refine .append (.append (.append ((sourcePreamble_within m).mono (by decide)) ?_) ?_) ?_
    · exact .of_check rfl
    · exact sourceCheckSteps_within _ .nil
    · exact .of_check rfl
  | workspace =>
    refine .append (.append (.append ((sourcePreamble_within m).mono (by decide)) ?_) ?_) ?_
    · exact .of_check rfl
    · exact sourceCheckSteps_within _ (.of_check rfl)
    · exact .of_check rfl
  | workspaceRuntimeFree =>
    refine .append (.append ((checkoutPreamble_within m).mono (by decide)) ?_) (.of_check rfl)
    exact .ite (.of_check rfl) .nil
  | workspaceGraph =>
    exact .append ((checkoutPreamble_within m).mono (by decide)) (.of_check rfl)

theorem releaseCandidateSteps_within (m : SupportMatrix) (release : ReleaseLane)
    (policy : String) :
    Within JobShape.bundle.keyNames (releaseCandidateSteps m release policy) := by
  have hhosted : [MatrixKey.hosted] ⊆ JobShape.bundle.keyNames := by decide
  have hsource : sourceKeyNames ⊆ JobShape.bundle.keyNames := by decide
  simp only [releaseCandidateSteps, Within.append_iff, and_assoc]
  refine ⟨.of_check rfl, .of_check rfl, .elim fun b => (bootstrapStep_within b true).mono hhosted,
    (ostVersionStep_within _).mono hhosted, .of_check rfl,
    (runtimeFetchSteps_within _).mono hsource, .of_check rfl, (prebuildSteps_within m).mono hsource,
    .of_check rfl, sourceCheckSteps_within _ .nil, sourceCheckSteps_within _ .nil, .of_check rfl,
    .ite (.of_check rfl) .nil, .ite (.of_check rfl) .nil, .ite (.of_check rfl) .nil,
    .of_check rfl, .of_check rfl⟩

/-- The keys that a support job refers to. -/
def supportKeyNames : List MatrixKey :=
  commonKeyNames ++ [.upTo, .pluginArtifact] ++ runtimeKeyNames

theorem supportSteps_within (m : SupportMatrix) : Within supportKeyNames (supportSteps m) := by
  have hpolicy : Within supportKeyNames (policyFlag m) := (policyFlag_within m).mono (by decide)
  simp only [supportSteps, Within.append_iff, and_assoc]
  refine ⟨.of_check rfl, .of_check rfl, .elim fun _ => .of_check rfl, ?_⟩
  -- both verifications end in the policy flag
  repeat' refine .lines_cons (.of_check rfl) ?_
  refine .lines_cons (.append (.of_check rfl) hpolicy) ?_
  refine .lines_cons (.append (.of_check rfl) hpolicy) ?_
  exact .of_check rfl

end Steps

/-! ## Entries and jobs -/

/-- A job refers only to keys that each of its entries defines. -/
def Job.SelfContained (job : Job) : Prop :=
  ∀ key ∈ job.references, ∀ cell ∈ job.cells, key ∈ (job.entry cell).keys

theorem keys_includeEntry (m : SupportMatrix) (cell : SupportCell) (extra : Entry) :
    (includeEntry m cell extra).keys =
      [.name, .lane] ++ (if cell.isRuntimeFree then [] else runtimeKeyNames) ++
        [.platform, .profile] ++ (if cell.isWorkspace then [] else [.upTo]) ++
        [.runsOn, .hosted, .runnerProfile] ++ extra.keys := by
  unfold includeEntry runtimeKeys SupportCell.isRuntimeFree
  cases cell.runtimeArtifact <;> cases cell.isWorkspace <;> rfl

/-- What the shape of a cell says about it. -/
theorem jobShape_cases (cell : SupportCell) :
    match jobShape cell with
    | .bundle => cell.isWorkspace = false
    | .workspace => cell.isWorkspace = true ∧ cell.isRuntimeFree = false
    | .workspaceRuntimeFree => cell.isWorkspace = true ∧ cell.isRuntimeFree = true
    | .workspaceGraph => cell.isWorkspace = true := by
  unfold jobShape
  cases cell.isWorkspace <;> cases cell.isRuntimeFree <;> cases cell.verifyRung <;> simp

/-- The keys that a shape adds to an entry. -/
def JobShape.extraNames : JobShape → List MatrixKey
  | .bundle => .bundle :: prerequisiteKeyNames
  | .workspace => [.verify, .intentFlags, .upTo] ++ prerequisiteKeyNames
  | .workspaceRuntimeFree => [.verify, .intentFlags, .hostPackagesApt, .hostPackagesBrew]
  | .workspaceGraph => [.verify]

theorem keys_includeKeys (shape : JobShape) (cell : SupportCell) :
    (shape.includeKeys cell).keys = shape.extraNames := by
  cases shape <;> rfl

/-- A cell's entry defines every key of the job of its shape. -/
theorem keyNames_subset (m : SupportMatrix) (hfree : cell.isRuntimeFree → cell.isWorkspace) :
    (jobShape cell).keyNames ⊆
      (includeEntry m cell ((jobShape cell).includeKeys cell)).keys := by
  have hshape := jobShape_cases cell
  rw [keys_includeEntry, keys_includeKeys]
  revert hshape
  cases jobShape cell with
  | bundle =>
    intro (hbundle : cell.isWorkspace = false)
    have hbacked : cell.isRuntimeFree = false := by
      by_contra h
      rw [hfree (by simpa using h)] at hbundle
      cases hbundle
    rw [hbundle, hbacked]
    decide
  | workspace =>
    rintro ⟨hworkspace, hbacked⟩
    rw [hworkspace, hbacked]
    decide
  | workspaceRuntimeFree =>
    rintro ⟨hworkspace, hnone⟩
    rw [hworkspace, hnone]
    decide
  | workspaceGraph =>
    intro (hworkspace : cell.isWorkspace = true)
    rw [hworkspace]
    cases cell.isRuntimeFree <;> decide

/-- The entry of a runtime-backed cell defines the runtime's keys, whatever its job. -/
theorem runtimeKeyNames_subset (m : SupportMatrix) (extra : Entry)
    (hbacked : cell.isRuntimeFree = false) :
    runtimeKeyNames ⊆ (includeEntry m cell extra).keys := by
  intro key hkey
  rw [keys_includeEntry, hbacked]
  simp [hkey]

theorem ciEnv_within (withPlugin withRuntime : Bool) :
    Within (commonKeyNames ++ (if withRuntime then runtimeKeyNames else []) ++
      if withPlugin then [.pluginArtifact] else []) (ciEnv withPlugin withRuntime) := by
  cases withPlugin <;> cases withRuntime <;> exact .of_check rfl

theorem ostHome_within (m : SupportMatrix) (directory : String) :
    Within [.hosted] (ostHome m directory) :=
  .ite (.of_check rfl) .nil

/-- What a job refers to is in its environment, its title, its strategy and its steps. -/
theorem Job.references_within {job : Job} {keys : List MatrixKey} (hcommon : .runsOn ∈ keys)
    (htitle : Within keys job.title) (henv : Within keys job.env)
    (hstrategy : Within keys job.strategy) (hsteps : Within keys job.steps) :
    ∀ key ∈ job.references, key ∈ keys := by
  have hgate : Within keys job.gate.pieces := by
    cases job.gate <;> exact .of_check rfl
  have hhead : Within keys
      (lines [[.text "    name: "] ++ job.title, ["    runs-on: ", .ref .runsOn]]) := by
    refine .lines_cons (.append (.of_check rfl) htitle) (.of_check ?_)
    simpa [lines, Piece.reference?] using hcommon
  have hheader : Within keys job.header :=
    .append (.append (.append (.append (.of_check rfl) hgate) hhead) henv) hstrategy
  intro key hkey
  rcases List.mem_append.mp hkey with h | h
  · exact hheader key h
  · exact hsteps key h

/-! ## The law of the jobs -/

/-- The jobs of the support and the source workflow. -/
def workflowJobs (m : SupportMatrix) (mode : SourceWorkflowMode) : List Job :=
  supportJobs m ++ sourceJobs m mode

/-- The job of the release workflow that is a matrix over cells. -/
def releaseJobs (m : SupportMatrix) : List Job :=
  match m.release, m.trust.policy with
  | some release, some policy => [candidateJob m release policy]
  | _, _ => []

/-- The event condition that a lane stands for. -/
def laneGate (mode : SourceWorkflowMode) (lane : Lane) : JobGate :=
  match lane, mode with
  | .scheduled, _ => .onlyIf "github.event_name == 'schedule'"
  | .workflowDispatch, _ => .onlyIf "github.event_name == 'workflow_dispatch'"
  | .pullRequest, .direct => .onlyIf "github.event_name == 'pull_request'"
  | .main, .direct => .onlyIf "github.event_name == 'push'"
  | .pullRequest, .reusable => .onlyIf
      "github.event_name == 'pull_request' || github.event_name == 'workflow_dispatch'"
  | .main, .reusable => .onlyIf ("(github.event_name == 'push' && " ++
      "github.ref == 'refs/heads/main') || github.event_name == 'workflow_dispatch'")

/-- The law of the jobs: every cell is rendered in one job, under the condition of its lane; the
candidates of the main lane once more; and every job is self-contained. -/
structure RenderedOnce (m : SupportMatrix) (mode : SourceWorkflowMode) : Prop where
  once : ∀ cell ∈ m.cells, ((workflowJobs m mode).flatMap Job.cells).count cell = 1
  gate : ∀ job ∈ workflowJobs m mode, ∀ cell ∈ job.cells,
    cell ∈ m.cells ∧ job.gate = laneGate mode cell.lane
  candidates : ∀ cell ∈ m.cells, ((releaseJobs m).flatMap Job.cells).count cell =
    if cell.publish = .candidate ∧ cell.lane = .main then 1 else 0
  selfContained : ∀ job ∈ workflowJobs m mode ++ releaseJobs m, job.SelfContained

/-- A lane has graph cells with and without a runtime. -/
def MixedGraphLane (m : SupportMatrix) : Prop :=
  ∃ a ∈ m.cells, ∃ b ∈ m.cells, a.lane = b.lane ∧ jobShape a = .workspaceGraph ∧
    jobShape b = .workspaceGraph ∧ a.isRuntimeFree = true ∧ b.isRuntimeFree = false

/-! ### Each cell in one job -/

/-- A list is the sum of its parts by predicates of which each element meets exactly one. -/
theorem perm_flatMap_filter {α : Type} [DecidableEq α] {ps : List (α → Bool)} {l : List α}
    (h : ∀ a ∈ l, ps.countP (fun p => p a) = 1) : (ps.flatMap fun p => l.filter p).Perm l := by
  have hcount : ∀ a : α, (ps.flatMap fun p => l.filter p).count a =
      ps.countP (fun p => p a) * l.count a := by
    intro a
    clear h
    induction ps with
    | nil => simp
    | cons p ps ih =>
      rw [List.flatMap_cons, List.count_append, ih, List.countP_cons]
      by_cases hp : p a
      · rw [List.count_filter hp, if_pos hp, Nat.add_mul, Nat.one_mul, Nat.add_comm]
      · have hnone : (l.filter p).count a = 0 :=
          List.count_eq_zero.mpr fun hmem => hp (List.mem_filter.mp hmem).2
        rw [hnone, if_neg hp, Nat.zero_add, Nat.add_zero]
  rw [List.perm_iff_count]
  intro a
  rw [hcount]
  by_cases ha : a ∈ l
  · rw [h a ha, Nat.one_mul]
  · rw [List.count_eq_zero.mpr ha, Nat.mul_zero]

/-- Leaving out the jobs without cells leaves out no cell. -/
theorem flatMap_filterMap_isEmpty {α β γ : Type} (l : List α) (f : α → List γ) (g : α → β)
    {h : β → List γ} (hg : ∀ a, h (g a) = f a) :
    (l.filterMap fun a => if (f a).isEmpty then none else some (g a)).flatMap h =
      l.flatMap f := by
  induction l with
  | nil => rfl
  | cons a l ih =>
    rw [List.flatMap_cons, ← ih]
    by_cases ha : (f a).isEmpty
    · rw [List.filterMap_cons_none (by rw [if_pos ha]), List.isEmpty_iff.mp ha, List.nil_append]
    · rw [List.filterMap_cons_some (by rw [if_neg ha]), List.flatMap_cons, hg]

/-- Which cells each job of the two workflows takes, in the order of the jobs. -/
def jobSelections : List (SupportCell → Bool) :=
  [Lane.scheduled, .workflowDispatch].map
    (fun lane cell => cell.lane == lane && !cell.lane.isSource) ++
  sourceLanes.flatMap fun lane => sourceShapes.map fun shape cell =>
    (cell.lane == lane.1 && jobShape cell == shape.2) && cell.lane.isSource

theorem countP_jobSelections (cell : SupportCell) :
    jobSelections.countP (fun p => p cell) = 1 := by
  have hmap : jobSelections.countP (fun p => p cell) =
      (jobSelections.map fun p => p cell).countP id := by
    rw [List.countP_map]
    rfl
  rw [hmap]
  simp only [jobSelections, sourceLanes, sourceShapes, List.map, List.flatMap_cons,
    List.flatMap_nil, List.cons_append, List.nil_append]
  generalize cell.lane = lane
  generalize jobShape cell = shape
  cases lane <;> cases shape <;> rfl

theorem cells_supportJobs (m : SupportMatrix) :
    (supportJobs m).flatMap Job.cells =
      [Lane.scheduled, .workflowDispatch].flatMap (supportLane m) := by
  have hlane : ∀ (lane : Lane) (id event : String),
      (if (supportLane m lane).isEmpty then []
        else [supportJob m id event (supportLane m lane)]).flatMap Job.cells =
        supportLane m lane := by
    intro lane id event
    by_cases h : (supportLane m lane).isEmpty
    · rw [if_pos h, List.isEmpty_iff.mp h, List.flatMap_nil]
    · rw [if_neg h]
      exact List.append_nil _
  rw [supportJobs, List.flatMap_append, hlane, hlane]
  simp

theorem cells_sourceJobs (m : SupportMatrix) (mode : SourceWorkflowMode) :
    (sourceJobs m mode).flatMap Job.cells =
      sourceLanes.flatMap fun lane => sourceShapes.flatMap fun shape =>
        laneCells m lane.1 shape.2 := by
  rw [sourceJobs, List.flatMap_assoc]
  refine List.flatMap_congr fun lane _ => ?_
  exact flatMap_filterMap_isEmpty sourceShapes (fun shape => laneCells m lane.1 shape.2) _
    fun shape => rfl

theorem cells_workflowJobs (m : SupportMatrix) (mode : SourceWorkflowMode) :
    (workflowJobs m mode).flatMap Job.cells = jobSelections.flatMap fun p => m.cells.filter p := by
  rw [workflowJobs, List.flatMap_append, cells_supportJobs, cells_sourceJobs, jobSelections,
    List.flatMap_append, List.flatMap_map, List.flatMap_assoc]
  congr 1
  · refine List.flatMap_congr fun lane _ => ?_
    exact List.filter_filter
  · refine List.flatMap_congr fun lane _ => ?_
    rw [List.flatMap_map]
    refine List.flatMap_congr fun shape _ => ?_
    exact List.filter_filter

/-- The jobs of the two workflows share out the cells. -/
theorem perm_workflowJobs (m : SupportMatrix) (mode : SourceWorkflowMode) :
    ((workflowJobs m mode).flatMap Job.cells).Perm m.cells := by
  rw [cells_workflowJobs]
  exact perm_flatMap_filter fun cell _ => countP_jobSelections cell

/-- A support job takes the cells of its lane, under the event of the lane. -/
theorem mem_supportJobs {job : Job} (h : job ∈ supportJobs m) :
    ∃ lane id event, job = supportJob m id event (supportLane m lane) ∧
      ∀ mode, job.gate = laneGate mode lane := by
  rcases List.mem_append.mp h with h | h
  · split at h
    · cases h
    · obtain rfl := List.mem_singleton.mp h
      exact ⟨.scheduled, "scheduled", "schedule", rfl, fun mode => by cases mode <;> rfl⟩
  · split at h
    · cases h
    · obtain rfl := List.mem_singleton.mp h
      exact ⟨.workflowDispatch, "dispatch", "workflow_dispatch", rfl,
        fun mode => by cases mode <;> rfl⟩

theorem gate_sourceLanes (mode : SourceWorkflowMode) : ∀ lane ∈ sourceLanes,
    JobGate.onlyIf (sourceCondition mode lane.1 lane.2.2) = laneGate mode lane.1 := by
  cases mode <;> decide

/-- A source job takes the cells of its lane and shape, under the condition of the lane. -/
theorem mem_sourceJobs {mode : SourceWorkflowMode} {job : Job} (h : job ∈ sourceJobs m mode) :
    ∃ lane id condition shape, job = sourceJob m id condition shape (laneCells m lane shape) ∧
      job.gate = laneGate mode lane := by
  obtain ⟨lane, hlane, hjob⟩ := List.mem_flatMap.mp h
  obtain ⟨shape, -, hshape⟩ := List.mem_filterMap.mp hjob
  dsimp only at hshape
  split at hshape
  · cases hshape
  · obtain rfl := Option.some.inj hshape
    refine ⟨lane.1, _, _, shape.2, rfl, ?_⟩
    exact gate_sourceLanes mode lane hlane

/-- A lane and a shape with a cell have a job. -/
theorem exists_mem_sourceJobs (mode : SourceWorkflowMode) {lane : Lane} {shape : JobShape}
    (hsource : lane.isSource) (hcell : cell ∈ laneCells m lane shape) :
    ∃ id condition, sourceJob m id condition shape (laneCells m lane shape) ∈
      sourceJobs m mode := by
  obtain ⟨pfx, event, hlane⟩ : ∃ pfx event, (lane, pfx, event) ∈ sourceLanes := by
    cases lane with
    | pullRequest => exact ⟨"pr", "pull_request", by decide⟩
    | main => exact ⟨"mainline", "push", by decide⟩
    | scheduled => cases hsource
    | workflowDispatch => cases hsource
  obtain ⟨suffix, hshape⟩ : ∃ suffix, (suffix, shape) ∈ sourceShapes := by
    cases shape with
    | bundle => exact ⟨"", by decide⟩
    | workspace => exact ⟨"-workspace", by decide⟩
    | workspaceRuntimeFree => exact ⟨"-workspace-runtime-free", by decide⟩
    | workspaceGraph => exact ⟨"-workspace-graph", by decide⟩
  refine ⟨pfx ++ suffix, sourceCondition mode lane event,
    List.mem_flatMap.mpr ⟨_, hlane, List.mem_filterMap.mpr ⟨_, hshape, ?_⟩⟩⟩
  have hne : (laneCells m lane shape).isEmpty = false := by
    cases hcells : laneCells m lane shape with
    | nil => rw [hcells] at hcell; cases hcell
    | cons => rfl
  simp only [hne]
  rfl

theorem exists_sourceJob (mode : SourceWorkflowMode) {lane : Lane} {shape : JobShape}
    (hsource : lane.isSource) (hcell : cell ∈ laneCells m lane shape) :
    ∃ id condition, sourceJob m id condition shape (laneCells m lane shape) ∈
      workflowJobs m mode := by
  obtain ⟨id, condition, hjob⟩ := exists_mem_sourceJobs mode hsource hcell
  exact ⟨id, condition, List.mem_append_right _ hjob⟩

theorem mem_laneCells {lane : Lane} {shape : JobShape} :
    cell ∈ laneCells m lane shape ↔
      cell ∈ m.cells ∧ cell.lane.isSource ∧ cell.lane = lane ∧ jobShape cell = shape := by
  rw [laneCells, SupportMatrix.sourceCells, List.mem_filter, List.mem_filter]
  simp [and_assoc]

theorem mem_supportLane {lane : Lane} :
    cell ∈ supportLane m lane ↔
      cell ∈ m.cells ∧ cell.lane.isSource = false ∧ cell.lane = lane := by
  rw [supportLane, SupportMatrix.supportCells, List.mem_filter, List.mem_filter]
  simp [and_assoc]

/-! ### Self-contained jobs -/

/-- A cell of an accepted matrix without a runtime is a workspace cell. -/
theorem isWorkspace_of_runtimeFree (haccepted : Accepted catalog m) (hcell : cell ∈ m.cells) :
    cell.isRuntimeFree → cell.isWorkspace :=
  (haccepted.cells cell hcell).isWorkspace_of_runtimeFree

theorem supportJob_selfContained (haccepted : Accepted catalog m) (id event : String)
    (lane : Lane) : (supportJob m id event (supportLane m lane)).SelfContained := by
  have hrefs : ∀ key ∈ (supportJob m id event (supportLane m lane)).references,
      key ∈ supportKeyNames :=
    Job.references_within (by decide) (.of_check rfl) ((ciEnv_within true true).mono (by decide))
      (.of_check rfl) (supportSteps_within m)
  intro key hkey cell hcell
  obtain ⟨hmem, hsupport, -⟩ := mem_supportLane.mp hcell
  have hworkspace : cell.isWorkspace = false := by
    by_contra h
    have := ((haccepted.cells cell hmem).workspace (by simpa using h)).1
    rw [hsupport] at this
    cases this
  have hbacked : cell.isRuntimeFree = false := by
    by_contra h
    have := isWorkspace_of_runtimeFree haccepted hmem (by simpa using h)
    rw [hworkspace] at this
    cases this
  have hdefined : supportKeyNames ⊆
      ((supportJob m id event (supportLane m lane)).entry cell).keys := by
    show _ ⊆ (includeEntry m cell [⟨.pluginArtifact, .plain (cell.pluginArtifact.getD "")⟩]).keys
    rw [keys_includeEntry, hworkspace, hbacked]
    show supportKeyNames ⊆ [.name, .lane] ++ runtimeKeyNames ++ [.platform, .profile] ++ [.upTo] ++
      [.runsOn, .hosted, .runnerProfile] ++ [.pluginArtifact]
    decide
  exact hdefined (hrefs key hkey)

/-- What a source job refers to: the keys of its shape, and the runtime's when one of its cells
has a runtime. -/
theorem references_sourceJob {id condition : String} {shape : JobShape} {cells : List SupportCell}
    {key : MatrixKey} (hkey : key ∈ (sourceJob m id condition shape cells).references) :
    key ∈ shape.keyNames ∨ (∃ cell ∈ cells, cell.isRuntimeFree = false) ∧ key ∈ runtimeKeyNames := by
  have hcommon : ∀ names, commonKeyNames ⊆ shape.keyNames ++ names :=
    fun names key hkey => List.mem_append_left _ (by revert key; cases shape <;> decide)
  let exported := if cells.any fun cell => !cell.isRuntimeFree then runtimeKeyNames else []
  have hin : key ∈ shape.keyNames ++ exported := by
    refine Job.references_within ?_ ?_ (.append ?_ ?_) ?_ ?_ key hkey
    · exact hcommon _ (by decide)
    · have htitle : Within commonKeyNames [.ref .name] := .of_check rfl
      exact htitle.mono (hcommon _)
    · refine (ciEnv_within false _).mono fun key hkey => ?_
      simp only [Bool.false_eq_true, if_false, List.append_nil] at hkey
      rcases List.mem_append.mp hkey with h | h
      · exact hcommon _ h
      · exact List.mem_append_right _ h
    · exact (ostHome_within m _).mono fun key hkey => hcommon _ (by revert key; decide)
    · exact .of_check rfl
    · exact (steps_within m shape).mono (List.subset_append_left _ _)
  rcases List.mem_append.mp hin with h | h
  · exact .inl h
  · right
    by_cases hany : cells.any fun cell => !cell.isRuntimeFree
    · obtain ⟨cell, hcell, hbacked⟩ := List.any_eq_true.mp hany
      exact ⟨⟨cell, hcell, by simpa using hbacked⟩, by simpa [exported, hany] using h⟩
    · simp [exported, hany] at h

/-- A source job is self-contained unless it is a graph job that mixes its cells. -/
theorem sourceJob_selfContained (haccepted : Accepted catalog m) (hmixed : ¬ MixedGraphLane m)
    (id condition : String) (lane : Lane) (shape : JobShape) :
    (sourceJob m id condition shape (laneCells m lane shape)).SelfContained := by
  intro key hkey cell hcell
  obtain ⟨hmem, hsource, hlane, hshape⟩ := mem_laneCells.mp hcell
  show key ∈ (includeEntry m cell (shape.includeKeys cell)).keys
  rcases references_sourceJob hkey with hnames | ⟨⟨other, hother, hbacked⟩, hruntime⟩
  · rw [← hshape] at hnames ⊢
    exact keyNames_subset m (isWorkspace_of_runtimeFree haccepted hmem) hnames
  · -- another cell of the job has a runtime, so this one has to have one too
    obtain ⟨homem, -, holane, hoshape⟩ := mem_laneCells.mp hother
    refine runtimeKeyNames_subset m _ ?_ hruntime
    by_contra hfree
    have hnone : cell.isRuntimeFree = true := by simpa using hfree
    have hcell := jobShape_cases cell
    have hoth := jobShape_cases other
    rw [hshape] at hcell
    rw [hoshape] at hoth
    cases shape with
    | bundle =>
      rw [isWorkspace_of_runtimeFree haccepted hmem hnone] at hcell
      cases hcell
    | workspace =>
      rw [hcell.2] at hnone
      cases hnone
    | workspaceRuntimeFree =>
      rw [hoth.2] at hbacked
      cases hbacked
    | workspaceGraph =>
      exact hmixed ⟨cell, hmem, other, homem, hlane.trans holane.symm, hshape, hoshape, hnone,
        hbacked⟩

theorem candidateJob_selfContained (haccepted : Accepted catalog m) (release : ReleaseLane)
    (policy : String) : (candidateJob m release policy).SelfContained := by
  have hrefs : ∀ key ∈ (candidateJob m release policy).references,
      key ∈ JobShape.bundle.keyNames :=
    Job.references_within (by decide) (.of_check rfl)
      (.append ((ciEnv_within false true).mono (by decide))
        ((ostHome_within m _).mono (by decide)))
      (.of_check rfl) (releaseCandidateSteps_within m release policy)
  intro key hkey cell hcell
  obtain ⟨hmem, hcandidate⟩ := List.mem_filter.mp hcell
  have hbundle : cell.isWorkspace = false :=
    ((haccepted.cells cell hmem).candidate (by simpa using hcandidate)).2
  have hshape : jobShape cell = .bundle := by
    unfold jobShape
    rw [hbundle]
  show key ∈ (includeEntry m cell (JobShape.bundle.includeKeys cell)).keys
  have hnames : key ∈ (jobShape cell).keyNames := by
    rw [hshape]
    exact hrefs key hkey
  rw [← hshape]
  exact keyNames_subset m (isWorkspace_of_runtimeFree haccepted hmem) hnames

/-- The cells of the release job are the candidates. -/
theorem count_releaseJobs (haccepted : Accepted catalog m) (hcell : cell ∈ m.cells) :
    ((releaseJobs m).flatMap Job.cells).count cell =
      if cell.publish = .candidate ∧ cell.lane = .main then 1 else 0 := by
  have hcells : (releaseJobs m).flatMap Job.cells = m.candidateCells := by
    have hcandidates := haccepted.candidates
    simp only [SupportMatrix.validateCandidates, Result.bind_ok, Result.failIf_ok] at hcandidates
    obtain ⟨⟨⟩, hnone, -⟩ := hcandidates
    unfold releaseJobs
    cases hrelease : m.release with
    | none =>
      rw [hrelease] at hnone
      have hempty : m.candidateCells = [] := by simpa using hnone
      rw [hempty]
      rfl
    | some release =>
      -- a release block requires a policy
      have hcontract := (haccepted.release release hrelease).2.2
      simp only [SupportMatrix.validateReleaseContract, Result.bind_ok, Result.failIf_ok]
        at hcontract
      obtain ⟨⟨⟩, hpolicy, -⟩ := hcontract
      cases hvalue : m.trust.policy with
      | none => simp [hvalue] at hpolicy
      | some policy => exact List.append_nil _
  rw [hcells, SupportMatrix.candidateCells]
  by_cases hcandidate : cell.publish = .candidate
  · have hlane := ((haccepted.cells cell hcell).candidate hcandidate).1
    rw [List.count_filter (by simpa using hcandidate), if_pos ⟨hcandidate, hlane⟩]
    exact List.count_eq_one_of_mem haccepted.cells_nodup hcell
  · rw [if_neg fun h => hcandidate h.1]
    refine List.count_eq_zero.mpr fun hmem => hcandidate ?_
    simpa using (List.mem_filter.mp hmem).2

/-- The jobs of an accepted matrix follow the law exactly when no lane has graph cells with and
without a runtime. -/
theorem renderedOnce_iff (h : m.validate catalog = .ok ()) (mode : SourceWorkflowMode) :
    RenderedOnce m mode ↔ ¬ MixedGraphLane m := by
  have haccepted := SupportMatrix.accepted_of_validate h
  constructor
  · rintro hlaw ⟨a, ha, b, hb, hlane, hashape, hbshape, hfree, hbacked⟩
    have haworkspace := isWorkspace_of_runtimeFree haccepted ha hfree
    have hsource := ((haccepted.cells a ha).workspace haworkspace).1
    have hain : a ∈ laneCells m a.lane .workspaceGraph :=
      mem_laneCells.mpr ⟨ha, hsource, rfl, hashape⟩
    have hbin : b ∈ laneCells m a.lane .workspaceGraph :=
      mem_laneCells.mpr ⟨hb, hlane ▸ hsource, hlane.symm, hbshape⟩
    obtain ⟨id, condition, hjob⟩ := exists_sourceJob mode hsource hain
    have hany : ((laneCells m a.lane .workspaceGraph).any fun cell => !cell.isRuntimeFree) =
        true := List.any_eq_true.mpr ⟨b, hbin, by simpa using hbacked⟩
    -- the environment of the job exports the runtime of every cell
    have hexport : .runtimeArtifact ∈
        (sourceJob m id condition .workspaceGraph (laneCells m a.lane .workspaceGraph)).references
        := by
      refine List.mem_append_left _ ?_
      simp only [Job.header, sourceJob, hany, references_append]
      exact List.mem_append_left _ (List.mem_append_right _ (List.mem_append_left _ (by decide)))
    have hkey := hlaw.selfContained _ (List.mem_append_left _ hjob) _ hexport a hain
    have hkeys : (includeEntry m a (JobShape.workspaceGraph.includeKeys a)).keys =
        [.name, .lane, .platform, .profile, .runsOn, .hosted, .runnerProfile, .verify] := by
      rw [keys_includeEntry, hfree, haworkspace]
      rfl
    have hin : MatrixKey.runtimeArtifact ∈
        (includeEntry m a (JobShape.workspaceGraph.includeKeys a)).keys := hkey
    rw [hkeys] at hin
    exact absurd hin (by decide)
  · intro hmixed
    refine ⟨fun cell hcell => ?_, fun job hjob cell hcell => ?_,
      fun cell hcell => count_releaseJobs haccepted hcell, fun job hjob => ?_⟩
    · rw [(perm_workflowJobs m mode).count_eq]
      exact List.count_eq_one_of_mem haccepted.cells_nodup hcell
    · rcases List.mem_append.mp hjob with hjob | hjob
      · obtain ⟨lane, id, event, rfl, hgate⟩ := mem_supportJobs hjob
        obtain ⟨hmem, -, hlane⟩ := mem_supportLane.mp hcell
        exact ⟨hmem, by rw [hlane]; exact hgate mode⟩
      · obtain ⟨lane, id, condition, shape, rfl, hgate⟩ := mem_sourceJobs hjob
        obtain ⟨hmem, -, hlane, -⟩ := mem_laneCells.mp hcell
        exact ⟨hmem, by rw [hlane]; exact hgate⟩
    · rcases List.mem_append.mp hjob with hjob | hjob
      · rcases List.mem_append.mp hjob with hjob | hjob
        · obtain ⟨lane, id, event, rfl, -⟩ := mem_supportJobs hjob
          exact supportJob_selfContained haccepted id event lane
        · obtain ⟨lane, id, condition, shape, rfl, -⟩ := mem_sourceJobs hjob
          exact sourceJob_selfContained haccepted hmixed id condition lane shape
      · unfold releaseJobs at hjob
        split at hjob
        · obtain rfl := List.mem_singleton.mp hjob
          exact candidateJob_selfContained haccepted _ _
        · cases hjob

/-! ### A mixed graph lane -/

/-- A graph cell of the pull-request lane on self-hosted runners. -/
def graphCell (name : String) (runtime : Option String) : SupportCell where
  name := name
  lane := .pullRequest
  runner := none
  support := none
  runtimeArtifact := runtime
  requireOpenusd := none
  requireOpenusdVersion := none
  runtimeRemote := none
  pluginArtifact := none
  kind := .workspace
  bundle := none
  verify := some .graph
  intent := none
  platform := "cy2026"
  profile := "usd"
  upTo := none
  hostPython := none
  hostPackages := none
  publish := .never
  trust := .localOnly
  requireEvidence := none
  host := ⟨.linux, ["self-hosted"]⟩

/-- A matrix of the given cells with nothing else declared. -/
def bareMatrix (cells : List SupportCell) : SupportMatrix where
  schema := MATRIX_SCHEMA
  trust := ⟨none, .localOnly, .localOnly, .localOnly⟩
  requireEvidence := .all
  bootstrap := none
  runners := []
  sourceChecks := []
  release := none
  externalWorkflows := []
  cells := cells

/-- A digest of zeros. -/
def zeroDigest : String :=
  "sha256:0000000000000000000000000000000000000000000000000000000000000000"

/-- Two graph cells of one lane, one with a runtime and one without. -/
def mixedGraph : SupportMatrix :=
  bareMatrix [graphCell "free" none, graphCell "backed" (some zeroDigest)]

theorem validate_mixedGraph : mixedGraph.validate (.ok []) = .ok () := by decide

/-- The law fails for an accepted matrix: the job of the two graph cells exports the runtime of
each, and the entry of the first defines none. -/
theorem renderedOnce_fails : ¬ ∀ (catalog : Catalog) (m : SupportMatrix)
    (mode : SourceWorkflowMode), m.validate catalog = .ok () → RenderedOnce m mode := by
  intro hall
  have hlaw := hall (.ok []) mixedGraph .direct validate_mixedGraph
  have hcell : graphCell "free" none ∈ laneCells mixedGraph .pullRequest .workspaceGraph := by
    decide
  obtain ⟨id, condition, hjob⟩ := exists_sourceJob .direct (by rfl) hcell
  have hexport : .runtimeArtifact ∈ (sourceJob mixedGraph id condition .workspaceGraph
      (laneCells mixedGraph .pullRequest .workspaceGraph)).references := by
    refine List.mem_append_left _ ?_
    simp only [Job.header, sourceJob, references_append]
    exact List.mem_append_left _ (List.mem_append_right _ (List.mem_append_left _ (by decide)))
  have hkey : MatrixKey.runtimeArtifact ∈ (includeEntry mixedGraph (graphCell "free" none)
      (workspaceGraphIncludeKeys (graphCell "free" none))).keys :=
    hlaw.selfContained _ (List.mem_append_left _ hjob) _ hexport _ hcell
  exact absurd hkey (by decide)

/-- The matrix of the first cell alone. -/
def plainGraph : SupportMatrix := bareMatrix [graphCell "free" none]

theorem renderedOnce_plainGraph : RenderedOnce plainGraph .reusable := by
  refine (renderedOnce_iff (by decide : plainGraph.validate (.ok []) = .ok ()) .reusable).mpr ?_
  rintro ⟨a, -, b, hb, -, -, -, -, hbacked⟩
  obtain rfl := List.mem_singleton.mp hb
  cases hbacked

end OpenStrata.Ci
