import OpenStrata.Build.Tested
import OpenStrata.Lib.TreeMap

/-!
# Attributed outputs

A root build lists in its completion the outputs of the workspace that it accounts for: those
that it found changed since it started, and those that the previous record of the same build
already listed. What counts as changed is decided by a scan of the workspace before the build and
one after it. A member that cannot be read is left out of a scan with a warning, and the warnings
of the first scan are dropped.

Between the start and the end of a build, and between builds, the workspace may change in any way:
by the build itself, by builds of single members, by packaging, by hand.

## Main definitions

* `Scanner`, `workspaceManagedOutputs`: the scan of a workspace
* `selectRootManagedOutputs`, `writeCompletion`: which outputs a build lists
* `RootBuild.Event`, `State.apply`: starts and ends of builds, and edits
* `Origin`: the build that found an output new, since when it was listed
* `Covered`: the scan before each build sees what the scan after it lists

## Main results

* `outputs_origin`: every listed output has an origin when the scans are covered
-/

namespace OpenStrata

/-! ## The scan -/

/-- The files of a workspace, by the path that an output has which they are. -/
abbrev WorkspaceTree := String → Option Bytes

/-- What the members of a workspace and their manifests say, from the files that are there. -/
structure Scanner where
  /-- `discover_workspace_tools`. -/
  tools : WorkspaceTree → Result (List String)
  /-- The executables of a tool, or the warning why there are none. -/
  executables : WorkspaceTree → String → Except String (List String)
  /-- `discover_workspace_members`, the bundles of it. -/
  bundles : WorkspaceTree → Result (List String)
  /-- The managed files of a bundle, or the warning why they cannot be read. -/
  managed : WorkspaceTree → String → Except String (List String)

/-- The output that the file of a path is. -/
def describeOutput (codec : Codec) (tree : WorkspaceTree) (path : String) : Option BuildOutput :=
  (tree path).map fun content => { path, sha256 := sha256Hex codec content, size := content.length }

/-- The outputs of some members; one that cannot be read is left out with a warning. -/
def memberOutputs (codec : Codec) (tree : WorkspaceTree)
    (paths : String → Except String (List String)) :
    List String → List BuildOutput × List String
  | [] => ([], [])
  | member :: more =>
    let rest := memberOutputs codec tree paths more
    match paths member with
    | .ok found => (found.filterMap (describeOutput codec tree) ++ rest.1, rest.2)
    | .error warning => (rest.1, warning :: rest.2)

section Scan

variable (codec : Codec) (scanner : Scanner) (root : String) (tree : WorkspaceTree)

def workspaceToolOutputs : List BuildOutput × List String :=
  match scanner.tools tree with
  | .error error => ([], ["warning: could not scan for workspace tools under " ++ root ++ ": " ++
      error.message])
  | .ok tools => memberOutputs codec tree (scanner.executables tree) tools

def workspaceBundleOutputs : List BuildOutput × List String :=
  match scanner.bundles tree with
  | .error error => ([], ["warning: could not scan for workspace bundles under " ++ root ++ ": " ++
      error.message])
  | .ok bundles => memberOutputs codec tree (scanner.managed tree) bundles

/-- Collect outputs under their paths, in path order. -/
def outputsByPath (outputs : List BuildOutput) : Std.ExtTreeMap String BuildOutput :=
  outputs.foldl (fun map output => map.insert output.path output) ∅

/-- `workspace_managed_outputs`. -/
def workspaceManagedOutputs : List BuildOutput × List String :=
  let tools := workspaceToolOutputs codec scanner root tree
  let bundles := workspaceBundleOutputs codec scanner root tree
  (TreeMap.values (outputsByPath (tools.1 ++ bundles.1)), tools.2 ++ bundles.2)

end Scan

/-! ## Which outputs a build lists -/

/-- The output listed for a path. -/
def outputAt (outputs : List BuildOutput) (path : String) : Option BuildOutput :=
  (outputsByPath outputs)[path]?

/-- An output that changed since the baseline, or that the previous record lists. -/
def isAttributed (before previous : List BuildOutput) (output : BuildOutput) : Bool :=
  outputAt before output.path != some output || outputAt previous output.path == some output

def omittedWarning (omitted : List BuildOutput) : Option String :=
  if omitted = [] then none
  else some ("warning: did not attribute " ++ toString omitted.length ++
    " unchanged workspace output(s) without matching prior root-build evidence: " ++
    Text.join ", " ((omitted.take 3).map (·.path)) ++ (if 3 < omitted.length then ", ..." else ""))

def selectRootManagedOutputs (before after previous : List BuildOutput) :
    List BuildOutput × Option String :=
  (after.filter (isAttributed before previous),
    omittedWarning (after.filter fun output => !isAttributed before previous output))

namespace RootBuild

/-- What a build remembers from its start. The warnings of the scan are not kept. -/
structure Baseline where
  outputs : List BuildOutput
  previous : Option BuildCompletion

/-- What a build publishes apart from its outputs. -/
structure Published where
  lock : TargetLock
  project : BuildProjectIdentity
  intent : BuildIntent
  invocation : Option String
  rendererReports : List RendererEvidenceBinding
  completedUnix : Nat

/-- The record of a build, before it lists anything. -/
def Published.completion (run : Published) (buildDir : String) : BuildCompletion :=
  .fromLock run.lock run.project buildDir run.intent run.completedUnix

/-- The previous record, if it is one of the same build. -/
def sameBuild (codec : Codec) (run : Published) (buildDir : String)
    (previous : Option BuildCompletion) : Option BuildCompletion :=
  previous.filter fun previous =>
    (previous.validateAgainst run.lock run.project.name run.project.version buildDir).isOk &&
      previous.fingerprint codec == (run.completion buildDir).fingerprint codec

def writeCompletion (codec : Codec) (run : Published) (buildDir : String) (baseline : Baseline)
    (outputsAfter : List BuildOutput) : BuildCompletion :=
  let previousOutputs := ((sameBuild codec run buildDir baseline.previous).map (·.outputs)).getD []
  let completion := run.completion buildDir
  let completion := (run.invocation.map completion.withInvocation).getD completion
  (completion.withRendererReports run.rendererReports).withOutputs
    (selectRootManagedOutputs baseline.outputs outputsAfter previousOutputs).1

/-! ## Histories -/

/-- The workspace, and for each build directory its record and the build that runs in it. -/
structure State where
  tree : WorkspaceTree
  record : String → Option BuildCompletion
  started : String → Option Baseline

inductive Event
  | edit (tree : WorkspaceTree)
  | start (buildDir : String)
  /-- A build ends without a record. -/
  | fail (buildDir : String)
  | complete (buildDir : String) (run : Published)

/-- The event starts or ends a build in the directory. -/
def Event.concerns (buildDir : String) : Event → Prop
  | .edit _ => False
  | .start dir | .fail dir | .complete dir _ => dir = buildDir

variable (codec : Codec) (scanner : Scanner) (root : String)

def scan (tree : WorkspaceTree) : List BuildOutput :=
  (workspaceManagedOutputs codec scanner root tree).1

namespace State

def baseline (s : State) (buildDir : String) : Baseline where
  outputs := scan codec scanner root s.tree
  previous := s.record buildDir

/-- The record that a running build publishes. -/
def completion (s : State) (buildDir : String) (run : Published) : Option BuildCompletion :=
  (s.started buildDir).map fun baseline =>
    writeCompletion codec run buildDir baseline (scan codec scanner root s.tree)

def setRecord (s : State) (buildDir : String) (record : Option BuildCompletion) : State :=
  { s with record := Function.update s.record buildDir record }

def setStarted (s : State) (buildDir : String) (started : Option Baseline) : State :=
  { s with started := Function.update s.started buildDir started }

def apply (s : State) : Event → State
  | .edit tree => { s with tree }
  | .start buildDir =>
    (s.setRecord buildDir none).setStarted buildDir (s.baseline codec scanner root buildDir)
  | .fail buildDir => s.setStarted buildDir none
  | .complete buildDir run =>
    match s.completion codec scanner root buildDir run with
    | some record => (s.setRecord buildDir record).setStarted buildDir none
    | none => s

def run (s : State) (history : List Event) : State :=
  history.foldl (State.apply codec scanner root) s

def empty (tree : WorkspaceTree) : State where
  tree := tree
  record _ := none
  started _ := none

section

variable {s : State} {buildDir other : String} {record : Option BuildCompletion}
  {started : Option Baseline}

@[simp] theorem setRecord_started : (s.setRecord buildDir record).started = s.started := rfl

@[simp] theorem setStarted_record : (s.setStarted buildDir started).record = s.record := rfl

@[simp] theorem setRecord_self : (s.setRecord buildDir record).record buildDir = record :=
  Function.update_self ..

@[simp] theorem setStarted_self : (s.setStarted buildDir started).started buildDir = started :=
  Function.update_self ..

theorem setRecord_of_ne (h : other ≠ buildDir) :
    (s.setRecord buildDir record).record other = s.record other :=
  Function.update_of_ne h ..

theorem setStarted_of_ne (h : other ≠ buildDir) :
    (s.setStarted buildDir started).started other = s.started other :=
  Function.update_of_ne h ..

end

end State

/-- Every record that a history publishes for a directory lists the output. -/
def Listed (s : State) (buildDir : String) (output : BuildOutput) : List Event → Prop
  | [] => True
  | e :: history =>
    (∀ run record, e = .complete buildDir run →
      s.completion codec scanner root buildDir run = some record → output ∈ record.outputs) ∧
    Listed (s.apply codec scanner root e) buildDir output history

/-- The build that an output is attributed to: its bytes were not there when the build started,
they were when it completed, and every record of the directory has listed them since. -/
def Origin (s : State) (history : List Event) (buildDir fingerprint : String)
    (output : BuildOutput) : Prop :=
  ∃ before during run after record,
    history = before ++ .start buildDir :: (during ++ .complete buildDir run :: after) ∧
    (∀ e ∈ during, ¬ e.concerns buildDir) ∧
    (s.run codec scanner root (before ++ .start buildDir :: during)).completion codec scanner root
      buildDir run = some record ∧
    record.fingerprint codec = fingerprint ∧
    describeOutput codec (s.run codec scanner root before).tree output.path ≠ some output ∧
    describeOutput codec (s.run codec scanner root (before ++ .start buildDir :: during)).tree
      output.path = some output ∧
    Listed codec scanner root (s.run codec scanner root (before ++ .start buildDir :: during))
      buildDir output (.complete buildDir run :: after)

/-- The scan before a build that completes sees every file that the scan after it lists and that
was there with the same bytes before. -/
def Covered (s : State) (history : List Event) : Prop :=
  ∀ before buildDir during run after,
    history = before ++ .start buildDir :: (during ++ .complete buildDir run :: after) →
    (∀ e ∈ during, ¬ e.concerns buildDir) →
    ∀ output ∈ scan codec scanner root
        (s.run codec scanner root (before ++ .start buildDir :: during)).tree,
      describeOutput codec (s.run codec scanner root before).tree output.path = some output →
        output ∈ scan codec scanner root (s.run codec scanner root before).tree

end RootBuild

/-! ## What a scan lists -/

section Scan

variable {codec : Codec} {scanner : Scanner} {root path : String} {tree : WorkspaceTree}
  {output : BuildOutput} {outputs : List BuildOutput}

theorem describeOutput_path (h : describeOutput codec tree path = some output) :
    output.path = path := by
  obtain ⟨content, -, rfl⟩ := Option.map_eq_some_iff.mp h
  rfl

theorem mem_memberOutputs {paths : String → Except String (List String)} {members : List String}
    (h : output ∈ (memberOutputs codec tree paths members).1) :
    describeOutput codec tree output.path = some output := by
  induction members with
  | nil => cases h
  | cons member more ih =>
    simp only [memberOutputs] at h
    cases hpaths : paths member with
    | ok found =>
      rw [hpaths] at h
      rcases List.mem_append.mp h with h | h
      · obtain ⟨path, -, hpath⟩ := List.mem_filterMap.mp h
        rw [describeOutput_path hpath]
        exact hpath
      · exact ih h
    | error warning =>
      rw [hpaths] at h
      exact ih h

theorem getElem?_foldl_outputs {map : Std.ExtTreeMap String BuildOutput}
    (h : (outputs.foldl (fun map output => map.insert output.path output) map)[path]? =
      some output) :
    map[path]? = some output ∨ output ∈ outputs ∧ output.path = path := by
  induction outputs generalizing map with
  | nil => exact .inl h
  | cons first rest ih =>
    rcases ih h with h | ⟨hmem, hpath⟩
    · rw [Std.ExtTreeMap.getElem?_insert] at h
      split at h
      · next hsame =>
        obtain rfl := Option.some.inj h
        exact .inr ⟨List.mem_cons_self, by simpa using hsame⟩
      · exact .inl h
    · exact .inr ⟨List.mem_cons_of_mem _ hmem, hpath⟩

theorem isSome_foldl_insert {map : Std.ExtTreeMap String BuildOutput}
    (h : map[path]?.isSome ∨ ∃ output ∈ outputs, output.path = path) :
    (outputs.foldl (fun map output => map.insert output.path output) map)[path]?.isSome := by
  induction outputs generalizing map with
  | nil =>
    rcases h with h | ⟨output, hmem, -⟩
    · exact h
    · cases hmem
  | cons first rest ih =>
    refine ih ?_
    rw [Std.ExtTreeMap.getElem?_insert]
    by_cases hfirst : first.path = path
    · exact .inl (by simp [hfirst])
    · rcases h with h | ⟨output, hmem, hpath⟩
      · exact .inl (by simpa [hfirst] using h)
      · rcases List.mem_cons.mp hmem with rfl | hmem
        · exact absurd hpath hfirst
        · exact .inr ⟨output, hmem, hpath⟩

theorem mem_of_outputAt (h : outputAt outputs path = some output) :
    output ∈ outputs ∧ output.path = path := by
  rcases getElem?_foldl_outputs h with h | h
  · rw [Std.ExtTreeMap.getElem?_empty] at h
    cases h
  · exact h

theorem exists_outputAt (h : output ∈ outputs) :
    ∃ found, outputAt outputs output.path = some found :=
  Option.isSome_iff_exists.mp (isSome_foldl_insert (.inr ⟨output, h, rfl⟩))

/-- A scan lists what is there. -/
theorem mem_workspaceManagedOutputs
    (h : output ∈ (workspaceManagedOutputs codec scanner root tree).1) :
    describeOutput codec tree output.path = some output := by
  obtain ⟨path, hpath⟩ := TreeMap.mem_values.mp h
  obtain ⟨hmem, -⟩ := mem_of_outputAt hpath
  rcases List.mem_append.mp hmem with hmem | hmem
  · unfold workspaceToolOutputs at hmem
    split at hmem
    · cases hmem
    · exact mem_memberOutputs hmem
  · unfold workspaceBundleOutputs at hmem
    split at hmem
    · cases hmem
    · exact mem_memberOutputs hmem

/-- A scan lists everything that its members have. -/
theorem mem_workspaceManagedOutputs_of_mem (h : output ∈
      (workspaceToolOutputs codec scanner root tree).1 ++
        (workspaceBundleOutputs codec scanner root tree).1)
    (hdescribe : describeOutput codec tree output.path = some output) :
    output ∈ (workspaceManagedOutputs codec scanner root tree).1 := by
  obtain ⟨found, hfound⟩ := exists_outputAt h
  have hscan : found ∈ (workspaceManagedOutputs codec scanner root tree).1 :=
    TreeMap.mem_values.mpr ⟨_, hfound⟩
  obtain ⟨-, hpath⟩ := mem_of_outputAt hfound
  have hthere := mem_workspaceManagedOutputs hscan
  rw [hpath, hdescribe] at hthere
  rw [Option.some.inj hthere]
  exact hscan

/-- An output that a scan lists is the one listed for its path. -/
theorem outputAt_workspaceManagedOutputs
    (h : output ∈ (workspaceManagedOutputs codec scanner root tree).1) :
    outputAt (workspaceManagedOutputs codec scanner root tree).1 output.path = some output := by
  obtain ⟨found, hfound⟩ := exists_outputAt h
  obtain ⟨hmem, hpath⟩ := mem_of_outputAt hfound
  have hdescribe := mem_workspaceManagedOutputs hmem
  rw [hpath, mem_workspaceManagedOutputs h] at hdescribe
  rw [hfound, ← Option.some.inj hdescribe]

end Scan

namespace RootBuild

section

variable {codec : Codec} {scanner : Scanner} {root : String} {s : State} {history : List Event}
  {buildDir : String} {output : BuildOutput} {run : Published} {baseline : Baseline}
  {e : Event}

/-- A build lists what it finds at its end, if it changed or a previous record of the same build
lists it. -/
theorem mem_writeCompletion {after : List BuildOutput} :
    output ∈ (writeCompletion codec run buildDir baseline after).outputs ↔
      output ∈ after ∧ (outputAt baseline.outputs output.path ≠ some output ∨
        ∃ previous, sameBuild codec run buildDir baseline.previous = some previous ∧
          outputAt previous.outputs output.path = some output) := by
  simp only [writeCompletion, BuildCompletion.withOutputs, selectRootManagedOutputs,
    List.mem_filter, isAttributed, Bool.or_eq_true, bne_iff_ne, beq_iff_eq]
  refine and_congr_right fun _ => or_congr_right ?_
  cases hsame : sameBuild codec run buildDir baseline.previous with
  | none =>
    constructor
    · intro h
      cases (mem_of_outputAt h).1
    · rintro ⟨previous, hprevious, -⟩
      cases hprevious
  | some previous =>
    constructor
    · exact fun h => ⟨previous, rfl, h⟩
    · rintro ⟨found, hfound, h⟩
      obtain rfl := Option.some.inj hfound
      exact h

theorem fingerprint_writeCompletion {after : List BuildOutput} :
    (writeCompletion codec run buildDir baseline after).fingerprint codec =
      (run.completion buildDir).fingerprint codec := by
  unfold writeCompletion
  cases run.invocation <;> rfl

theorem sameBuild_eq_some {previous : Option BuildCompletion} {found : BuildCompletion}
    (h : sameBuild codec run buildDir previous = some found) :
    previous = some found ∧
      found.fingerprint codec = (run.completion buildDir).fingerprint codec := by
  obtain ⟨hprevious, hsame⟩ := Option.filter_eq_some_iff.mp h
  rw [Bool.and_eq_true, beq_iff_eq] at hsame
  exact ⟨hprevious, hsame.2⟩

theorem run_append {after : List Event} : s.run codec scanner root (history ++ after) =
    (s.run codec scanner root history).run codec scanner root after := by
  rw [State.run, State.run, State.run, List.foldl_append]

theorem run_snoc : s.run codec scanner root (history ++ [e]) =
    (s.run codec scanner root history).apply codec scanner root e := by
  rw [run_append]
  rfl

/-- What a build that publishes leaves. -/
theorem apply_complete_some {record : BuildCompletion}
    (h : s.completion codec scanner root buildDir run = some record) :
    s.apply codec scanner root (.complete buildDir run) =
      (s.setRecord buildDir record).setStarted buildDir none := by
  show (match s.completion codec scanner root buildDir run with
    | some record => (s.setRecord buildDir record).setStarted buildDir none
    | none => s) = _
  rw [h]

/-- Nothing completes where nothing was started. -/
theorem apply_complete_none (h : s.completion codec scanner root buildDir run = none) :
    s.apply codec scanner root (.complete buildDir run) = s := by
  show (match s.completion codec scanner root buildDir run with
    | some record => (s.setRecord buildDir record).setStarted buildDir none
    | none => s) = _
  rw [h]

theorem started_eq_none (h : s.completion codec scanner root buildDir run = none) :
    s.started buildDir = none :=
  Option.map_eq_none_iff.mp h

/-- The frame of an event: what other directories have. -/
theorem apply_frame (h : ¬ e.concerns buildDir) :
    (s.apply codec scanner root e).record buildDir = s.record buildDir ∧
      (s.apply codec scanner root e).started buildDir = s.started buildDir := by
  cases e with
  | edit tree => exact ⟨rfl, rfl⟩
  | start dir =>
    have hne : buildDir ≠ dir := fun heq => h heq.symm
    exact ⟨State.setRecord_of_ne hne, State.setStarted_of_ne hne⟩
  | fail dir =>
    have hne : buildDir ≠ dir := fun heq => h heq.symm
    exact ⟨rfl, State.setStarted_of_ne hne⟩
  | complete dir run =>
    have hne : buildDir ≠ dir := fun heq => h heq.symm
    cases hcompletion : s.completion codec scanner root dir run with
    | some record =>
      rw [apply_complete_some hcompletion]
      exact ⟨State.setRecord_of_ne hne, State.setStarted_of_ne hne⟩
    | none =>
      rw [apply_complete_none hcompletion]
      exact ⟨rfl, rfl⟩

/-- A build that runs after an event ran before it, or is the one that the event started. -/
theorem started_apply (hconcerns : e.concerns buildDir)
    (h : (s.apply codec scanner root e).started buildDir = some baseline) :
    e = .start buildDir ∧ baseline = s.baseline codec scanner root buildDir := by
  cases e with
  | edit tree => cases hconcerns
  | start dir =>
    obtain rfl := hconcerns
    have hstarted : (s.apply codec scanner root (.start dir)).started dir =
        some (s.baseline codec scanner root dir) := State.setStarted_self
    rw [h] at hstarted
    exact ⟨rfl, Option.some.inj hstarted⟩
  | fail dir =>
    obtain rfl := hconcerns
    have hstarted : (s.apply codec scanner root (.fail dir)).started dir = none :=
      State.setStarted_self
    rw [h] at hstarted
    cases hstarted
  | complete dir run =>
    obtain rfl := hconcerns
    cases hcompletion : s.completion codec scanner root dir run with
    | some record =>
      rw [apply_complete_some hcompletion, State.setStarted_self] at h
      cases h
    | none =>
      rw [apply_complete_none hcompletion, started_eq_none hcompletion] at h
      cases h

/-- A record that is there after an event was there before it, or the event published it. -/
theorem record_apply {record : BuildCompletion}
    (h : (s.apply codec scanner root e).record buildDir = some record) :
    (∃ run, e = .complete buildDir run ∧
        s.completion codec scanner root buildDir run = some record) ∨
      s.record buildDir = some record ∧ ∀ run published, e = .complete buildDir run →
        s.completion codec scanner root buildDir run ≠ some published := by
  by_cases hconcerns : e.concerns buildDir
  · cases e with
    | edit tree => cases hconcerns
    | start dir =>
      obtain rfl := hconcerns
      have hnone : (s.apply codec scanner root (.start dir)).record dir = none :=
        State.setRecord_self
      rw [hnone] at h
      cases h
    | fail dir =>
      refine .inr ⟨h, fun run published heq => ?_⟩
      cases heq
    | complete dir run =>
      obtain rfl := hconcerns
      cases hcompletion : s.completion codec scanner root dir run with
      | some published =>
        rw [apply_complete_some hcompletion, State.setStarted_record, State.setRecord_self] at h
        exact .inl ⟨run, rfl, by rw [hcompletion, h]⟩
      | none =>
        rw [apply_complete_none hcompletion] at h
        refine .inr ⟨h, fun run' published heq hpublished => ?_⟩
        cases heq
        rw [hcompletion] at hpublished
        cases hpublished
  · rw [(apply_frame hconcerns).1] at h
    refine .inr ⟨h, fun run published heq => ?_⟩
    rw [heq] at hconcerns
    exact absurd rfl hconcerns

theorem Listed.append (h : Listed codec scanner root s buildDir output history)
    (he : ∀ run record, e = .complete buildDir run →
      (s.run codec scanner root history).completion codec scanner root buildDir run =
          some record → output ∈ record.outputs) :
    Listed codec scanner root s buildDir output (history ++ [e]) := by
  induction history generalizing s with
  | nil => exact ⟨he, trivial⟩
  | cons e' history ih => exact ⟨h.1, ih h.2 he⟩

/-- An origin remains one as long as the output is listed. -/
theorem Origin.append {fingerprint : String}
    (h : Origin codec scanner root s history buildDir fingerprint output)
    (he : ∀ run record, e = .complete buildDir run →
      (s.run codec scanner root history).completion codec scanner root buildDir run =
          some record → output ∈ record.outputs) :
    Origin codec scanner root s (history ++ [e]) buildDir fingerprint output := by
  obtain ⟨before, during, run, after, record, hhistory, hduring, hrecord, hfingerprint, hnew,
    hthere, hlisted⟩ := h
  refine ⟨before, during, run, after ++ [e], record, by rw [hhistory]; simp, hduring, hrecord,
    hfingerprint, hnew, hthere, ?_⟩
  refine hlisted.append fun run' record' heq hcompletion => he run' record' heq ?_
  rw [← run_append] at hcompletion
  rw [hhistory]
  simpa using hcompletion

/-- What every covered history leaves: the outputs of each record have an origin, and so have
those of the record that a running build found; its baseline is that of its start. -/
structure Invariant (codec : Codec) (scanner : Scanner) (root : String) (s : State)
    (history : List Event) : Prop where
  record : ∀ buildDir record, (s.run codec scanner root history).record buildDir = some record →
    ∀ output ∈ record.outputs,
      Origin codec scanner root s history buildDir (record.fingerprint codec) output
  started : ∀ buildDir baseline,
    (s.run codec scanner root history).started buildDir = some baseline →
      ∃ before during, history = before ++ .start buildDir :: during ∧
        (∀ e ∈ during, ¬ e.concerns buildDir) ∧
        baseline = (s.run codec scanner root before).baseline codec scanner root buildDir
  inherited : ∀ buildDir baseline previous,
    (s.run codec scanner root history).started buildDir = some baseline →
      baseline.previous = some previous → ∀ output ∈ previous.outputs,
        Origin codec scanner root s history buildDir (previous.fingerprint codec) output

/-- A record that a running build publishes lists outputs with an origin. -/
theorem Invariant.completion {record : BuildCompletion}
    (h : Invariant codec scanner root s history)
    (hcovered : Covered codec scanner root s (history ++ [.complete buildDir run]))
    (hcompletion : (s.run codec scanner root history).completion codec scanner root buildDir run =
      some record) (houtput : output ∈ record.outputs) :
    Origin codec scanner root s (history ++ [.complete buildDir run]) buildDir
      (record.fingerprint codec) output := by
  obtain ⟨baseline, hstarted, rfl⟩ := Option.map_eq_some_iff.mp hcompletion
  obtain ⟨hafter, hattributed⟩ := mem_writeCompletion.mp houtput
  have hlists : ∀ run' record', Event.complete buildDir run = .complete buildDir run' →
      (s.run codec scanner root history).completion codec scanner root buildDir run' =
        some record' → output ∈ record'.outputs := by
    intro run' record' heq hrecord'
    cases heq
    rw [hcompletion] at hrecord'
    obtain rfl := Option.some.inj hrecord'
    exact houtput
  rcases hattributed with hchanged | ⟨previous, hsame, hprevious⟩
  · -- the build itself found it new
    obtain ⟨before, during, rfl, hduring, rfl⟩ := h.started buildDir baseline hstarted
    refine ⟨before, during, run, [], _, by simp, hduring, hcompletion, rfl, fun hold => ?_,
      mem_workspaceManagedOutputs hafter, ⟨hlists, trivial⟩⟩
    refine hchanged (outputAt_workspaceManagedOutputs ?_)
    exact hcovered before buildDir during run [] (by simp) hduring output hafter hold
  · -- an earlier build did
    obtain ⟨hfound, hfingerprint⟩ := sameBuild_eq_some hsame
    rw [fingerprint_writeCompletion, ← hfingerprint]
    refine (h.inherited buildDir baseline previous hstarted hfound output ?_).append hlists
    exact (mem_of_outputAt hprevious).1

/-- The step lemma. -/
theorem Invariant.step (h : Invariant codec scanner root s history)
    (hcovered : Covered codec scanner root s (history ++ [e])) :
    Invariant codec scanner root s (history ++ [e]) := by
  constructor
  · intro buildDir record hrecord output houtput
    rw [run_snoc] at hrecord
    rcases record_apply hrecord with ⟨run, rfl, hcompletion⟩ | ⟨hrecord, hnone⟩
    · exact h.completion hcovered hcompletion houtput
    · refine (h.record buildDir record hrecord output houtput).append ?_
      exact fun run' record' heq hrecord' => absurd hrecord' (hnone run' record' heq)
  · intro buildDir baseline hstarted
    rw [run_snoc] at hstarted
    by_cases hconcerns : e.concerns buildDir
    · obtain ⟨rfl, rfl⟩ := started_apply hconcerns hstarted
      exact ⟨history, [], rfl, nofun, rfl⟩
    · rw [(apply_frame hconcerns).2] at hstarted
      obtain ⟨before, during, rfl, hduring, rfl⟩ := h.started buildDir baseline hstarted
      refine ⟨before, during ++ [e], by simp, fun e' he' => ?_, rfl⟩
      rcases List.mem_append.mp he' with he' | he'
      · exact hduring e' he'
      · rw [List.mem_singleton.mp he']
        exact hconcerns
  · intro buildDir baseline previous hstarted hprevious output houtput
    rw [run_snoc] at hstarted
    by_cases hconcerns : e.concerns buildDir
    · obtain ⟨rfl, rfl⟩ := started_apply hconcerns hstarted
      refine (h.record buildDir previous hprevious output houtput).append ?_
      intro run' record' heq
      cases heq
    · rw [(apply_frame hconcerns).2] at hstarted
      refine (h.inherited buildDir baseline previous hstarted hprevious output houtput).append ?_
      rintro run' record' rfl
      exact absurd rfl hconcerns

theorem Covered.of_append (h : Covered codec scanner root s (history ++ [e])) :
    Covered codec scanner root s history := by
  intro before buildDir during run after heq
  exact h before buildDir during run (after ++ [e]) (by rw [heq]; simp)

/-- The run lemma. -/
theorem invariant_run {tree : WorkspaceTree}
    (h : Covered codec scanner root (.empty tree) history) :
    Invariant codec scanner root (.empty tree) history := by
  induction history using List.reverseRecOn with
  | nil =>
    constructor
    · intro buildDir record hrecord
      cases hrecord
    · intro buildDir baseline hstarted
      cases hstarted
    · intro buildDir baseline previous hstarted
      cases hstarted
  | append_singleton history e ih => exact (ih h.of_append).step h

end

/-- Every output that a root build's record lists was found new by a build of the same fingerprint
that completed in that directory, and every record of the directory since lists it, as long as the
scan before each build sees what the scan after it lists. -/
theorem outputs_origin {codec : Codec} {scanner : Scanner} {root : String} {tree : WorkspaceTree}
    {history : List Event} (hcovered : Covered codec scanner root (.empty tree) history)
    {buildDir : String} {record : BuildCompletion} (hrecord :
      ((State.empty tree).run codec scanner root history).record buildDir = some record) :
    ∀ output ∈ record.outputs,
      Origin codec scanner root (.empty tree) history buildDir (record.fingerprint codec) output :=
  (invariant_run hcovered).record buildDir record hrecord

/-! ## A bundle that could not be read -/

namespace Sample

open Tested.Sample (lock buildType)

def manifest : String := "plugins/toy/openstrata.plugin.yaml"

def library : String := "plugins/toy/lib/libToy.so"

def buildDir : String := "build/cy2026-linux"

/-- SHA-256 on the library and on what the fingerprint of the build covers. -/
def codec : Codec where
  sha256 bytes := if bytes = [1] then bytesOfHex
      "4bf5122f344554c53bde2ebb8cd2b7e3d1600ad631c385a5d7cce23c7785459a".toList
    else Tested.Sample.codec.sha256 bytes
  parse _ := none

/-- One bundle with one library, unless its manifest is empty. -/
def scanner : Scanner where
  tools _ := .ok []
  executables _ _ := .ok []
  bundles _ := .ok ["plugins/toy"]
  managed tree _ :=
    if tree manifest = some [] then .error "warning: skipped outputs for invalid bundle 'toy'"
    else .ok [library]

/-- The workspace with a manifest and, once it is built, the library. -/
def workspace (content : Bytes) (built : Bool) : WorkspaceTree := fun path =>
  if path = manifest then some content
  else if path = library ∧ built then some [1]
  else none

def output : BuildOutput where
  path := library
  sha256 := sha256Hex codec [1]
  size := 1

def published : Published where
  lock := lock
  project := { name := "demo", version := "1.0.0" }
  intent := { name := "default", cache := [("CMAKE_BUILD_TYPE", buildType)] }
  invocation := none
  rendererReports := []
  completedUnix := 2

/-- A build during which the manifest is written, with the library there at its end. -/
def history : List Event :=
  [.start buildDir, .edit (workspace [7] true), .complete buildDir published]

theorem describeOutput_workspace (content : Bytes) :
    describeOutput codec (workspace content true) library = some output := rfl

theorem mem_scan {found : BuildOutput} :
    found ∈ scan codec scanner "." (workspace [7] true) ↔ found = output := by
  constructor
  · intro h
    obtain ⟨path, hpath⟩ := TreeMap.mem_values.mp h
    exact List.mem_singleton.mp (mem_of_outputAt hpath).1
  · rintro rfl
    refine mem_workspaceManagedOutputs_of_mem ?_ (describeOutput_workspace [7])
    exact List.mem_singleton_self output

/-- The build publishes a record that lists the library, whatever was there at its start. -/
theorem exists_record {tree : WorkspaceTree} (h : output ∉ scan codec scanner "." tree) :
    ∃ record, ((State.empty tree).run codec scanner "." history).record buildDir =
      some record ∧ output ∈ record.outputs := by
  have hcompletion : ((State.empty tree).run codec scanner "." (history.take 2)).completion codec
      scanner "." buildDir published = some (writeCompletion codec published buildDir
        ((State.empty tree).baseline codec scanner "." buildDir)
        (scan codec scanner "." (workspace [7] true))) := rfl
  have hrun : (State.empty tree).run codec scanner "." history = _ :=
    apply_complete_some hcompletion
  rw [hrun, State.setStarted_record, State.setRecord_self]
  refine ⟨_, rfl, mem_writeCompletion.mpr ⟨mem_scan.mpr rfl, .inl fun hold => h ?_⟩⟩
  exact (mem_of_outputAt hold).1

/-- The only build of the history is the one that starts first. -/
theorem history_eq {before during after : List Event} {dir : String} {run : Published}
    (h : history = before ++ .start dir :: (during ++ .complete dir run :: after)) :
    before = [] := by
  rcases before with _ | ⟨_, _ | ⟨_, _ | ⟨_, _⟩⟩⟩
  · rfl
  all_goals simp [history] at h

end Sample

open Sample in
theorem outputs_origin_sample :
    ∃ record, ((State.empty (workspace [7] false)).run codec scanner "." history).record
        buildDir = some record ∧ output ∈ record.outputs ∧
      Origin codec scanner "." (.empty (workspace [7] false)) history buildDir
        (record.fingerprint codec) output := by
  have hnew : describeOutput codec (workspace [7] false) library = none := rfl
  have hscan : output ∉ scan codec scanner "." (workspace [7] false) := by
    intro h
    have hthere := mem_workspaceManagedOutputs h
    rw [show output.path = library from rfl, hnew] at hthere
    cases hthere
  obtain ⟨record, hrecord, houtput⟩ := exists_record hscan
  refine ⟨record, hrecord, houtput, outputs_origin ?_ hrecord output houtput⟩
  intro before dir during run after heq _ found hfound hold
  obtain rfl := history_eq heq
  obtain ⟨rfl, hduring⟩ : buildDir = dir ∧ during = [.edit (workspace [7] true)] := by
    rcases during with _ | ⟨_, _ | ⟨_, _⟩⟩ <;> simp_all [history]
  rw [hduring] at hfound
  obtain rfl := mem_scan.mp hfound
  cases hnew.symm.trans hold

open Sample in
/-- A build lists a library that was there before it with the same bytes, and that no build has
found new: the manifest of its bundle could not be read when the build started. -/
theorem outputs_without_origin :
    ∃ record, ((State.empty (workspace [] true)).run codec scanner "." history).record buildDir =
        some record ∧ output ∈ record.outputs ∧
      ¬ Origin codec scanner "." (.empty (workspace [] true)) history buildDir
        (record.fingerprint codec) output := by
  have hscan : output ∉ scan codec scanner "." (workspace [] true) := by
    intro h
    obtain ⟨path, hpath⟩ := TreeMap.mem_values.mp h
    cases (mem_of_outputAt hpath).1
  obtain ⟨record, hrecord, houtput⟩ := exists_record hscan
  refine ⟨record, hrecord, houtput, ?_⟩
  rintro ⟨before, during, run, after, -, heq, -, -, -, hnew, -⟩
  obtain rfl := history_eq heq
  exact hnew (describeOutput_workspace [])

end RootBuild

end OpenStrata
