import OpenStrata.Build.Completion
import OpenStrata.Build.LeaseRuns

/-!
# Managed runs

A build or a test run takes the lease of its target, does its work on the target in a fixed
order, publishes a completion record and releases the lease. When it fails on the way it stamps
the renderer reports at most, and publishes nothing. A run that was told to attach read-only does
not take the lease, and then does the same work; it knows the owner whose record it found.

Runs are interleaved at every step of the lease and of the work, and may crash between any two.

## Main definitions

* `LeaseMode`, `Work`, `Command.work`: the modes, and what the two commands do in order
* `Managed.Step`, `Managed.Run`: interleavings of any runs
* `Exclusive`, `Attributed`: nobody writes a target that another run has locked, and records name
  the run that published them

## Main results

* `Run.leased`: a run that does not attach read-only works under the lock of its target
* `managed_iff`: which read-only runs break exclusion and attribution
-/

set_option linter.unusedSectionVars false

namespace OpenStrata

/-- What to do when another run has the target. Waiting is for so many seconds, or without end. -/
inductive LeaseMode
  | fail
  | wait (seconds : Option Nat)
  | readOnly
  deriving DecidableEq, Repr

def LeaseMode.parse (value : String) (timeoutSecs : Nat) : Result LeaseMode :=
  if value = "fail" then .ok .fail
  else if value = "wait" then .ok (.wait (if timeoutSecs = 0 then none else some timeoutSecs))
  else if value = "read-only" ∨ value = "readonly" then .ok .readOnly
  else .error (.usage ("unknown busy policy '" ++ value ++
    "' (expected fail, wait, or read-only)"))

namespace Managed

open Lease (Phase)

inductive Command
  | build
  | test
  deriving DecidableEq, Repr

def Command.name : Command → String
  | .build => "ost build"
  | .test => "ost test"

/-- What a run does with its target. -/
inductive Work
  /-- Read the previous completion and what it is compared with later. -/
  | snapshot
  | deleteCompletion
  | generate
  | configure
  | compile
  | verify
  | stageTools
  | enumerateTests
  | deleteJunit
  | runTests
  | stampReports
  | publish
  deriving DecidableEq, Repr

/-- The work of a command, in order. -/
def Command.work : Command → List Work
  | .build => [.snapshot, .deleteCompletion, .generate, .configure, .compile, .verify, .stageTools,
    .stampReports, .publish]
  | .test => [.enumerateTests, .deleteJunit, .snapshot, .runTests, .stampReports, .publish]

namespace Work

/-- The work that only reads. -/
def reads : Work → Bool
  | .snapshot | .verify | .enumerateTests => true
  | _ => false

/-- What remains to be done when a piece of work has failed. -/
def onFailure : Work → List Work
  | .configure | .compile | .verify | .stageTools | .runTests => [.stampReports]
  | _ => []

end Work

/-- A run of a command on a target. -/
structure Job (Path : Type) where
  command : Command
  mode : LeaseMode
  /-- The lease file of the target. -/
  target : Path
  /-- The build directory of the intent. -/
  buildDir : String

/-- How far a run has come. -/
inductive Stage
  | starting
  | working (todo : List Work)
  | ended

/-- A published record. -/
inductive Record
  | built (completion : BuildCompletion)
  | tested (completion : TestCompletion)

def Record.invocation : Record → Option String
  | .built completion => completion.invocation
  | .tested completion => completion.invocation

variable {P Path : Type} [DecidableEq P] [DecidableEq Path]

/-- The leases, the runs, and the records of the build directories of each target. -/
structure State (P Path : Type) where
  lease : Lease.State P Path
  stage : P → Stage
  built : Path → String → Option BuildCompletion
  tested : Path → String → Option TestCompletion

namespace State

def initial (built : Path → String → Option BuildCompletion)
    (tested : Path → String → Option TestCompletion) : State P Path where
  lease := .initial
  stage _ := .starting
  built := built
  tested := tested

def enter (s : State P Path) (p : P) (stage : Stage) : State P Path :=
  { s with stage := Function.update s.stage p stage }

def setBuilt (s : State P Path) (target : Path) (buildDir : String)
    (completion : Option BuildCompletion) : State P Path :=
  let ofTarget := Function.update (s.built target) buildDir completion
  { s with built := Function.update s.built target ofTarget }

def setTested (s : State P Path) (target : Path) (buildDir : String)
    (completion : Option TestCompletion) : State P Path :=
  let ofTarget := Function.update (s.tested target) buildDir completion
  { s with tested := Function.update s.tested target ofTarget }

/-- The records after a piece of work that was done. -/
def perform (s : State P Path) (job : Job Path) : Work → State P Path
  | .deleteCompletion => s.setBuilt job.target job.buildDir none
  | _ => s

def publish (s : State P Path) (job : Job Path) : Record → State P Path
  | .built completion => s.setBuilt job.target job.buildDir (some completion)
  | .tested completion => s.setTested job.target job.buildDir (some completion)

end State

/-- `TargetLease::invocation`: that of the run itself, or of the owner that a read-only run
found. -/
def leaseInvocation : Phase Path → Option String
  | .handle _ _ (.held _ owner) => some owner.invocation
  | .attached _ owner => owner.map (·.invocation)
  | _ => none

/-- The invocation of a run: a run that has no lease has none. -/
def ownInvocation : Phase Path → Option String
  | .handle _ _ (.held _ owner) => some owner.invocation
  | _ => none

/-- The record that a command publishes under the invocation its lease names. -/
inductive Publishes : Command → Option String → Record → Prop
  | built (completion : BuildCompletion) (invocation : Option String)
      (hnone : completion.invocation = none) :
      Publishes .build invocation (.built ((invocation.map completion.withInvocation).getD completion))
  | tested (completion : TestCompletion) (invocation : Option String)
      (hnone : completion.invocation = none) :
      Publishes .test invocation (.tested ((invocation.map completion.withInvocation).getD completion))

/-- The steps of a run. -/
inductive Action (Path : Type)
  | lease (action : Lease.Action Path)
  | work (work : Work) (done : Bool)
  | publish (record : Record)
  | crash

/-- The action deletes, generates, replaces or publishes something of the target. -/
def Action.Writes : Action Path → Prop
  | .work w _ => w.reads = false
  | .publish _ => True
  | .lease _ | .crash => False

/-- The steps of an acquire up to its return. Only a run that waits tries again. -/
inductive Acquiring (job : Job Path) : Lease.Action Path → Prop
  | openFile : Acquiring job (.openFile job.target)
  | retry {seconds} (hmode : job.mode = .wait seconds) : Acquiring job .busy
  | lock : Acquiring job (.lock job.target)
  | verify : Acquiring job .verify
  | record {owner} (hcommand : owner.command = job.command.name) :
      Acquiring job (.record job.target owner)
  | write {count} : Acquiring job (.write job.target count)

/-- One step of a run. -/
inductive Step (codec : Codec) (job : P → Job Path) (s : State P Path) (p : P) :
    Action Path → State P Path → Prop
  | acquire {a lease} (hstage : s.stage p = .starting) (hmode : (job p).mode ≠ .readOnly)
      (ha : Acquiring (job p) a) (hlease : Lease.Step codec s.lease p a lease) :
      Step codec job s p (.lease a) { s with lease }
  | acquired {lease} (hstage : s.stage p = .starting)
      (hlease : Lease.Step codec s.lease p .acquired lease) :
      Step codec job s p (.lease .acquired)
        (State.enter { s with lease } p (.working (job p).command.work))
  | giveUp {a lease} (hstage : s.stage p = .starting) (ha : a = .busy ∨ a = .fail)
      (hlease : Lease.Step codec s.lease p a lease) :
      Step codec job s p (.lease a) (State.enter { s with lease } p .ended)
  | attach {lease} (hstage : s.stage p = .starting) (hmode : (job p).mode = .readOnly)
      (hlease : Lease.Step codec s.lease p (.attach (job p).target) lease) :
      Step codec job s p (.lease (.attach (job p).target))
        (State.enter { s with lease } p (.working (job p).command.work))
  | work {w todo} (hstage : s.stage p = .working (w :: todo)) (hw : w ≠ .publish) :
      Step codec job s p (.work w true) ((s.perform (job p) w).enter p (.working todo))
  /-- Work that fails has perhaps written some of what it writes. -/
  | failed {w todo} (hstage : s.stage p = .working (w :: todo)) :
      Step codec job s p (.work w false) (s.enter p (.working w.onFailure))
  | publish {todo record} (hstage : s.stage p = .working (.publish :: todo))
      (hrecord : Publishes (job p).command (leaseInvocation (s.lease.phase p)) record) :
      Step codec job s p (.publish record) ((s.publish (job p) record).enter p (.working todo))
  | release {truncated lease} (hstage : s.stage p = .working [])
      (hlease : Lease.Step codec s.lease p (.release (job p).target truncated) lease) :
      Step codec job s p (.lease (.release (job p).target truncated)) { s with lease }
  | finish {a lease} (hstage : s.stage p = .working []) (ha : a = .close ∨ a = .drop ∨ a = .detach)
      (hlease : Lease.Step codec s.lease p a lease) :
      Step codec job s p (.lease a) (State.enter { s with lease } p .ended)
  | crash {lease} (hlease : Lease.Step codec s.lease p .crash lease) :
      Step codec job s p .crash (State.enter { s with lease } p .ended)

/-- A step that was taken, and the state it was taken in. -/
structure Taken (P Path : Type) where
  state : State P Path
  process : P
  action : Action Path

/-- The interleavings of any runs, on records left by earlier ones. -/
inductive Run (codec : Codec) (job : P → Job Path) :
    List (Taken P Path) → State P Path → Prop
  | initial (built tested) : Run codec job [] (.initial built tested)
  | step {history s s'} {p : P} {a : Action Path} (run : Run codec job history s)
      (step : Step codec job s p a s') : Run codec job (history ++ [⟨s, p, a⟩]) s'

/-- The process has the lock of the lease file. -/
def Locks (s : State P Path) (p : P) (path : Path) : Prop :=
  ∃ inode, s.lease.lookup path = some inode ∧ s.lease.lock inode = some p

/-- No run writes a target while another one has its lock. -/
def Exclusive (job : P → Job Path) (history : List (Taken P Path)) : Prop :=
  ∀ taken ∈ history, taken.action.Writes →
    ∀ q, q ≠ taken.process → ¬ Locks taken.state q (job taken.process).target

/-- A published record names no other run than the one that did the work and published it. -/
def Attributed (history : List (Taken P Path)) : Prop :=
  ∀ taken ∈ history, ∀ record invocation, taken.action = .publish record →
    record.invocation = some invocation →
      ownInvocation (taken.state.lease.phase taken.process) = some invocation

/-- A step that does no harm without the lease: no other run has the lock when it writes, and the
run found no owner when it attached if it publishes. -/
def Harmless (job : P → Job Path) (taken : Taken P Path) : Prop :=
  (taken.action.Writes →
    ∀ q, q ≠ taken.process → ¬ Locks taken.state q (job taken.process).target) ∧
  ∀ record, taken.action = .publish record →
    leaseInvocation (taken.state.lease.phase taken.process) = none

/-! ## The lease of a working run -/

section Invariant

variable {codec : Codec} {job : P → Job Path} {s s' : State P Path} {p q : P} {a : Action Path}
  {history : List (Taken P Path)}

/-- What a run has of its lease while it acquires, and while it has work to do. -/
structure Placed (job : P → Job Path) (s : State P Path) (p : P) : Prop where
  starting : s.stage p = .starting → ∀ path inode stage,
    s.lease.phase p = .handle path inode stage →
      path = (job p).target ∧ (job p).mode ≠ .readOnly
  working : ∀ w todo, s.stage p = .working (w :: todo) →
    ((job p).mode ≠ .readOnly ∧ ∃ inode takeover owner,
      s.lease.phase p = .handle (job p).target inode (.held takeover owner)) ∨
    ((job p).mode = .readOnly ∧ ∃ owner, s.lease.phase p = .attached (job p).target owner)

structure Invariant (job : P → Job Path) (s : State P Path) : Prop where
  bound : Lease.Bound s.lease
  placed : ∀ p, Placed job s p

@[simp] theorem stage_enter {stage : Stage} : (s.enter p stage).stage p = stage :=
  Function.update_self ..

@[simp] theorem lease_enter {stage : Stage} : (s.enter p stage).lease = s.lease := rfl

@[simp] theorem lease_perform {j : Job Path} {w : Work} : (s.perform j w).lease = s.lease := by
  cases w <;> rfl

@[simp] theorem stage_perform {j : Job Path} {w : Work} : (s.perform j w).stage = s.stage := by
  cases w <;> rfl

@[simp] theorem lease_publish {j : Job Path} {r : Record} : (s.publish j r).lease = s.lease := by
  cases r <;> rfl

@[simp] theorem stage_publish {j : Job Path} {r : Record} : (s.publish j r).stage = s.stage := by
  cases r <;> rfl

/-- A run takes a step of the lease, or leaves the leases alone. -/
theorem Step.lease (hstep : Step codec job s p a s') :
    s'.lease = s.lease ∨ ∃ action, Lease.Step codec s.lease p action s'.lease := by
  cases hstep with
  | acquire _ _ _ hlease => exact .inr ⟨_, hlease⟩
  | acquired _ hlease => exact .inr ⟨_, hlease⟩
  | giveUp _ _ hlease => exact .inr ⟨_, hlease⟩
  | attach _ _ hlease => exact .inr ⟨_, hlease⟩
  | release _ hlease => exact .inr ⟨_, hlease⟩
  | finish _ _ hlease => exact .inr ⟨_, hlease⟩
  | crash hlease => exact .inr ⟨_, hlease⟩
  | work => exact .inl (by simp)
  | failed => exact .inl rfl
  | publish => exact .inl (by simp)

/-- The frame of a step: what other runs have of their leases, and how far they have come. -/
theorem Step.frame (hstep : Step codec job s p a s') (hne : q ≠ p) :
    s'.stage q = s.stage q ∧ s'.lease.phase q = s.lease.phase q := by
  constructor
  · have henter (s : State P Path) (stage : Stage) : (s.enter p stage).stage q = s.stage q :=
      Function.update_of_ne hne ..
    cases hstep with
    | acquire => rfl
    | release => rfl
    | work => rw [henter, stage_perform]
    | publish => rw [henter, stage_publish]
    | _ => exact henter _ _
  · rcases hstep.lease with heq | ⟨action, hlease⟩
    · rw [heq]
    · exact (hlease.frame hne).1

/-- The step lemma of the run that takes the step. -/
theorem Placed.step (h : Placed job s p) (hstep : Step codec job s p a s') : Placed job s' p := by
  have hself (s : Lease.State P Path) (phase : Phase Path) : (s.enter p phase).phase p = phase :=
    Function.update_self ..
  cases hstep with
  | acquire hstage hmode ha hlease =>
    refine ⟨fun _ path inode stage hphase => ⟨?_, hmode⟩, fun w todo hworking => ?_⟩
    · simp only at hphase
      cases ha with
      | openFile =>
        cases hlease with
        | openFile hidle hinode =>
          rw [hself] at hphase
          cases hphase
          rfl
      | retry =>
        cases hlease with
        | busy =>
          rw [hself] at hphase
          cases hphase
      | lock =>
        cases hlease with
        | lock =>
          rw [hself] at hphase
          cases hphase
          rfl
      | verify =>
        cases hlease with
        | verify host isLive hold =>
          rw [hself] at hphase
          cases hphase
          exact (h.starting hstage _ _ _ hold).1
      | record =>
        cases hlease with
        | record =>
          rw [hself] at hphase
          cases hphase
          rfl
      | write =>
        cases hlease with
        | write =>
          rw [hself] at hphase
          cases hphase
          rfl
    · rw [show ({ s with lease := _ } : State P Path).stage p = s.stage p from rfl,
        hstage] at hworking
      cases hworking
  | acquired hstage hlease =>
    refine ⟨fun hstarting => ?_, fun w todo _ => ?_⟩
    · rw [stage_enter] at hstarting
      cases hstarting
    · cases hlease with
      | acquired hold =>
        obtain ⟨rfl, hmode⟩ := h.starting hstage _ _ _ hold
        exact .inl ⟨hmode, _, _, _, hself _ _⟩
  | attach hstage hmode hlease =>
    refine ⟨fun hstarting => ?_, fun w todo _ => ?_⟩
    · rw [stage_enter] at hstarting
      cases hstarting
    · cases hlease with
      | attach hidle => exact .inr ⟨hmode, _, hself _ _⟩
  | work hstage hw =>
    refine ⟨fun hstarting => ?_, fun w todo _ => ?_⟩
    · rw [stage_enter] at hstarting
      cases hstarting
    · simpa using h.working _ _ hstage
  | failed hstage =>
    refine ⟨fun hstarting => ?_, fun w todo _ => ?_⟩
    · rw [stage_enter] at hstarting
      cases hstarting
    · exact h.working _ _ hstage
  | publish hstage hrecord =>
    refine ⟨fun hstarting => ?_, fun w todo _ => ?_⟩
    · rw [stage_enter] at hstarting
      cases hstarting
    · simpa using h.working _ _ hstage
  | release hstage hlease =>
    refine ⟨fun hstarting => ?_, fun w todo hworking => ?_⟩
    · rw [show ({ s with lease := _ } : State P Path).stage p = s.stage p from rfl,
        hstage] at hstarting
      cases hstarting
    · rw [show ({ s with lease := _ } : State P Path).stage p = s.stage p from rfl,
        hstage] at hworking
      cases hworking
  | _ =>
    -- the run has ended
    refine ⟨fun hstarting => ?_, fun w todo hworking => ?_⟩
    · rw [stage_enter] at hstarting
      cases hstarting
    · rw [stage_enter] at hworking
      cases hworking

/-- The step lemma of the invariant. -/
theorem Invariant.step (h : Invariant job s) (hstep : Step codec job s p a s') :
    Invariant job s' := by
  constructor
  · rcases hstep.lease with heq | ⟨action, hlease⟩
    · rw [heq]
      exact h.bound
    · exact h.bound.step hlease
  · intro q
    by_cases hq : q = p
    · subst hq
      exact (h.placed q).step hstep
    · obtain ⟨hstage, hphase⟩ := hstep.frame hq
      obtain ⟨hstarting, hworking⟩ := h.placed q
      exact ⟨by rwa [hstage, hphase], by rwa [hstage, hphase]⟩

theorem invariant_initial {built : Path → String → Option BuildCompletion}
    {tested : Path → String → Option TestCompletion} :
    Invariant job (State.initial built tested) :=
  ⟨Lease.bound_initial, fun _ => ⟨fun _ => nofun, nofun⟩⟩

/-- The run lemma. -/
theorem Run.invariant (run : Run codec job history s) : Invariant job s := by
  induction run with
  | initial => exact invariant_initial
  | step _ hstep ih => exact ih.step hstep

/-- Every step of a run was taken in a state where the invariant holds. -/
theorem Run.taken (run : Run codec job history s) {taken : Taken P Path} (h : taken ∈ history) :
    Invariant job taken.state ∧
      ∃ s', Step codec job taken.state taken.process taken.action s' := by
  induction run with
  | initial => cases h
  | step run hstep ih =>
    rcases List.mem_append.mp h with h | h
    · exact ih h
    · obtain rfl := List.mem_singleton.mp h
      exact ⟨run.invariant, _, hstep⟩

theorem Locks.unique {path : Path} (hp : Locks s p path) (hq : Locks s q path) : p = q := by
  obtain ⟨inode, hinode, hp⟩ := hp
  obtain ⟨inode', hinode', hq⟩ := hq
  obtain rfl := Option.some.inj (hinode.symm.trans hinode')
  exact Option.some.inj (hp.symm.trans hq)

/-- Work is done, and a record published, by a run with work left. -/
theorem Step.todo (hstep : Step codec job s p a s')
    (ha : a.Writes ∨ ∃ record, a = .publish record) :
    ∃ w todo, s.stage p = .working (w :: todo) := by
  cases hstep with
  | work hstage => exact ⟨_, _, hstage⟩
  | failed hstage => exact ⟨_, _, hstage⟩
  | publish hstage => exact ⟨_, _, hstage⟩
  | _ =>
    rcases ha with ha | ⟨record, ha⟩
    · cases ha
    · cases ha

/-- A run that does not attach read-only works under the lock of its target, as the owner that it
recorded itself. -/
theorem Run.leased (run : Run codec job history s) {taken : Taken P Path} (h : taken ∈ history)
    (hmode : (job taken.process).mode ≠ .readOnly)
    (ha : taken.action.Writes ∨ ∃ record, taken.action = .publish record) :
    Locks taken.state taken.process (job taken.process).target ∧
      leaseInvocation (taken.state.lease.phase taken.process) =
        ownInvocation (taken.state.lease.phase taken.process) := by
  obtain ⟨hinv, s', hstep⟩ := run.taken h
  obtain ⟨w, todo, hstage⟩ := hstep.todo ha
  rcases (hinv.placed taken.process).working w todo hstage with
    ⟨-, inode, takeover, owner, hphase⟩ | ⟨hreadOnly, -⟩
  · obtain ⟨hlookup, hlock⟩ := hinv.bound _ _ _ _ hphase
    refine ⟨⟨inode, hlookup, hlock nofun⟩, ?_⟩
    rw [hphase]
    rfl
  · exact absurd hreadOnly hmode

/-- A run that attaches read-only has neither the lock nor an invocation. -/
theorem Run.attached (run : Run codec job history s) {taken : Taken P Path} (h : taken ∈ history)
    (hmode : (job taken.process).mode = .readOnly)
    (ha : taken.action.Writes ∨ ∃ record, taken.action = .publish record) :
    ∃ owner, taken.state.lease.phase taken.process =
      .attached (job taken.process).target owner := by
  obtain ⟨hinv, s', hstep⟩ := run.taken h
  obtain ⟨w, todo, hstage⟩ := hstep.todo ha
  rcases (hinv.placed taken.process).working w todo hstage with ⟨hleased, -⟩ | ⟨-, howner⟩
  · exact absurd hmode hleased
  · exact howner

/-- A record names the invocation of the lease that it was published under. -/
theorem Publishes.invocation {command : Command} {invocation : Option String} {record : Record}
    (h : Publishes command invocation record) : record.invocation = invocation := by
  cases h with
  | built completion _ hnone =>
    cases invocation with
    | none => exact hnone
    | some i => rfl
  | tested completion _ hnone =>
    cases invocation with
    | none => exact hnone
    | some i => rfl

theorem Step.record_invocation {record : Record} (hstep : Step codec job s p (.publish record) s') :
    record.invocation = leaseInvocation (s.lease.phase p) := by
  cases hstep with
  | publish _ hrecord => exact hrecord.invocation

/-- A run that has work left can do it up to the publication. -/
theorem Run.workOff {done todo : List Work} (run : Run codec job history s)
    (hdone : .publish ∉ done) (hstage : s.stage p = .working (done ++ todo)) :
    ∃ history' s', Run codec job history' s' ∧ s'.stage p = .working todo ∧
      s'.lease = s.lease := by
  induction done generalizing history s with
  | nil => exact ⟨history, s, run, hstage, rfl⟩
  | cons w done ih =>
    rw [List.mem_cons, not_or] at hdone
    have run' := run.step (.work hstage (Ne.symm hdone.1))
    obtain ⟨history', s', run'', hstage', hlease⟩ := ih run' hdone.2 stage_enter
    exact ⟨history', s', run'', hstage', by rw [hlease, lease_enter, lease_perform]⟩

/-- Runs exclude each other and records name their own runs if and only if the steps of read-only
runs do no harm. -/
theorem managed_iff (run : Run codec job history s) :
    (Exclusive job history ∧ Attributed history) ↔
      ∀ taken ∈ history, (job taken.process).mode = .readOnly → Harmless job taken := by
  constructor
  · rintro ⟨hexclusive, hattributed⟩ taken h hmode
    refine ⟨hexclusive taken h, fun record hrecord => ?_⟩
    obtain ⟨owner, hphase⟩ := run.attached h hmode (.inr ⟨record, hrecord⟩)
    obtain ⟨-, s', hstep⟩ := run.taken h
    rw [hrecord] at hstep
    have hnamed := hstep.record_invocation
    rw [hphase] at hnamed ⊢
    -- an owner that was found would be named by the record
    cases howner : owner with
    | none => rfl
    | some found =>
      rw [howner] at hnamed
      have hown := hattributed taken h record found.invocation hrecord hnamed
      rw [hphase] at hown
      cases hown
  · intro hharmless
    constructor
    · intro taken h hwrites q hq
      by_cases hmode : (job taken.process).mode = .readOnly
      · exact (hharmless taken h hmode).1 hwrites q hq
      · obtain ⟨hlocks, -⟩ := run.leased h hmode (.inl hwrites)
        exact fun hlocksq => hq (hlocksq.unique hlocks)
    · intro taken h record invocation hrecord hinvocation
      obtain ⟨-, s', hstep⟩ := run.taken h
      rw [hrecord] at hstep
      rw [hstep.record_invocation] at hinvocation
      by_cases hmode : (job taken.process).mode = .readOnly
      · rw [(hharmless taken h hmode).2 record hrecord] at hinvocation
        cases hinvocation
      · obtain ⟨-, hown⟩ := run.leased h hmode (.inr ⟨record, hrecord⟩)
        rw [← hown]
        exact hinvocation

end Invariant

/-! ## A read-only build beside another one -/

namespace Sample

open Lease (sampleOwner recordCodec overwrite readOwnerFrom_sampleOwner)

/-- The first run builds under the lease, every other one attaches read-only. -/
def job (p : Nat) : Job Unit where
  command := .build
  mode := if p = 0 then .fail else .readOnly
  target := ()
  buildDir := "build/cy2026-linux"

def completion : BuildCompletion where
  schema := BUILD_COMPLETION_SCHEMA
  target := "cy2026-linux"
  project := { name := "demo", version := "1.0.0" }
  runtime := { id := "runtime", digest := "sha256:abc" }
  compiler := { policy := "host", cc := none, cxx := none, ccVersion := none, cxxVersion := none }
  generator := "Ninja"
  buildDir := "build/cy2026-linux"
  intent := { name := "default", cache := [] }
  invocation := none
  outputs := []
  rendererReports := []
  completedUnix := 2

/-- The first run has acquired the lease. -/
theorem run_acquired : ∃ (history : List (Taken Nat Unit)) (s : State Nat Unit),
    Run (recordCodec sampleOwner) job history s ∧ Locks s 0 () ∧ s.stage 1 = .starting ∧
      s.lease.phase 1 = .idle ∧ s.lease.lookup () = some 0 ∧
      s.lease.content 0 = sampleOwner.body := by
  have run₀ : Run (recordCodec sampleOwner) job [] _ := .initial (fun _ _ => none) (fun _ _ => none)
  have run₁ := run₀.step (show Step _ _ _ 0 (.lease (.openFile ())) _ from
    .acquire rfl nofun .openFile (.openFile rfl rfl))
  have run₂ := run₁.step (show Step _ _ _ 0 (.lease (.lock ())) _ from
    .acquire rfl nofun .lock (.lock rfl rfl))
  have run₃ := run₂.step (show Step _ _ _ 0 (.lease .verify) _ from
    .acquire rfl nofun .verify (.verify "builder" (fun _ => false) rfl))
  have run₄ := run₃.step (show Step _ _ _ 0 (.lease (.record () sampleOwner)) _ from
    .acquire rfl nofun (.record rfl) (.record rfl))
  have run₅ := run₄.step (show Step _ _ _ 0 (.lease (.write () sampleOwner.body.length)) _ from
    .acquire rfl nofun .write (.write rfl (Nat.zero_add _).le))
  rw [Nat.zero_add] at run₅
  have run₆ := run₅.step (show Step _ _ _ 0 (.lease .acquired) _ from .acquired rfl (.acquired rfl))
  refine ⟨_, _, run₆, ⟨0, rfl, rfl⟩, rfl, rfl, rfl, ?_⟩
  have hcontent : overwrite [] 0 ((sampleOwner.body.drop 0).take sampleOwner.body.length) =
      sampleOwner.body := by simp [overwrite]
  exact hcontent

/-- The second run has attached, and found the first one. -/
theorem run_attached : ∃ (history : List (Taken Nat Unit)) (s : State Nat Unit),
    Run (recordCodec sampleOwner) job history s ∧ Locks s 0 () ∧
      s.stage 1 = .working Command.build.work ∧
      s.lease.phase 1 = .attached () (some sampleOwner) := by
  obtain ⟨history, s, run, hlocks, hstage, hphase, hlookup, hcontent⟩ := run_acquired
  have run' := run.step (.attach hstage rfl (.attach hphase))
  refine ⟨_, _, run', hlocks, stage_enter, ?_⟩
  show Phase.attached () ((s.lease.lookup ()).bind fun inode =>
    readOwnerFrom (recordCodec sampleOwner) (s.lease.content inode)) = _
  rw [hlookup, Option.bind_some, hcontent, readOwnerFrom_sampleOwner]

end Sample

open Sample Lease in
theorem managed_iff_sample : ∃ (history : List (Taken Nat Unit)) (s : State Nat Unit),
    Run (recordCodec sampleOwner) job history s ∧ history ≠ [] ∧
      Exclusive job history ∧ Attributed history := by
  have run₀ : Run (recordCodec sampleOwner) job [] _ := .initial (fun _ _ => none) (fun _ _ => none)
  have run₁ := run₀.step (show Step _ _ _ 0 (.lease (.openFile ())) _ from
    .acquire rfl nofun .openFile (.openFile rfl rfl))
  refine ⟨_, _, run₁, List.cons_ne_nil _ _, (managed_iff run₁).mpr ?_⟩
  intro taken htaken hmode
  obtain rfl := List.mem_singleton.mp htaken
  cases hmode

open Sample Lease in
/-- A read-only build publishes a completion under the lock of another run, in its name. -/
theorem readOnly_publishes : ∃ (history : List (Taken Nat Unit)) (s : State Nat Unit),
    Run (recordCodec sampleOwner) job history s ∧
      ¬ Exclusive job history ∧ ¬ Attributed history := by
  obtain ⟨history, s, run, hlocks, hstage, hphase⟩ := run_attached
  have hdone : Work.publish ∉ [.snapshot, .deleteCompletion, .generate, .configure, .compile,
    .verify, .stageTools, .stampReports] := by decide
  obtain ⟨history', s', run', hstage', hlease⟩ := run.workOff hdone hstage
  have hinvocation : leaseInvocation (s'.lease.phase 1) = some sampleOwner.invocation := by
    rw [hlease, hphase]
    rfl
  have run'' := run'.step (.publish hstage' (.built completion _ rfl))
  refine ⟨_, _, run'', fun hexclusive => ?_, fun hattributed => ?_⟩
  · refine hexclusive _ (List.mem_append_right _ (List.mem_singleton.mpr rfl)) trivial
      0 Nat.zero_ne_one ?_
    show Locks s' 0 ()
    rw [Locks, hlease]
    exact hlocks
  · -- the record names the first run
    have hown := hattributed _ (List.mem_append_right _ (List.mem_singleton.mpr rfl)) _
      sampleOwner.invocation rfl (by rw [hinvocation]; rfl)
    rw [hlease, hphase] at hown
    cases hown

end Managed

end OpenStrata
