import OpenStrata.Lib.Overlay
import OpenStrata.Manifest.Renderer

/-!
# Merging renderer evidence

A successful merge overlays the stamped checks of its base with those of its overlay, and both
sides had an owner for their PASSes. What is valid about the inputs is valid about the result,
up to one thing: the PASSes of an earlier session are stranded under a later session that cannot
assert them.

## Main definitions

* `RendererReport.Merged`: what a successful merge establishes
* `strandsPass`: a PASS outlives its session under one that cannot assert it

## Main results

* `merge_ok`: the step lemma
* `mergeAll_valid_iff`: the merge of valid reports is valid unless it strands a PASS
* `mergeSkipping_laws`: a sequence of merges launders nothing
-/

namespace OpenStrata.RendererReport

open Renderer

/-! ## Validity -/

/-- Whatever passes is owned by a session that can assert it. -/
def PassesOwned (report : RendererReport) : Prop :=
  report.isOwned ∨ ∀ check ∈ report.checks, check.status ≠ .pass

theorem refuseUnownedPass_ok {report : RendererReport} {action : String} {u : Unit} :
    report.refuseUnownedPass action = .ok u ↔ report.PassesOwned := by
  unfold refuseUnownedPass PassesOwned
  by_cases howned : report.isOwned
  · simp [howned]
  · rw [if_neg howned, or_iff_right howned]
    cases hfind : report.checks.find? (·.status = .pass) with
    | none =>
      rw [List.find?_eq_none] at hfind
      simpa using hfind
    | some check =>
      refine iff_of_false nofun fun h => ?_
      exact h check (List.mem_of_find?_eq_some hfind) (by simpa using List.find?_some hfind)

/-- Checks that may stand in one report. -/
structure ValidChecks (checks : List RendererCheck) : Prop where
  evidenceId : ∀ check ∈ checks, isEvidenceId check.id
  explained : ∀ check ∈ checks, isExplained check
  nodup : (checks.map (·.id)).Nodup

theorem validateChecks_ok {observed : List String} {checks : List RendererCheck} {u : Unit} :
    validateChecks observed checks = .ok u ↔
      ValidChecks checks ∧ ∀ check ∈ checks, check.id ∉ observed := by
  induction checks generalizing observed with
  | nil => exact iff_of_true rfl ⟨⟨nofun, nofun, List.nodup_nil⟩, nofun⟩
  | cons check rest ih =>
    simp only [validateChecks, validateEvidenceId, Result.bind_ok, Result.failIf_ok, not_not,
      exists_and_left, exists_const, ih]
    constructor
    · rintro ⟨hid, hfresh, hexplained, hrest, hothers⟩
      refine ⟨⟨?_, ?_, ?_⟩, ?_⟩
      · simpa [hid] using hrest.evidenceId
      · simpa [hexplained] using hrest.explained
      · refine List.nodup_cons.mpr ⟨fun hmem => ?_, hrest.nodup⟩
        obtain ⟨other, hother, heq⟩ := List.mem_map.mp hmem
        exact hothers other hother (by simp [heq])
      · rintro other (_ | ⟨_, hother⟩)
        · exact hfresh
        · exact fun hmem => hothers other hother (List.mem_cons_of_mem _ hmem)
    · rintro ⟨hvalid, hobserved⟩
      have hnodup := List.nodup_cons.mp hvalid.nodup
      refine ⟨hvalid.evidenceId _ List.mem_cons_self, hobserved _ List.mem_cons_self,
        hvalid.explained _ List.mem_cons_self,
        ⟨fun c hc => hvalid.evidenceId c (List.mem_cons_of_mem _ hc),
          fun c hc => hvalid.explained c (List.mem_cons_of_mem _ hc), hnodup.2⟩,
        fun c hc => ?_⟩
      rw [List.mem_cons, not_or]
      exact ⟨fun heq => hnodup.1 (List.mem_map.mpr ⟨c, hc, heq⟩),
        hobserved c (List.mem_cons_of_mem _ hc)⟩

/-- A report whose identity and fields are those of an overlay of a manifest. -/
structure WellFormed (manifest : RendererManifest) (report : RendererReport) : Prop where
  name : report.renderer.name = manifest.renderer.name
  device : validateIfSome validateDevice report.device = .ok ()
  session : validateIfSome ProducerSession.validate report.producer = .ok ()
  checks : ValidChecks report.checks

theorem validateOverlayAgainst_ok {manifest : RendererManifest} {report : RendererReport}
    {u : Unit} : report.validateOverlayAgainst manifest = .ok u ↔
      report.WellFormed manifest ∧ report.PassesOwned := by
  simp only [validateOverlayAgainst, validateReport, Result.bind_ok, Result.failIf_ok, not_not,
    if_true, refuseUnownedPass_ok, validateChecks_ok, exists_and_left, exists_const,
    List.not_mem_nil, not_false_eq_true, implies_true, and_true]
  constructor
  · rintro ⟨hname, _, hdevice, _, hsession, howned, hchecks, -⟩
    exact ⟨⟨hname, hdevice, hsession, hchecks⟩, howned⟩
  · rintro ⟨⟨hname, hdevice, hsession, hchecks⟩, howned⟩
    exact ⟨hname, (), hdevice, (), hsession, howned, hchecks, rfl⟩

/-! ## One merge -/

@[simp] theorem stamp_id {session : Option ProducerSession} {check : RendererCheck} :
    (stamp session check).id = check.id := rfl

@[simp] theorem stamp_status {session : Option ProducerSession} {check : RendererCheck} :
    (stamp session check).status = check.status := rfl

@[simp] theorem stamp_detail {session : Option ProducerSession} {check : RendererCheck} :
    (stamp session check).detail = check.detail := rfl

theorem ids_stamp {session : Option ProducerSession} {checks : List RendererCheck} :
    (checks.map (stamp session)).map (·.id) = checks.map (·.id) := by
  rw [List.map_map]
  rfl

/-- Some check of the id failed. -/
def Fails (checks : List RendererCheck) (id : String) : Prop :=
  ∃ check ∈ checks, check.id = id ∧ check.status = .fail

/-- Merging one check puts it in place, and a failed id stays failed. -/
theorem mergeCheck_ok {replace : Bool} {incoming : RendererCheck}
    {checks result : List RendererCheck} (h : mergeCheck replace incoming checks = .ok result) :
    result = Overlay.put (·.id) incoming checks ∧ ∀ id, Fails checks id → Fails result id := by
  induction checks generalizing result with
  | nil =>
    obtain rfl := Except.ok.inj h
    exact ⟨rfl, fun _ ⟨_, hmem, _⟩ => by cases hmem⟩
  | cons check rest ih =>
    rw [mergeCheck] at h
    rw [Overlay.put]
    by_cases hid : check.id = incoming.id
    · simp only [if_pos hid, Result.bind_ok, Result.failIf_ok, exists_and_left,
        exists_const] at h
      obtain ⟨-, hdowngrade, h⟩ := h
      obtain rfl := Except.ok.inj h
      refine ⟨by rw [if_pos hid], ?_⟩
      rintro id ⟨failed, hmem, rfl, hfail⟩
      rcases List.mem_cons.mp hmem with rfl | hmem
      · -- The check in its place failed, so the incoming one failed too.
        have hstatus : incoming.status = .fail := by
          by_contra hne
          exact hdowngrade ⟨hfail, hne⟩
        exact ⟨incoming, List.mem_cons_self, hid.symm, hstatus⟩
      · exact ⟨failed, List.mem_cons_of_mem _ hmem, rfl, hfail⟩
    · simp only [if_neg hid, Result.bind_ok] at h
      obtain ⟨merged, hmerged, h⟩ := h
      obtain rfl := Except.ok.inj h
      obtain ⟨rfl, hfails⟩ := ih hmerged
      refine ⟨by rw [if_neg hid], ?_⟩
      rintro id ⟨failed, hmem, heq, hfail⟩
      rcases List.mem_cons.mp hmem with rfl | hmem
      · exact ⟨failed, List.mem_cons_self, heq, hfail⟩
      · obtain ⟨other, hother, hrest⟩ := hfails id ⟨failed, hmem, heq, hfail⟩
        exact ⟨other, List.mem_cons_of_mem _ hother, hrest⟩

theorem mergeChecks_ok {replace : Bool} {checks incoming result : List RendererCheck}
    (h : mergeChecks replace checks incoming = .ok result) :
    result = Overlay.putAll (·.id) checks incoming ∧ ∀ id, Fails checks id → Fails result id := by
  induction incoming generalizing checks with
  | nil =>
    obtain rfl := Except.ok.inj h
    exact ⟨rfl, fun _ hfails => hfails⟩
  | cons check rest ih =>
    obtain ⟨merged, hmerged, hrest⟩ := Result.bind_ok.mp h
    obtain ⟨rfl, hcheck⟩ := mergeCheck_ok hmerged
    obtain ⟨heq, hfails⟩ := ih hrest
    exact ⟨heq, fun id hid => hfails id (hcheck id hid)⟩

theorem mergeDevice_ok {name : String} {left right device : Option RendererDevice}
    (h : mergeDevice name left right = .ok device) : device = left.or right := by
  unfold mergeDevice at h
  split at h
  · split at h
    · cases h
    · exact (Except.ok.inj h).symm
  · exact (Except.ok.inj h).symm
  · exact (Except.ok.inj h).symm

/-- The incoming session is the later one whenever both sides have one. -/
theorem laterSession_eq {base incoming : Option ProducerSession} {u : Unit}
    (h : checkSessions base incoming = .ok u) :
    laterSession base incoming = incoming.or base := by
  cases base with
  | none => cases incoming <;> rfl
  | some base =>
    cases incoming with
    | none => rfl
    | some incoming =>
      simp only [checkSessions, Result.bind_ok, Result.failIf_ok, exists_and_left,
        exists_const] at h
      rw [laterSession, if_pos (not_lt.mp h.2)]
      rfl

/-- What a successful merge establishes about its inputs and its result. -/
structure Merged (base overlay : RendererReport) (report : RendererReport) : Prop where
  renderer : base.renderer = overlay.renderer
  baseSession : validateIfSome ProducerSession.validate base.producer = .ok ()
  overlaySession : validateIfSome ProducerSession.validate overlay.producer = .ok ()
  baseOwned : base.PassesOwned
  overlayOwned : overlay.PassesOwned
  renderer_eq : report.renderer = base.renderer
  device_eq : report.device = base.device.or overlay.device
  producer_eq : report.producer = overlay.producer.or base.producer
  checks_eq : report.checks = Overlay.putAll (·.id) (base.checks.map (stamp base.producer))
    (overlay.checks.map (stamp overlay.producer))
  fails : ∀ id, Fails base.checks id → Fails report.checks id

theorem merge_ok {base overlay report : RendererReport} {replace : Bool}
    (h : base.merge overlay replace = .ok report) : Merged base overlay report := by
  simp only [merge, Result.bind_ok, Result.failIf_ok, not_not, refuseUnownedPass_ok,
    exists_and_left, exists_const] at h
  obtain ⟨hrenderer, _, hoverlay, _, hbase, _, hsessions, hbaseOwned, hoverlayOwned, device,
    hdevice, checks, hchecks, h⟩ := h
  obtain rfl := Except.ok.inj h
  obtain ⟨hchecks, hfails⟩ := mergeChecks_ok hchecks
  refine ⟨hrenderer, hbase, hoverlay, hbaseOwned, hoverlayOwned, rfl, mergeDevice_ok hdevice,
    laterSession_eq hsessions, hchecks, ?_⟩
  rintro id ⟨failed, hmem, heq, hfail⟩
  exact hfails id ⟨stamp base.producer failed, List.mem_map.mpr ⟨failed, hmem, rfl⟩, heq, hfail⟩

/-- Whatever is found in a merged report was found, up to its stamp, in one of the inputs. -/
theorem Merged.mem {base overlay report : RendererReport} (h : Merged base overlay report)
    {check : RendererCheck} (hmem : check ∈ report.checks) :
    (∃ c ∈ base.checks, check = stamp base.producer c) ∨
      ∃ c ∈ overlay.checks, check = stamp overlay.producer c := by
  rw [h.checks_eq] at hmem
  rcases Overlay.mem_of_mem_putAll hmem with hmem | hmem
  · obtain ⟨c, hc, rfl⟩ := List.mem_map.mp hmem
    exact .inl ⟨c, hc, rfl⟩
  · obtain ⟨c, hc, rfl⟩ := List.mem_map.mp hmem
    exact .inr ⟨c, hc, rfl⟩

theorem Merged.mem_ids {base overlay report : RendererReport} (h : Merged base overlay report)
    {id : String} : id ∈ report.checks.map (·.id) ↔
      id ∈ base.checks.map (·.id) ∨ id ∈ overlay.checks.map (·.id) := by
  rw [h.checks_eq, Overlay.mem_keys_putAll, ids_stamp, ids_stamp]

theorem Merged.nodup_ids {base overlay report : RendererReport} (h : Merged base overlay report)
    (hbase : (base.checks.map (·.id)).Nodup) : (report.checks.map (·.id)).Nodup := by
  rw [h.checks_eq]
  exact Overlay.nodup_keys_putAll (by rwa [ids_stamp])

theorem validateIfSome_or {α : Type} {validate : α → Result Unit} {a b : Option α}
    (ha : validateIfSome validate a = .ok ()) (hb : validateIfSome validate b = .ok ()) :
    validateIfSome validate (a.or b) = .ok () := by
  cases a with
  | none => exact hb
  | some a => exact ha

/-- Whatever its owner, a merged report has the identity and the fields of an overlay. -/
theorem Merged.wellFormed {manifest : RendererManifest} {base overlay report : RendererReport}
    (h : Merged base overlay report) (hbase : base.WellFormed manifest)
    (hoverlay : overlay.WellFormed manifest) : report.WellFormed manifest := by
  refine ⟨h.renderer_eq ▸ hbase.name, ?_, ?_, ?_, ?_, h.nodup_ids hbase.checks.nodup⟩
  · rw [h.device_eq]
    exact validateIfSome_or hbase.device hoverlay.device
  · rw [h.producer_eq]
    exact validateIfSome_or hoverlay.session hbase.session
  · intro check hcheck
    rcases h.mem hcheck with ⟨c, hc, rfl⟩ | ⟨c, hc, rfl⟩
    · exact hbase.checks.evidenceId c hc
    · exact hoverlay.checks.evidenceId c hc
  · intro check hcheck
    rcases h.mem hcheck with ⟨c, hc, rfl⟩ | ⟨c, hc, rfl⟩
    · exact hbase.checks.explained c hc
    · exact hoverlay.checks.explained c hc

/-! ## Stranded passes -/

def lists (report : RendererReport) (id : String) : Bool := report.checks.any (·.id == id)

/-- A PASS of the report whose id no later report lists. -/
def leavesPass (report : RendererReport) (later : List RendererReport) : Bool :=
  report.checks.any fun check => check.status == .pass && later.all fun r => !r.lists check.id

/-- Some report leaves a PASS to the end of the sequence. -/
def lastingPass : List RendererReport → Bool
  | [] => false
  | report :: later => report.leavesPass later || lastingPass later

/-- The session of the last report that has one. -/
def lastSession : List RendererReport → Option ProducerSession
  | [] => none
  | report :: later => (lastSession later).or report.producer

/-- A PASS outlives its session under a last one that cannot assert it. -/
def strandsPass (reports : List RendererReport) : Bool :=
  (lastSession reports).any (!·.canAssertPass) && lastingPass reports

theorem lists_iff {report : RendererReport} {id : String} :
    report.lists id ↔ id ∈ report.checks.map (·.id) := by
  simp [lists, List.any_eq_true]

theorem leavesPass_iff {report : RendererReport} {later : List RendererReport} :
    report.leavesPass later ↔ ∃ check ∈ report.checks, check.status = .pass ∧
      ∀ r ∈ later, check.id ∉ r.checks.map (·.id) := by
  simp only [leavesPass, List.any_eq_true, Bool.and_eq_true, beq_iff_eq, List.all_eq_true,
    Bool.not_eq_true', ← Bool.not_eq_true, lists_iff]

/-- A merge keeps what its two sides leave, the base under the overlay. -/
theorem Merged.leavesPass {base overlay report : RendererReport} {later : List RendererReport}
    (h : Merged base overlay report) (hbase : (base.checks.map (·.id)).Nodup)
    (hoverlay : (overlay.checks.map (·.id)).Nodup) :
    report.leavesPass later ↔ base.leavesPass (overlay :: later) ∨ overlay.leavesPass later := by
  simp only [leavesPass_iff, List.forall_mem_cons]
  constructor
  · rintro ⟨check, hmem, hpass, hlater⟩
    by_cases hid : check.id ∈ overlay.checks.map (·.id)
    · obtain ⟨c, hc, hceq⟩ := List.mem_map.mp hid
      -- The overlay lists the id once, so the check is its own.
      have hstamped : stamp overlay.producer c ∈ report.checks := by
        rw [h.checks_eq]
        exact Overlay.mem_putAll_of_mem (List.mem_map.mpr ⟨c, hc, rfl⟩) (by rwa [ids_stamp])
      obtain rfl := List.inj_on_of_nodup_map (h.nodup_ids hbase) hstamped hmem hceq
      exact .inr ⟨c, hc, hpass, hlater⟩
    · rcases h.mem hmem with ⟨c, hc, rfl⟩ | ⟨c, hc, rfl⟩
      · exact .inl ⟨c, hc, hpass, hid, hlater⟩
      · exact absurd (List.mem_map.mpr ⟨c, hc, rfl⟩) hid
  · rintro (⟨c, hc, hpass, hid, hlater⟩ | ⟨c, hc, hpass, hlater⟩)
    · refine ⟨stamp base.producer c, ?_, hpass, hlater⟩
      rw [h.checks_eq]
      refine Overlay.mem_putAll_of_not_mem (List.mem_map.mpr ⟨c, hc, rfl⟩) ?_
      rwa [ids_stamp]
    · refine ⟨stamp overlay.producer c, ?_, hpass, hlater⟩
      rw [h.checks_eq]
      exact Overlay.mem_putAll_of_mem (List.mem_map.mpr ⟨c, hc, rfl⟩) (by rwa [ids_stamp])

theorem Merged.strandsPass {base overlay report : RendererReport} {later : List RendererReport}
    (h : Merged base overlay report) (hbase : (base.checks.map (·.id)).Nodup)
    (hoverlay : (overlay.checks.map (·.id)).Nodup) :
    strandsPass (report :: later) = strandsPass (base :: overlay :: later) := by
  have hsession : lastSession (report :: later) = lastSession (base :: overlay :: later) := by
    rw [lastSession, lastSession, lastSession, h.producer_eq, Option.or_assoc]
  have hlasting : lastingPass (report :: later) = lastingPass (base :: overlay :: later) := by
    rw [Bool.eq_iff_iff]
    simp only [lastingPass, Bool.or_eq_true, h.leavesPass hbase hoverlay, or_assoc]
  rw [RendererReport.strandsPass, RendererReport.strandsPass, hsession, hlasting]

/-- A report on its own owns its PASSes unless it strands one, when silence about the session
comes with no PASS. -/
theorem passesOwned_iff {report : RendererReport}
    (hsilent : report.producer = none → ∀ check ∈ report.checks, check.status ≠ .pass) :
    report.PassesOwned ↔ strandsPass [report] = false := by
  have hleaves : report.leavesPass [] ↔ ∃ check ∈ report.checks, check.status = .pass := by
    simp [leavesPass_iff]
  rw [RendererReport.strandsPass, lastingPass, lastingPass, Bool.or_false, lastSession, lastSession,
    Option.none_or, PassesOwned, isOwned]
  cases hproducer : report.producer with
  | none => simpa using hsilent hproducer
  | some session =>
    rw [Option.any_some, Option.any_some, Bool.and_eq_false_iff, Bool.not_eq_false',
      ← Bool.not_eq_true (report.leavesPass []), hleaves]
    simp

/-- The run lemma of the merge: fields stay well formed, and the result owns its PASSes unless
the sequence strands one. -/
theorem mergeAll_ok {manifest : RendererManifest} {base report : RendererReport}
    {inputs : List Incoming} (hbase : base.WellFormed manifest)
    (hsilent : base.producer = none → ∀ check ∈ base.checks, check.status ≠ .pass)
    (hinputs : ∀ input ∈ inputs, input.1.WellFormed manifest)
    (h : base.mergeAll inputs = .ok report) : report.WellFormed manifest ∧
      (report.PassesOwned ↔ strandsPass (base :: inputs.map (·.1)) = false) := by
  induction inputs generalizing base with
  | nil =>
    obtain rfl := Except.ok.inj h
    exact ⟨hbase, passesOwned_iff hsilent⟩
  | cons input rest ih =>
    obtain ⟨merged, hmerge, hrest⟩ := Result.bind_ok.mp h
    have hmerged := merge_ok hmerge
    have hinput := hinputs input List.mem_cons_self
    rw [List.map_cons, ← hmerged.strandsPass hbase.checks.nodup hinput.checks.nodup]
    refine ih (hmerged.wellFormed hbase hinput) ?_
      (fun other hother => hinputs other (List.mem_cons_of_mem _ hother)) hrest
    -- No session on either side: neither side had a PASS to contribute.
    intro hnone check hcheck
    rw [hmerged.producer_eq, Option.or_eq_none_iff] at hnone
    rcases hmerged.mem hcheck with ⟨c, hc, rfl⟩ | ⟨c, hc, rfl⟩
    · refine hmerged.baseOwned.resolve_left ?_ c hc
      simp [isOwned, hnone.2]
    · refine hmerged.overlayOwned.resolve_left ?_ c hc
      simp [isOwned, hnone.1]

/-- The merge of valid reports is valid exactly when it strands no PASS under a last session
that cannot assert it. -/
theorem mergeAll_valid_iff (manifest : RendererManifest) (first : RendererReport)
    (hfirst : first.validateOverlayAgainst manifest = .ok ()) :
    (∀ overlay replace report, overlay.validateOverlayAgainst manifest = .ok () →
      first.merge overlay replace = .ok report →
      (report.validateOverlayAgainst manifest = .ok () ↔ strandsPass [first, overlay] = false)) ∧
    ∀ (inputs : List Incoming) report,
      (∀ input ∈ inputs, input.1.validateOverlayAgainst manifest = .ok ()) →
      first.mergeAll inputs = .ok report →
      (report.validateOverlayAgainst manifest = .ok () ↔
        strandsPass (first :: inputs.map (·.1)) = false) := by
  have hrun : ∀ (inputs : List Incoming) report,
      (∀ input ∈ inputs, input.1.validateOverlayAgainst manifest = .ok ()) →
      first.mergeAll inputs = .ok report →
      (report.validateOverlayAgainst manifest = .ok () ↔
        strandsPass (first :: inputs.map (·.1)) = false) := by
    intro inputs report hinputs h
    obtain ⟨hwell, howned⟩ := validateOverlayAgainst_ok.mp hfirst
    have hsilent : first.producer = none → ∀ check ∈ first.checks, check.status ≠ .pass := by
      intro hnone
      refine howned.resolve_left ?_
      simp [isOwned, hnone]
    obtain ⟨hreport, hiff⟩ := mergeAll_ok hwell hsilent
      (fun input hinput => (validateOverlayAgainst_ok.mp (hinputs input hinput)).1) h
    rw [validateOverlayAgainst_ok, ← hiff]
    exact and_iff_right hreport
  refine ⟨fun overlay replace report hoverlay h => ?_, hrun⟩
  refine hrun [(overlay, replace)] report ?_ (Result.bind_ok.mpr ⟨report, h, rfl⟩)
  rintro input (_ | ⟨_, hmem⟩)
  · exact hoverlay
  · cases hmem

/-- A manifest that expects nothing but the name. -/
def sampleManifest : RendererManifest where
  schema := RENDERER_SCHEMA
  renderer := { name := "sample-renderer" }
  composition := { backend := "vulkan", sceneInputs := ["headless"], units := ∅, adapters := ∅ }
  renderProducts := { required := ["color"] }
  frame := { contexts := 3, completion := "explicit" }
  validation := {
    gpuSmoke := true
    validationMessagesAreErrors := true
    assertions := ["renderer.core.boundary"] }

def sampleSession (id : String) (started : Nat) (outcome : SessionOutcome) : ProducerSession where
  id
  kind := "ctest"
  target := "hdSample"
  startedUnix := started
  completedUnix := some (started + 50)
  outcome

def sampleReport (producer : Option ProducerSession) (checks : List RendererCheck) :
    RendererReport where
  schema := RENDERER_REPORT_SCHEMA
  renderer := { name := "sample-renderer" }
  device := none
  producer
  checks

/-- A completed, successful session and its PASS. -/
def goodReport : RendererReport := sampleReport (some (sampleSession "g1" 100 .success))
  [{ id := "renderer.core.boundary", status := .pass, detail := none, producer := none }]

/-- A later session that failed and says so, with no PASS. -/
def failedReport : RendererReport := sampleReport (some (sampleSession "f1" 200 .failure))
  [{ id := "renderer.gpu.frame", status := .fail, detail := some "device lost",
     producer := none }]

/-- The merge of the two, which the failed session owns. -/
def strandedReport : RendererReport := sampleReport (some (sampleSession "f1" 200 .failure))
  [{ id := "renderer.core.boundary", status := .pass, detail := none, producer := some "g1" },
   { id := "renderer.gpu.frame", status := .fail, detail := some "device lost",
     producer := some "f1" }]

theorem mergeAll_valid_iff_sample :
    strandedReport.validateOverlayAgainst sampleManifest = .ok () ↔
      strandsPass [goodReport, failedReport] = false :=
  (mergeAll_valid_iff sampleManifest goodReport rfl).1 failedReport false strandedReport rfl rfl

theorem merge_not_closed : ¬ ∀ (manifest : RendererManifest) (a b report : RendererReport)
    (replace : Bool), a.validateOverlayAgainst manifest = .ok () →
      b.validateOverlayAgainst manifest = .ok () → a.merge b replace = .ok report →
      report.validateOverlayAgainst manifest = .ok () := by
  intro h
  have hvalid := h sampleManifest goodReport failedReport strandedReport false rfl rfl rfl
  rw [validateOverlayAgainst_ok] at hvalid
  have howned : strandedReport.isOwned = false := by decide
  rcases hvalid.2 with howned' | hpass
  · rw [howned] at howned'
    cases howned'
  · exact hpass _ List.mem_cons_self rfl

/-! ## Sequences of merges -/

/-- What every merge of a sequence preserves holds at its end. -/
theorem mergeSkipping_induction {P : RendererReport → Prop} {base : RendererReport}
    {inputs : List Incoming} (hbase : P base)
    (hstep : ∀ base input merged, input ∈ inputs → base.merge input.1 input.2 = .ok merged →
      P base → P merged) : P (base.mergeSkipping inputs) := by
  induction inputs generalizing base with
  | nil => exact hbase
  | cons input rest ih =>
    have hrest : ∀ base other merged, other ∈ rest → base.merge other.1 other.2 = .ok merged →
        P base → P merged :=
      fun base other merged hother => hstep base other merged (List.mem_cons_of_mem _ hother)
    rw [mergeSkipping]
    split
    · rename_i merged hmerge
      exact ih (hstep base input merged List.mem_cons_self hmerge hbase) hrest
    · exact ih hbase hrest

theorem mergeSkipping_append {base : RendererReport} {before after : List Incoming} :
    base.mergeSkipping (before ++ after) =
      (base.mergeSkipping before).mergeSkipping after := by
  induction before generalizing base with
  | nil => rfl
  | cons input rest ih =>
    rw [List.cons_append, mergeSkipping, mergeSkipping]
    split <;> exact ih

theorem passed_iff {report : RendererReport} :
    report.passed ↔ ∀ id, ¬ Fails report.checks id := by
  simp only [passed, Fails, Bool.not_eq_true', List.any_eq_false, beq_iff_eq]
  constructor
  · rintro h id ⟨check, hmem, -, hfail⟩
    exact h check hmem hfail
  · intro h check hmem hfail
    exact h check.id ⟨check, hmem, rfl, hfail⟩

/-- The PASS, up to its stamp, of an input with a completed, successful session. -/
def OwnedPass (inputs : List RendererReport) (check : RendererCheck) : Prop :=
  ∃ input ∈ inputs, input.isOwned ∧ ∃ c ∈ input.checks, c.id = check.id ∧ c.status = .pass ∧
    c.detail = check.detail

/-- Every PASS of the report is one of an owned input. -/
def PassesFrom (inputs : List RendererReport) (report : RendererReport) : Prop :=
  ∀ check ∈ report.checks, check.status = .pass → OwnedPass inputs check

/-- A report whose PASSes are owned vouches for them as an input of its own. -/
theorem PassesOwned.passesFrom {inputs : List RendererReport} {report : RendererReport}
    (h : report.PassesOwned) (hmem : report ∈ inputs) : report.PassesFrom inputs := by
  intro check hcheck hpass
  refine ⟨report, hmem, h.resolve_right ?_, check, hcheck, rfl, hpass, rfl⟩
  exact fun hnone => hnone check hcheck hpass

theorem Merged.passesFrom {inputs : List RendererReport} {base overlay report : RendererReport}
    (h : Merged base overlay report) (hbase : base.PassesFrom inputs)
    (hoverlay : overlay ∈ inputs) : report.PassesFrom inputs := by
  intro check hcheck hpass
  rcases h.mem hcheck with ⟨c, hc, rfl⟩ | ⟨c, hc, rfl⟩
  · exact hbase c hc hpass
  · exact h.overlayOwned.passesFrom hoverlay c hc hpass

/-- No merge of the sequence succeeds on the report. -/
def Refuses (base : RendererReport) (inputs : List Incoming) : Prop :=
  ∀ input ∈ inputs, ∀ merged, base.merge input.1 input.2 ≠ .ok merged

/-- Once a merge has succeeded, every PASS is one of an owned input. -/
theorem mergeSkipping_passes {inputs : List RendererReport} {first : RendererReport}
    {incoming : List Incoming} (hfirst : first ∈ inputs)
    (hincoming : ∀ input ∈ incoming, input.1 ∈ inputs) :
    (first.mergeSkipping incoming).PassesFrom inputs ∨
      first.mergeSkipping incoming = first ∧ first.Refuses incoming := by
  induction incoming with
  | nil => exact .inr ⟨rfl, nofun⟩
  | cons input rest ih =>
    have hrest := fun other hother => hincoming other (List.mem_cons_of_mem input hother)
    rw [mergeSkipping]
    split
    · rename_i merged hmerge
      have hmerged := merge_ok hmerge
      left
      refine mergeSkipping_induction (P := PassesFrom inputs) ?_ ?_
      · exact hmerged.passesFrom (hmerged.baseOwned.passesFrom hfirst)
          (hincoming input List.mem_cons_self)
      · intro base other result hother hmerge hbase
        exact (merge_ok hmerge).passesFrom hbase (hrest other hother)
    · rename_i error hmerge
      refine (ih hrest).imp_right fun ⟨heq, hrefuses⟩ => ⟨heq, ?_⟩
      rintro other (_ | ⟨_, hother⟩) merged
      · rw [hmerge]
        exact nofun
      · exact hrefuses other hother merged

/-- Along a sequence of merges, failing ones skipped, a failed id stays failed, no id is lost or
newly repeated, and a PASS is one of an input with a completed, successful session, unless no
merge succeeded. -/
theorem mergeSkipping_laws (first : RendererReport) (before after : List Incoming) :
    (∀ id, Fails (first.mergeSkipping before).checks id →
      Fails (first.mergeSkipping (before ++ after)).checks id) ∧
    ((first.mergeSkipping (before ++ after)).passed → (first.mergeSkipping before).passed) ∧
    (∀ id ∈ (first.mergeSkipping before).checks.map (·.id),
      id ∈ (first.mergeSkipping (before ++ after)).checks.map (·.id)) ∧
    ((∀ report ∈ first :: before.map (·.1), (report.checks.map (·.id)).Nodup) →
      ((first.mergeSkipping before).checks.map (·.id)).Nodup) ∧
    ((∀ check ∈ (first.mergeSkipping before).checks, check.status = .pass →
        OwnedPass (first :: before.map (·.1)) check) ∨
      first.mergeSkipping before = first ∧ first.Refuses before) := by
  have hfails : ∀ id, Fails (first.mergeSkipping before).checks id →
      Fails (first.mergeSkipping (before ++ after)).checks id := by
    intro id hfail
    rw [mergeSkipping_append]
    exact mergeSkipping_induction (P := fun report => Fails report.checks id) hfail
      fun _ _ _ _ hmerge => (merge_ok hmerge).fails id
  refine ⟨hfails, ?_, ?_, ?_, ?_⟩
  · rw [passed_iff, passed_iff]
    exact fun hpassed id hfail => hpassed id (hfails id hfail)
  · intro id hid
    rw [mergeSkipping_append]
    exact mergeSkipping_induction (P := fun report => id ∈ report.checks.map (·.id)) hid
      fun _ _ _ _ hmerge hbase => (merge_ok hmerge).mem_ids.mpr (.inl hbase)
  · intro hnodup
    exact mergeSkipping_induction (P := fun report => (report.checks.map (·.id)).Nodup)
      (hnodup first List.mem_cons_self) fun _ _ _ _ hmerge => (merge_ok hmerge).nodup_ids
  · exact mergeSkipping_passes List.mem_cons_self fun input hinput =>
      List.mem_cons_of_mem _ (List.mem_map.mpr ⟨input, hinput, rfl⟩)

/-- A PASS of a session that failed. -/
def unownedReport : RendererReport := sampleReport (some (sampleSession "f1" 50 .failure))
  [{ id := "renderer.gpu.frame", status := .pass, detail := none, producer := none }]

/-- The merge refuses the base's PASS and leaves the base, PASS included, in place. -/
theorem mergeSkipping_unowned : ¬ ∀ (first : RendererReport) (inputs : List Incoming),
    ∀ check ∈ (first.mergeSkipping inputs).checks, check.status = .pass →
      OwnedPass (first :: inputs.map (·.1)) check := by
  intro h
  obtain ⟨input, hinput, howned, c, hc, hid, -, -⟩ :=
    h unownedReport [(goodReport, true)] _ List.mem_cons_self rfl
  rcases List.mem_cons.mp hinput with rfl | hinput
  · revert howned
    decide
  · obtain rfl := List.mem_singleton.mp hinput
    obtain rfl := List.mem_singleton.mp hc
    revert hid
    decide

end OpenStrata.RendererReport
