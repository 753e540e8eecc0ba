import OpenStrata.Manifest.RendererMerge

/-!
# Provenance of merged renderer evidence

Which report contributed a check of a merged report depends on the inputs alone; the stamp of the
check is written along the way, from whichever session owns the merged report at the time. A
check that comes without a session keeps no stamp only until the next merge of a report that has
an owner by then.

## Main definitions

* `contributions`: the checks of a sequence of merges, with the reports they come from
* `Contribution.attributed`: the check with the stamp of its own report's session
* `misattributes`: the sequences that stamp a check with a session that did not contribute it
* `Regroups`: the triples whose merge does not depend on the grouping

## Main results

* `mergeAll_erased`: up to stamps, a sequence of merges has the contributed checks
* `mergeAll_attributed_iff`, `merge_assoc_iff`: when the stamps are those of the contributors
-/

namespace OpenStrata.RendererReport

/-- A check of an input report. -/
structure Contribution where
  report : RendererReport
  check : RendererCheck

namespace Contribution

def id (c : Contribution) : String := c.check.id

/-- The check with the stamp of the session of its report. -/
def attributed (c : Contribution) : RendererCheck :=
  { c.check with producer := c.report.producer.map (·.id) }

end Contribution

def ownContributions (report : RendererReport) : List Contribution :=
  report.checks.map fun check => { report, check }

/-- The contributed checks after a sequence of overlays. -/
def overlayContributions : List Contribution → List RendererReport → List Contribution
  | contributed, [] => contributed
  | contributed, overlay :: rest =>
    overlayContributions
      (Overlay.putAll Contribution.id contributed overlay.ownContributions) rest

/-- The checks of a sequence of merges, each with the report that contributed it. -/
def contributions (first : RendererReport) (overlays : List RendererReport) : List Contribution :=
  overlayContributions first.ownContributions overlays

/-- The id of the session of a report. -/
def sessionId (report : RendererReport) : Option String := report.producer.map (·.id)

/-- Every stamp is that of the report's own session. -/
def SingleStamped (report : RendererReport) : Prop :=
  ∀ check ∈ report.checks, ∀ id, check.producer = some id → report.sessionId = some id

/-- Stamping with its own session attributes a check, whatever is stamped on it later. -/
theorem SingleStamped.stamp_eq {report : RendererReport} (h : report.SingleStamped)
    {check : RendererCheck} (hmem : check ∈ report.checks) :
    stamp report.producer check = { check with producer := report.sessionId } := by
  rw [RendererReport.stamp]
  cases hproducer : check.producer with
  | none => rfl
  | some id => rw [h check hmem id hproducer, Option.some_or]

/-! ## The trace of a sequence -/

/-- A contribution with the stamp that it carries by now. -/
abbrev Traced := Contribution × Option String

namespace Traced

def id (t : Traced) : String := t.1.id

def check (t : Traced) : RendererCheck := { t.1.check with producer := t.2 }

/-- The stamp of a merge whose side the contribution is on. -/
def restamp (owner : Option ProducerSession) (t : Traced) : Traced :=
  (t.1, t.2.or (owner.map (·.id)))

end Traced

def ownTrace (report : RendererReport) : List Traced :=
  report.checks.map fun check => ({ report, check }, check.producer)

theorem check_ownTrace {report : RendererReport} :
    report.ownTrace.map Traced.check = report.checks := by
  rw [ownTrace, List.map_map]
  exact List.map_id _

theorem SingleStamped.restamp {report : RendererReport} (h : report.SingleStamped) {t : Traced}
    (ht : t ∈ report.ownTrace) : t.1.report = report ∧ t.2.or report.sessionId = report.sessionId := by
  obtain ⟨check, hcheck, rfl⟩ := List.mem_map.mp ht
  exact ⟨rfl, congrArg RendererCheck.producer (h.stamp_eq hcheck)⟩

/-- What a report that merges led to shows of its contributions: a contribution with a session
is at worst not stamped yet, one without is stamped under an owner only. -/
structure Traces (report : RendererReport) (traced : List Traced) : Prop where
  checks : report.checks = traced.map Traced.check
  known : ∀ t ∈ traced, t.1.report.sessionId.isSome →
    t.2.or report.sessionId = t.1.report.sessionId
  silent : report.sessionId = none → ∀ t ∈ traced, t.1.report.sessionId = none ∧ t.2 = none

theorem traces_own {report : RendererReport} (h : report.SingleStamped) :
    Traces report report.ownTrace := by
  refine ⟨check_ownTrace.symm, ?_, ?_⟩
  · intro t ht _
    obtain ⟨hreport, hstamp⟩ := h.restamp ht
    rw [hreport, hstamp]
  · intro hnone t ht
    obtain ⟨hreport, hstamp⟩ := h.restamp ht
    rw [hreport]
    rw [hnone, Option.or_none] at hstamp
    exact ⟨hnone, hstamp⟩

/-- The trace of one merge: the base's contributions are stamped with its owner, those of the
overlay with their own session. -/
def mergeTrace (owner : Option ProducerSession) (traced : List Traced)
    (overlay : RendererReport) : List Traced :=
  Overlay.putAll Traced.id (traced.map (Traced.restamp owner))
    (overlay.ownTrace.map (Traced.restamp overlay.producer))

theorem contributions_mergeTrace {owner : Option ProducerSession} {traced : List Traced}
    {overlay : RendererReport} : (mergeTrace owner traced overlay).map (·.1) =
      Overlay.putAll Contribution.id (traced.map (·.1)) overlay.ownContributions := by
  have hid : ∀ t : Traced, t.1.id = t.id := fun _ => rfl
  refine (Overlay.map_putAll Prod.fst hid).trans ?_
  rw [List.map_map, List.map_map, ownTrace, List.map_map]
  rfl

theorem check_mergeTrace {base overlay report : RendererReport} {traced : List Traced}
    (hbase : base.checks = traced.map Traced.check) (h : Merged base overlay report) :
    report.checks = (mergeTrace base.producer traced overlay).map Traced.check := by
  have hid : ∀ t : Traced, RendererCheck.id t.check = t.id := fun _ => rfl
  refine Eq.trans ?_ (Overlay.map_putAll Traced.check hid).symm
  have howned : overlay.ownTrace.map Traced.check = overlay.checks := check_ownTrace
  rw [h.checks_eq, hbase, ← howned]
  simp only [List.map_map]
  rfl

/-- The step lemma of the trace. -/
theorem Traces.merge {base overlay report : RendererReport} {traced : List Traced}
    (h : Traces base traced) (hmerged : Merged base overlay report)
    (hoverlay : overlay.SingleStamped) :
    Traces report (mergeTrace base.producer traced overlay) := by
  have howner : report.sessionId = overlay.sessionId.or base.sessionId := by
    rw [sessionId, hmerged.producer_eq, Option.map_or]
    rfl
  refine ⟨check_mergeTrace h.checks hmerged, ?_, ?_⟩
  · intro t ht hsession
    rcases Overlay.mem_of_mem_putAll ht with ht | ht
    · obtain ⟨t, htraced, rfl⟩ := List.mem_map.mp ht
      have hknown : t.2.or (base.producer.map (·.id)) = _ := h.known t htraced hsession
      show (t.2.or (base.producer.map (·.id))).or _ = t.1.report.sessionId
      rw [hknown]
      exact Option.or_of_isSome hsession
    · obtain ⟨t, htraced, rfl⟩ := List.mem_map.mp ht
      obtain ⟨hreport, hstamp⟩ := hoverlay.restamp htraced
      show (t.2.or overlay.sessionId).or _ = t.1.report.sessionId
      rw [hstamp, hreport]
      exact Option.or_of_isSome (hreport ▸ hsession)
  · intro hnone t ht
    rw [howner, Option.or_eq_none_iff] at hnone
    rcases Overlay.mem_of_mem_putAll ht with ht | ht
    · obtain ⟨t, htraced, rfl⟩ := List.mem_map.mp ht
      obtain ⟨hreport, hstamp⟩ := h.silent hnone.2 t htraced
      refine ⟨hreport, ?_⟩
      show t.2.or base.sessionId = none
      rw [hstamp, hnone.2]
      rfl
    · obtain ⟨t, htraced, rfl⟩ := List.mem_map.mp ht
      obtain ⟨hreport, hstamp⟩ := hoverlay.restamp htraced
      refine ⟨?_, hstamp.trans hnone.1⟩
      show t.1.report.sessionId = none
      rw [hreport, hnone.1]

/-! ## Misattribution -/

/-- A check of the report whose id no later report lists. -/
def leavesCheck (report : RendererReport) (later : List RendererReport) : Bool :=
  report.checks.any fun check => later.all fun r => !r.lists check.id

def repeatsIds (report : RendererReport) : Bool := !decide (report.checks.map (·.id)).Nodup

/-- An overlay without a session, other than the last, leaves a check. -/
def anonymousLeaves : List RendererReport → Bool
  | overlay :: next :: later =>
    (overlay.sessionId.isNone && overlay.leavesCheck (next :: later)) ||
      anonymousLeaves (next :: later)
  | _ => false

/-- A report without a session leaves a check, and is merged under an owner before the sequence
ends. A report that nothing is merged into keeps its checks without a stamp. -/
def misattributes (first : RendererReport) : List RendererReport → Bool
  | [] => first.sessionId.isSome && first.checks.any (·.producer.isNone)
  | overlay :: rest =>
    (first :: overlay :: rest).dropLast.any (·.sessionId.isSome) &&
      ((first.sessionId.isNone && (first.repeatsIds || first.leavesCheck (overlay :: rest))) ||
        anonymousLeaves (overlay :: rest))

def ListedBy (reports : List RendererReport) (id : String) : Prop :=
  ∃ report ∈ reports, id ∈ report.checks.map (·.id)

theorem listedBy_cons {report : RendererReport} {reports : List RendererReport} {id : String} :
    ListedBy (report :: reports) id ↔ id ∈ report.checks.map (·.id) ∨ ListedBy reports id := by
  simp [ListedBy]

theorem leavesCheck_iff {report : RendererReport} {later : List RendererReport} :
    report.leavesCheck later ↔ ∃ check ∈ report.checks, ¬ ListedBy later check.id := by
  simp only [leavesCheck, List.any_eq_true, List.all_eq_true, Bool.not_eq_true',
    ← Bool.not_eq_true, lists_iff, ListedBy, not_exists, not_and]

/-- A contribution without a session stays however later reports are merged. -/
def AnonymousStays (contributed : List Contribution) (later : List RendererReport) : Prop :=
  ∃ c, Overlay.Stays Contribution.id (ListedBy later) contributed c ∧ c.report.sessionId = none

theorem ids_ownContributions {report : RendererReport} :
    report.ownContributions.map Contribution.id = report.checks.map (·.id) := by
  rw [ownContributions, List.map_map]
  rfl

theorem report_of_mem_own {report : RendererReport} {c : Contribution}
    (h : c ∈ report.ownContributions) : c.report = report := by
  obtain ⟨check, -, rfl⟩ := List.mem_map.mp h
  rfl

theorem anonymousStays_own {report : RendererReport} {later : List RendererReport} :
    AnonymousStays report.ownContributions later ↔
      report.sessionId = none ∧ (report.repeatsIds ∨ report.leavesCheck later) := by
  have hstays : (∃ c, Overlay.Stays Contribution.id (ListedBy later) report.ownContributions c) ↔
      report.repeatsIds ∨ report.leavesCheck later := by
    rw [Overlay.exists_stays, ids_ownContributions, leavesCheck_iff, repeatsIds,
      Bool.not_eq_true', decide_eq_false_iff_not, ownContributions]
    simp only [List.mem_map, exists_exists_and_eq_and]
    rfl
  have hreport : ∀ c, Overlay.Stays Contribution.id (ListedBy later) report.ownContributions c →
      c.report = report := by
    rintro c (hc | ⟨hc, -⟩)
    · exact report_of_mem_own (Overlay.mem_fiber.mp (List.mem_of_mem_tail hc)).1
    · exact report_of_mem_own hc
  rw [← hstays]
  constructor
  · rintro ⟨c, hc, hsession⟩
    exact ⟨hreport c hc ▸ hsession, c, hc⟩
  · rintro ⟨hsession, c, hc⟩
    exact ⟨c, hc, hreport c hc ▸ hsession⟩

theorem anonymousStays_putAll {contributed : List Contribution} {overlay : RendererReport}
    {later : List RendererReport} :
    AnonymousStays (Overlay.putAll Contribution.id contributed overlay.ownContributions) later ↔
      AnonymousStays contributed (overlay :: later) ∨
        overlay.sessionId = none ∧ overlay.leavesCheck later := by
  have hlisted : (fun id => id ∈ overlay.ownContributions.map Contribution.id ∨
      ListedBy later id) = ListedBy (overlay :: later) := by
    funext id
    rw [ids_ownContributions, listedBy_cons]
  simp only [AnonymousStays, Overlay.stays_putAll, hlisted, or_and_right, exists_or,
    leavesCheck_iff]
  refine or_congr_right ⟨?_, ?_⟩
  · rintro ⟨c, ⟨hlast, hlater⟩, hsession⟩
    have hmem := (Overlay.mem_fiber.mp (List.mem_of_getLast? hlast)).1
    rw [report_of_mem_own hmem] at hsession
    obtain ⟨check, hcheck, rfl⟩ := List.mem_map.mp hmem
    exact ⟨hsession, check, hcheck, hlater⟩
  · rintro ⟨hsession, check, hcheck, hlater⟩
    -- The last check of this id is one of the same report.
    have hmem : (⟨overlay, check⟩ : Contribution) ∈
        Overlay.fiber Contribution.id check.id overlay.ownContributions :=
      Overlay.mem_fiber.mpr ⟨List.mem_map.mpr ⟨check, hcheck, rfl⟩, rfl⟩
    obtain ⟨c, hlast⟩ : ∃ c, (Overlay.fiber Contribution.id check.id
        overlay.ownContributions).getLast? = some c :=
      ⟨_, List.getLast?_eq_some_getLast (List.ne_nil_of_mem hmem)⟩
    obtain ⟨hown, hid⟩ := Overlay.mem_fiber.mp (List.mem_of_getLast? hlast)
    refine ⟨c, ⟨?_, ?_⟩, report_of_mem_own hown ▸ hsession⟩
    · rw [hid, hlast]
    · rwa [hid]

/-- One merge attributes what it stamps unless something without a session stays under an
owner. -/
theorem Traces.attributed_step {base overlay : RendererReport} {traced : List Traced}
    (h : Traces base traced) (hoverlay : overlay.SingleStamped) :
    (∀ t ∈ mergeTrace base.producer traced overlay, t.2 = t.1.report.sessionId) ↔
      ¬ (base.sessionId.isSome ∧ AnonymousStays (traced.map (·.1)) [overlay]) := by
  have hlisted : ListedBy [overlay] = fun id =>
      id ∈ (overlay.ownTrace.map (Traced.restamp overlay.producer)).map Traced.id := by
    funext id
    rw [listedBy_cons, ownTrace, List.map_map, List.map_map]
    simp [ListedBy]
    rfl
  have hfst : ∀ t : Traced, Contribution.id t.1 = t.id := fun _ => rfl
  have hrestamp : ∀ t : Traced, Traced.id (t.restamp base.producer) = t.id := fun _ => rfl
  constructor
  · rintro hall ⟨howner, c, hstays, hsession⟩
    obtain ⟨t, ht, rfl⟩ := (Overlay.stays_map hfst).mp hstays
    rw [hlisted] at ht
    have hmem := hall _ (Overlay.mem_putAll.mpr (.inl ((Overlay.stays_map hrestamp).mpr
      ⟨t, ht, rfl⟩)))
    have hnone : t.2.or base.sessionId = none := hmem.trans hsession
    rw [Option.or_eq_none_iff] at hnone
    rw [hnone.2] at howner
    cases howner
  · intro hnot t ht
    rcases Overlay.mem_putAll.mp ht with hmap | hlast
    · obtain ⟨t, hstays, rfl⟩ := (Overlay.stays_map hrestamp).mp hmap
      have htraced : t ∈ traced := by
        rcases hstays with hmem | ⟨hmem, -⟩
        · exact (Overlay.mem_fiber.mp (List.mem_of_mem_tail hmem)).1
        · exact hmem
      show t.2.or base.sessionId = t.1.report.sessionId
      by_cases hsession : t.1.report.sessionId.isSome
      · exact h.known t htraced hsession
      · rw [Option.not_isSome_iff_eq_none] at hsession
        have howner : base.sessionId = none := by
          rw [← Option.not_isSome_iff_eq_none]
          refine fun howner => hnot ⟨howner, t.1, ?_, hsession⟩
          exact (Overlay.stays_map hfst).mpr ⟨t, hlisted ▸ hstays, rfl⟩
        rw [(h.silent howner t htraced).2, howner, hsession]
        rfl
    · obtain ⟨t, hown, rfl⟩ :=
        List.mem_map.mp (Overlay.mem_fiber.mp (List.mem_of_getLast? hlast)).1
      obtain ⟨hreport, hstamp⟩ := hoverlay.restamp hown
      show t.2.or overlay.sessionId = t.1.report.sessionId
      rw [hstamp, hreport]

theorem attributed_iff {traced : List Traced} :
    traced.map Traced.check = (traced.map (·.1)).map Contribution.attributed ↔
      ∀ t ∈ traced, t.2 = t.1.report.sessionId := by
  rw [List.map_map, List.map_inj_left]
  refine forall₂_congr fun t _ => ⟨congrArg RendererCheck.producer, fun h => ?_⟩
  show ({ t.1.check with producer := t.2 } : RendererCheck) = _
  rw [h]
  rfl

/-- A check without its stamp. -/
def unstamped (check : RendererCheck) : RendererCheck := { check with producer := none }

/-- Up to stamps, a sequence of merges has the contributed checks. -/
theorem mergeAll_erased {base report : RendererReport} {inputs : List Incoming}
    (hrun : base.mergeAll inputs = .ok report) : report.checks.map unstamped =
      (base.contributions (inputs.map (·.1))).map fun c => unstamped c.check := by
  have htrace : ∀ {base : RendererReport} {traced : List Traced} {inputs : List Incoming},
      base.checks = traced.map Traced.check → base.mergeAll inputs = .ok report →
      report.checks.map unstamped = (overlayContributions (traced.map (·.1))
        (inputs.map (·.1))).map fun c => unstamped c.check := by
    intro base traced inputs hbase hrun
    induction inputs generalizing base traced with
    | nil =>
      obtain rfl := Except.ok.inj hrun
      rw [hbase, List.map_map]
      show _ = (traced.map (·.1)).map _
      rw [List.map_map]
      rfl
    | cons input rest ih =>
      obtain ⟨merged, hmerge, hrest⟩ := Result.bind_ok.mp hrun
      rw [ih (check_mergeTrace hbase (merge_ok hmerge)) hrest, contributions_mergeTrace]
      rfl
  have hown : base.ownTrace.map (·.1) = base.ownContributions := by
    rw [ownTrace, List.map_map]
    rfl
  rw [htrace check_ownTrace.symm hrun, hown]
  rfl

/-- The stamps after at least one merge are those of the contributors, unless something without
a session stays until an owner stamps it. -/
theorem Traces.attributed_run {base report : RendererReport} {input : Incoming}
    {inputs : List Incoming} {traced : List Traced} (h : Traces base traced)
    (hinputs : ∀ other ∈ input :: inputs, other.1.SingleStamped)
    (hrun : base.mergeAll (input :: inputs) = .ok report) :
    report.checks = (overlayContributions (traced.map (·.1))
      ((input :: inputs).map (·.1))).map Contribution.attributed ↔
      ¬ ((base.sessionId.isSome ∨
          ∃ r ∈ ((input :: inputs).map (·.1)).dropLast, r.sessionId.isSome) ∧
        (AnonymousStays (traced.map (·.1)) ((input :: inputs).map (·.1)) ∨
          anonymousLeaves ((input :: inputs).map (·.1)))) := by
  obtain ⟨merged, hmerge, hrest⟩ := Result.bind_ok.mp hrun
  have hmerged := merge_ok hmerge
  have hinput := hinputs input List.mem_cons_self
  cases inputs with
  | nil =>
    obtain rfl := Except.ok.inj hrest
    rw [check_mergeTrace h.checks hmerged]
    show _ = (Overlay.putAll Contribution.id (traced.map (·.1)) _).map _ ↔ _
    rw [← contributions_mergeTrace, attributed_iff, h.attributed_step hinput]
    simp [anonymousLeaves]
  | cons next later =>
    have howner : merged.sessionId.isSome ↔ base.sessionId.isSome ∨ input.1.sessionId.isSome := by
      rw [sessionId, hmerged.producer_eq, Option.map_or, Option.isSome_or, Bool.or_eq_true]
      exact Or.comm
    have hlater := (h.merge hmerged hinput).attributed_run
      (fun other hother => hinputs other (List.mem_cons_of_mem _ hother)) hrest
    rw [contributions_mergeTrace] at hlater
    refine hlater.trans (not_congr (and_congr ?_ ?_))
    · simp only [List.map_cons, List.dropLast_cons_cons, List.exists_mem_cons_iff, howner, or_assoc]
    · rw [anonymousStays_putAll, or_assoc]
      refine or_congr_right ?_
      simp [anonymousLeaves]

/-- After a sequence of merges every check carries the stamp of the session that contributed it,
unless the sequence misattributes. -/
theorem mergeAll_attributed {first report : RendererReport} {inputs : List Incoming}
    (hfirst : first.SingleStamped) (hinputs : ∀ input ∈ inputs, input.1.SingleStamped)
    (hrun : first.mergeAll inputs = .ok report) :
    report.checks = (first.contributions (inputs.map (·.1))).map Contribution.attributed ↔
      first.misattributes (inputs.map (·.1)) = false := by
  have hown : first.ownTrace.map (·.1) = first.ownContributions := by
    rw [ownTrace, List.map_map]
    rfl
  have htraces := traces_own hfirst
  cases inputs with
  | nil =>
    obtain rfl := Except.ok.inj hrun
    have hiff := @attributed_iff first.ownTrace
    rw [check_ownTrace, hown] at hiff
    refine hiff.trans ?_
    simp only [ownTrace, List.mem_map, forall_exists_index, and_imp, forall_apply_eq_imp_iff₂,
      List.map_nil, misattributes, Bool.and_eq_false_iff, Option.isSome_eq_false_iff,
      List.any_eq_false, Option.isNone_iff_eq_none]
    constructor
    · intro hall
      by_cases hsession : first.sessionId = none
      · exact .inl hsession
      · exact .inr fun check hcheck hnone => hsession ((hall check hcheck).symm.trans hnone)
    · intro hcases check hcheck
      cases hproducer : check.producer with
      | none => exact (hcases.resolve_right fun hall => hall check hcheck hproducer).symm
      | some id => exact (hfirst check hcheck id hproducer).symm
  | cons input inputs =>
    have hiff := htraces.attributed_run hinputs hrun
    rw [hown, anonymousStays_own] at hiff
    refine hiff.trans ?_
    rw [← Bool.not_eq_true, List.map_cons, misattributes]
    refine not_congr ?_
    simp

/-! ## Regrouping -/

/-- The report repeats the id. -/
def repeats (report : RendererReport) (id : String) : Bool :=
  1 < (Overlay.fiber (·.id) id report.checks).length

def lastCheck (report : RendererReport) (id : String) : Option RendererCheck :=
  (Overlay.fiber (·.id) id report.checks).getLast?

/-- The triples whose merge does not depend on the grouping. Checks without a session that stay
must be stamped alike by the owners they meet, and where the second report repeats an id that the
third lists, both end in the same check. -/
structure Regroups (a b c : RendererReport) : Prop where
  left : a.repeatsIds ∨ a.leavesCheck [b, c] → a.sessionId.or b.sessionId = a.sessionId
  middle : b.leavesCheck [c] → b.sessionId.or a.sessionId = b.sessionId.or c.sessionId
  right : (∃ check ∈ c.checks, ¬ b.repeats check.id) →
    c.sessionId = c.sessionId.or b.sessionId
  clash : ∀ id, b.repeats id → c.lists id →
    (b.lastCheck id).map (fun check => { check with producer := b.sessionId.or c.sessionId }) =
      (c.lastCheck id).map fun check => { check with producer := c.sessionId }

/-- The checks of an id, each stamped with the same session. -/
def stampedFiber (report : RendererReport) (id : String) (producer : Option String) :
    List RendererCheck :=
  (Overlay.fiber (·.id) id report.checks).map fun check => { check with producer }

theorem fiber_stamp {session : Option ProducerSession} {checks : List RendererCheck}
    {id : String} : Overlay.fiber (·.id) id (checks.map (stamp session)) =
      (Overlay.fiber (·.id) id checks).map (stamp session) :=
  Overlay.fiber_map (stamp session) fun _ => rfl

theorem SingleStamped.fiber_eq {report : RendererReport} (h : report.SingleStamped) {id : String} :
    (Overlay.fiber (·.id) id report.checks).map (stamp report.producer) =
      report.stampedFiber id report.sessionId :=
  List.map_congr_left fun _ hmem => h.stamp_eq (Overlay.mem_fiber.mp hmem).1

theorem map_stamp_stampedFiber {report : RendererReport} {id : String}
    {producer : Option String} {session : Option ProducerSession} :
    (report.stampedFiber id producer).map (stamp session) =
      report.stampedFiber id (producer.or (session.map (·.id))) := by
  rw [stampedFiber, List.map_map]
  rfl

/-- The checks of an id after one merge of single-stamped reports. -/
theorem Merged.fiber {base overlay report : RendererReport} (h : Merged base overlay report)
    (hbase : base.SingleStamped) (hoverlay : overlay.SingleStamped) (id : String) :
    Overlay.fiber (·.id) id report.checks =
      ((overlay.stampedFiber id overlay.sessionId).getLast?.or
          (base.stampedFiber id base.sessionId).head?).toList ++
        (base.stampedFiber id base.sessionId).tail := by
  rw [h.checks_eq, Overlay.fiber_putAll, fiber_stamp, fiber_stamp, hbase.fiber_eq, hoverlay.fiber_eq]

theorem Merged.sessionId {base overlay report : RendererReport}
    (h : Merged base overlay report) :
    report.sessionId = overlay.sessionId.or base.sessionId := by
  rw [RendererReport.sessionId, h.producer_eq, Option.map_or]
  rfl

theorem getLast_map_stampedFiber {report : RendererReport} {id : String}
    {producer : Option String} {session : Option ProducerSession} :
    (report.stampedFiber id producer).getLast?.map (stamp session) =
      (report.stampedFiber id (producer.or (session.map (·.id)))).getLast? := by
  rw [← List.getLast?_map, map_stamp_stampedFiber]

/-- Merging the third report last. -/
theorem fiber_left {a b c ab abc : RendererReport} (hab : Merged a b ab) (habc : Merged ab c abc)
    (ha : a.SingleStamped) (hb : b.SingleStamped) (hc : c.SingleStamped) (id : String) :
    Overlay.fiber (·.id) id abc.checks =
      ((c.stampedFiber id c.sessionId).getLast?.or
        ((b.stampedFiber id (b.sessionId.or a.sessionId)).getLast?.or
          (a.stampedFiber id (a.sessionId.or b.sessionId)).head?)).toList ++
        (a.stampedFiber id (a.sessionId.or b.sessionId)).tail := by
  have howner : ab.producer.map (·.id) = b.sessionId.or a.sessionId := hab.sessionId
  rw [habc.checks_eq, Overlay.fiber_putAll, fiber_stamp, fiber_stamp, hc.fiber_eq,
    hab.fiber ha hb, Overlay.map_replaced, Overlay.head_replaced, Overlay.tail_replaced, getLast_map_stampedFiber,
    map_stamp_stampedFiber, howner]
  cases a.sessionId <;> cases b.sessionId <;> rfl

/-- Merging the last two reports first. -/
theorem fiber_right {a b c bc abc : RendererReport} (hbc : Merged b c bc)
    (habc : Merged a bc abc) (ha : a.SingleStamped) (hb : b.SingleStamped)
    (hc : c.SingleStamped) (id : String) :
    Overlay.fiber (·.id) id abc.checks =
      ((((c.stampedFiber id (c.sessionId.or b.sessionId)).getLast?.or
            (b.stampedFiber id (b.sessionId.or c.sessionId)).head?).toList ++
          (b.stampedFiber id (b.sessionId.or c.sessionId)).tail).getLast?.or
        (a.stampedFiber id a.sessionId).head?).toList ++ (a.stampedFiber id a.sessionId).tail := by
  have howner : bc.producer.map (·.id) = c.sessionId.or b.sessionId := hbc.sessionId
  rw [habc.checks_eq, Overlay.fiber_putAll, fiber_stamp, fiber_stamp, ha.fiber_eq,
    hbc.fiber hb hc, Overlay.map_replaced, getLast_map_stampedFiber, map_stamp_stampedFiber, howner]
  cases b.sessionId <;> cases c.sessionId <;> rfl

/-- Where the two groupings agree on the checks of an id. -/
structure RegroupsAt (a b c : RendererReport) (id : String) : Prop where
  left : (Overlay.fiber (·.id) id a.checks).tail ≠ [] ∨ (a.lists id ∧ ¬ b.lists id ∧ ¬ c.lists id) →
    a.sessionId.or b.sessionId = a.sessionId
  middle : b.lists id → ¬ c.lists id → b.sessionId.or a.sessionId = b.sessionId.or c.sessionId
  right : c.lists id → ¬ b.repeats id → c.sessionId = c.sessionId.or b.sessionId
  clash : b.repeats id → c.lists id →
    (b.lastCheck id).map (fun check => { check with producer := b.sessionId.or c.sessionId }) =
      (c.lastCheck id).map fun check => { check with producer := c.sessionId }

theorem lists_iff_fiber {report : RendererReport} {id : String} :
    report.lists id ↔ Overlay.fiber (·.id) id report.checks ≠ [] := by
  rw [lists_iff, List.mem_map]
  constructor
  · rintro ⟨check, hmem, hid⟩
    exact List.ne_nil_of_mem (Overlay.mem_fiber.mpr ⟨hmem, hid⟩)
  · intro hne
    obtain ⟨check, hmem⟩ := List.exists_mem_of_ne_nil _ hne
    exact ⟨check, Overlay.mem_fiber.mp hmem⟩

theorem map_producer_inj {checks : List RendererCheck} {p q : Option String} :
    (checks.map fun check => { check with producer := p }) =
        (checks.map fun check => { check with producer := q }) ↔ checks ≠ [] → p = q := by
  cases checks with
  | nil => simp
  | cons check rest =>
    constructor
    · intro h _
      exact congrArg RendererCheck.producer (List.cons.inj h).1
    · intro h
      rw [h (List.cons_ne_nil _ _)]

theorem some_producer_inj {check : RendererCheck} {p q : Option String} :
    some ({ check with producer := p } : RendererCheck) = some { check with producer := q } ↔
      p = q :=
  ⟨fun h => congrArg RendererCheck.producer (Option.some.inj h), fun h => h ▸ rfl⟩

/-- The two groupings have the same checks of an id exactly when they agree on it. -/
theorem regroupsAt_iff {a b c : RendererReport} {id : String} :
    ((c.stampedFiber id c.sessionId).getLast?.or
        ((b.stampedFiber id (b.sessionId.or a.sessionId)).getLast?.or
          (a.stampedFiber id (a.sessionId.or b.sessionId)).head?)).toList ++
        (a.stampedFiber id (a.sessionId.or b.sessionId)).tail =
      ((((c.stampedFiber id (c.sessionId.or b.sessionId)).getLast?.or
            (b.stampedFiber id (b.sessionId.or c.sessionId)).head?).toList ++
          (b.stampedFiber id (b.sessionId.or c.sessionId)).tail).getLast?.or
        (a.stampedFiber id a.sessionId).head?).toList ++ (a.stampedFiber id a.sessionId).tail ↔
    RegroupsAt a b c id := by
  have hsplit : RegroupsAt a b c id ↔ _ ∧ _ ∧ _ ∧ _ :=
    ⟨fun ⟨h₁, h₂, h₃, h₄⟩ => ⟨h₁, h₂, h₃, h₄⟩, fun ⟨h₁, h₂, h₃, h₄⟩ => ⟨h₁, h₂, h₃, h₄⟩⟩
  rw [hsplit, ← Option.or_assoc]
  simp only [stampedFiber]
  rw [Overlay.replaced_inj, Overlay.getLast_replaced]
  simp only [lists_iff_fiber, repeats, lastCheck, List.getLast?_map, List.head?_map, ← List.map_tail,
    map_producer_inj, List.length_map, decide_eq_true_eq, not_not]
  generalize Overlay.fiber (·.id) id a.checks = α
  generalize Overlay.fiber (·.id) id b.checks = β
  generalize Overlay.fiber (·.id) id c.checks = γ
  cases hγ : γ.getLast? with
  | none =>
    obtain rfl := List.getLast?_eq_none_iff.mp hγ
    cases hβ : β.getLast? with
    | none =>
      obtain rfl := List.getLast?_eq_none_iff.mp hβ
      cases α with
      | nil => simp
      | cons x xs =>
        have hsame : a.sessionId.or b.sessionId = a.sessionId → ¬ xs = [] →
            a.sessionId.or b.sessionId = a.sessionId := fun h _ => h
        simpa using hsame
    | some y =>
      have hne : β ≠ [] := by
        rintro rfl
        cases hβ
      simp only [hne, ite_self, some_producer_inj, Option.map_none, Option.map_some, Option.none_or,
        Option.some_or, ne_eq, not_false_eq_true, not_true_eq_false, and_false, or_false,
        forall_const, IsEmpty.forall_iff, implies_true, and_true]
      exact And.comm
  | some z =>
    have hne : γ ≠ [] := by
      rintro rfl
      cases hγ
    by_cases hrepeats : 1 < β.length
    · have hβ : ∃ y, β.getLast? = some y :=
        ⟨_, List.getLast?_eq_some_getLast (List.ne_nil_of_length_pos (by omega))⟩
      obtain ⟨y, hβ⟩ := hβ
      simp only [hne, hβ, hrepeats, if_true, Option.map_some, Option.some_or, ne_eq,
        not_false_eq_true, not_true_eq_false, and_false, or_false, forall_const,
        IsEmpty.forall_iff, implies_true, true_and]
      rw [and_comm]
      exact and_congr_right fun _ => eq_comm
    · simp only [hne, hrepeats, if_false, Option.map_some, Option.some_or, some_producer_inj,
        ne_eq, not_false_eq_true, and_false, or_false, forall_const,
        IsEmpty.forall_iff, and_true]
      simp only [implies_true, true_and]
      exact And.comm

/-- Some check of the report, if it repeats the id or lists it, is taken over as it is. -/
theorem exists_tail_fiber {report : RendererReport} :
    report.repeatsIds ↔ ∃ id, (Overlay.fiber (·.id) id report.checks).tail ≠ [] := by
  rw [repeatsIds, Bool.not_eq_true', decide_eq_false_iff_not]
  constructor
  · intro hrepeats
    by_contra hnone
    refine hrepeats (Overlay.nodup_of_tail_fiber fun id => ?_)
    by_contra hne
    exact hnone ⟨id, hne⟩
  · rintro ⟨id, hne⟩ hnodup
    exact hne (Overlay.tail_fiber_of_nodup hnodup)

theorem leavesCheck_iff_lists {report : RendererReport} {later : List RendererReport} :
    report.leavesCheck later ↔ ∃ id, report.lists id ∧ ∀ r ∈ later, ¬ r.lists id := by
  rw [leavesCheck, List.any_eq_true]
  simp only [List.all_eq_true, Bool.not_eq_true', ← Bool.not_eq_true]
  constructor
  · rintro ⟨check, hcheck, hlater⟩
    exact ⟨check.id, lists_iff.mpr (List.mem_map.mpr ⟨check, hcheck, rfl⟩), hlater⟩
  · rintro ⟨id, hlists, hlater⟩
    obtain ⟨check, hcheck, rfl⟩ := List.mem_map.mp (lists_iff.mp hlists)
    exact ⟨check, hcheck, hlater⟩

theorem regroups_iff {a b c : RendererReport} :
    Regroups a b c ↔ ∀ id, RegroupsAt a b c id := by
  constructor
  · intro h id
    refine ⟨?_, ?_, ?_, h.clash id⟩
    · rintro (htail | ⟨hlists, hb, hc⟩)
      · exact h.left (.inl (exists_tail_fiber.mpr ⟨id, htail⟩))
      · refine h.left (.inr (leavesCheck_iff_lists.mpr ⟨id, hlists, ?_⟩))
        rintro r (_ | ⟨_, _ | ⟨_, hr⟩⟩)
        · exact hb
        · exact hc
        · cases hr
    · intro hlists hc
      exact h.middle (leavesCheck_iff_lists.mpr ⟨id, hlists, by simpa using hc⟩)
    · intro hlists hrepeats
      obtain ⟨check, hcheck, rfl⟩ := List.mem_map.mp (lists_iff.mp hlists)
      exact h.right ⟨check, hcheck, hrepeats⟩
  · intro h
    refine ⟨?_, ?_, ?_, fun id => (h id).clash⟩
    · rintro (hrepeats | hleaves)
      · obtain ⟨id, htail⟩ := exists_tail_fiber.mp hrepeats
        exact (h id).left (.inl htail)
      · obtain ⟨id, hlists, hlater⟩ := leavesCheck_iff_lists.mp hleaves
        exact (h id).left (.inr ⟨hlists, hlater b (by simp), hlater c (by simp)⟩)
    · intro hleaves
      obtain ⟨id, hlists, hlater⟩ := leavesCheck_iff_lists.mp hleaves
      exact (h id).middle hlists (hlater c (by simp))
    · rintro ⟨check, hcheck, hrepeats⟩
      exact (h check.id).right (lists_iff.mpr (List.mem_map.mpr ⟨check, hcheck, rfl⟩)) hrepeats

/-- Whether three reports are merged from the left or from the right, the checks and their stamps
are the same exactly when the triple regroups. -/
theorem Merged.regroups_iff {a b c ab bc left right : RendererReport} (hab : Merged a b ab)
    (hleft : Merged ab c left) (hbc : Merged b c bc) (hright : Merged a bc right)
    (ha : a.SingleStamped) (hb : b.SingleStamped) (hc : c.SingleStamped) :
    left.checks = right.checks ↔ Regroups a b c := by
  have hkeys : left.checks.map (·.id) = right.checks.map (·.id) := by
    rw [hleft.checks_eq, hright.checks_eq, Overlay.keys_putAll, Overlay.keys_putAll, ids_stamp,
      ids_stamp, ids_stamp, ids_stamp, hab.checks_eq, hbc.checks_eq, Overlay.keys_putAll,
      Overlay.keys_putAll, ids_stamp, ids_stamp, ids_stamp, Overlay.putAll_assoc_keys]
  have hfibers : left.checks = right.checks ↔ ∀ id, Overlay.fiber (·.id) id left.checks =
      Overlay.fiber (·.id) id right.checks :=
    ⟨fun h id => by rw [h], Overlay.ext_fiber hkeys⟩
  rw [hfibers, RendererReport.regroups_iff]
  refine forall_congr' fun id => ?_
  rw [fiber_left hab hleft ha hb hc, fiber_right hbc hright ha hb hc, regroupsAt_iff]

/-- Merged evidence names its contributors, and does not depend on the grouping, exactly when no
check that comes without a session stays until an owner stamps it. -/
theorem merge_provenance_iff (first report : RendererReport) (inputs : List Incoming) :
    (first.SingleStamped → (∀ input ∈ inputs, input.1.SingleStamped) →
      first.mergeAll inputs = .ok report →
      (report.checks = (first.contributions (inputs.map (·.1))).map Contribution.attributed ↔
        first.misattributes (inputs.map (·.1)) = false)) ∧
    ∀ (a b c ab bc left right : RendererReport) (replace : Bool), a.SingleStamped →
      b.SingleStamped → c.SingleStamped → a.merge b replace = .ok ab →
      ab.merge c replace = .ok left → b.merge c replace = .ok bc →
      a.merge bc replace = .ok right → (left.checks = right.checks ↔ Regroups a b c) := by
  constructor
  · intro hfirst hinputs hrun
    exact mergeAll_attributed hfirst hinputs hrun
  · intro a b c ab bc left right replace ha hb hc hab hleft hbc hright
    exact (merge_ok hab).regroups_iff (merge_ok hleft) (merge_ok hbc) (merge_ok hright) ha hb hc

theorem singleStamped_of_unstamped {report : RendererReport}
    (h : ∀ check ∈ report.checks, check.producer = none) : report.SingleStamped := by
  intro check hcheck id hid
  rw [h check hcheck] at hid
  cases hid

/-- A report without a session that tells of a FAIL. -/
def anonymousReport : RendererReport := sampleReport none
  [{ id := "renderer.gpu.frame", status := .fail, detail := some "device lost",
     producer := none }]

def laterReport : RendererReport := sampleReport (some (sampleSession "g2" 300 .success))
  [{ id := "renderer.host.first_frame", status := .pass, detail := none, producer := none }]

def goodLaterReport : RendererReport := sampleReport (some (sampleSession "g2" 300 .success))
  [{ id := "renderer.core.boundary", status := .pass, detail := none, producer := some "g1" },
   { id := "renderer.host.first_frame", status := .pass, detail := none, producer := some "g2" }]

def installReport : RendererReport := sampleReport (some (sampleSession "g3" 400 .success))
  [{ id := "renderer.install_tree", status := .pass, detail := none, producer := none }]

theorem mergeAll_erased_sample : goodLaterReport.checks.map unstamped =
    (goodReport.contributions [laterReport]).map fun c => unstamped c.check :=
  mergeAll_erased (show goodReport.mergeAll [(laterReport, false)] = .ok goodLaterReport from rfl)

theorem merge_provenance_sample :
    goodLaterReport.checks =
        (goodReport.contributions [laterReport]).map Contribution.attributed ∧
      Regroups goodReport laterReport installReport := by
  have hgood : goodReport.SingleStamped := singleStamped_of_unstamped (by decide)
  have hlater : laterReport.SingleStamped := singleStamped_of_unstamped (by decide)
  have hinstall : installReport.SingleStamped := singleStamped_of_unstamped (by decide)
  constructor
  · refine ((merge_provenance_iff goodReport goodLaterReport [(laterReport, false)]).1 hgood
      ?_ rfl).mpr (by decide)
    rintro input (_ | ⟨_, hmem⟩)
    · exact hlater
    · cases hmem
  · exact ((merge_provenance_iff goodReport goodLaterReport []).2 goodReport laterReport
      installReport _ _ _ _ false hgood hlater hinstall rfl rfl rfl rfl).mp rfl

/-- The FAIL of a report without a session ends up with the stamp of a session that came later,
and did not find it. -/
theorem merge_misattributes : ¬ ∀ (first report : RendererReport) (inputs : List Incoming),
    first.SingleStamped → (∀ input ∈ inputs, input.1.SingleStamped) →
    first.mergeAll inputs = .ok report →
    report.checks = (first.contributions (inputs.map (·.1))).map Contribution.attributed := by
  intro h
  have hrun : anonymousReport.mergeAll [(goodReport, false), (laterReport, false)] = .ok _ := rfl
  have hchecks := h _ _ _ (singleStamped_of_unstamped (by decide)) ?_ hrun
  · have hstamp := congrArg (fun checks => (checks.map (·.producer)).head?) hchecks
    revert hstamp
    decide
  · rintro input (_ | ⟨_, _ | ⟨_, hmem⟩⟩)
    · exact singleStamped_of_unstamped (by decide)
    · exact singleStamped_of_unstamped (by decide)
    · cases hmem

end OpenStrata.RendererReport
