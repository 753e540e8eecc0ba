import Mathlib.Data.List.Nodup
import OpenStrata.Ci.Cells

/-!
# Accepted matrices

What validation establishes: one structure for a cell, with a field for each of its checks, and
one for the document.

## Main definitions

* `CellAccepted`: a cell passed each of its checks
* `Accepted`: the document passed each of its checks

## Main results

* `SupportMatrix.accepted_of_validate`: an accepted document passed each check
* `Accepted.cells_nodup`: its cells are pairwise distinct
-/

namespace OpenStrata.Ci

variable {catalog : Catalog} {m : SupportMatrix} {cell : SupportCell}

/-- A cell that passed each of its checks. -/
structure CellAccepted (catalog : Catalog) (m : SupportMatrix) (cell : SupportCell) : Prop where
  name : isKebab cell.name
  runner : m.validateCellRunner cell = .ok ()
  labels : ∀ label ∈ cell.host.labels, isCiAtom label
  runtime : validateRuntimeArtifact cell = .ok ()
  openusd : validateOpenusd catalog m cell = .ok ()
  plugin : validatePluginArtifact cell = .ok ()
  bundle : ∀ bundle, cell.bundle = some bundle → ¬ escapesRepository bundle
  publish : validatePublish m cell = .ok ()
  target : validateTarget cell = .ok ()
  kind : validateKind cell = .ok ()
  hostPython : validateHostPython cell = .ok ()
  hostPackages : validateHostPackages m cell = .ok ()
  remote : ∀ remote, cell.runtimeRemote = some remote →
    validateRuntimeRemote cell.name remote = .ok ()

/-- A document that passed each of its checks. -/
structure Accepted (catalog : Catalog) (m : SupportMatrix) : Prop where
  bootstrap : ∀ bootstrap, m.bootstrap = some bootstrap → validateBootstrap bootstrap = .ok ()
  policy : ∀ policy, m.trust.policy = some policy →
    validateRepoPath "trust.policy" policy = .ok ()
  sourceChecks : ∀ check ∈ m.sourceChecks, ∃ index,
    validateNamedCheck "source_checks" index check = .ok ()
  release : ∀ release, m.release = some release → validateRelease release = .ok () ∧
    (∀ check ∈ release.checks, ∃ index,
      validateNamedCheck "release.checks" index check = .ok ()) ∧
    m.validateReleaseContract release = .ok ()
  runners : ∀ entry ∈ m.runners, validateRunner entry.1 entry.2 = .ok ()
  cells : ∀ cell ∈ m.cells, CellAccepted catalog m cell
  names : (m.cells.map SupportCell.name).Nodup
  candidates : m.validateCandidates = .ok ()

/-- An optional check passed on whatever is there. -/
theorem elim_ok {α : Type} {o : Option α} {check : α → Result Unit}
    (h : o.elim (.ok ()) check = .ok ()) : ∀ a, o = some a → check a = .ok () := by
  rintro a rfl
  exact h

theorem validateChecks_ok {group : String} {checks : List SourceCheck}
    (h : validateChecks group checks = .ok ()) :
    ∀ check ∈ checks, ∃ index, validateNamedCheck group index check = .ok () := by
  intro check hmem
  obtain ⟨index, hindex, rfl⟩ := List.mem_iff_getElem.mp hmem
  refine ⟨index, Result.forAll_ok.mp h (checks[index], index) ?_⟩
  exact List.mk_mem_zipIdx_iff_getElem?.mpr (List.getElem?_eq_getElem hindex)

namespace SupportMatrix

theorem cellAccepted_of_validateCell (hname : isKebab cell.name)
    (h : m.validateCell catalog cell = .ok ()) : CellAccepted catalog m cell := by
  simp only [validateCell, Result.bind_ok, Result.failIf_ok] at h
  obtain ⟨⟨⟩, hrunner, ⟨⟩, -, ⟨⟩, hlabels, ⟨⟩, hruntime, ⟨⟩, -, ⟨⟩, hopenusd, ⟨⟩, hplugin, ⟨⟩,
    hbundle, ⟨⟩, hpublish, ⟨⟩, htarget, ⟨⟩, hkind, ⟨⟩, hpython, ⟨⟩, hpackages, ⟨⟩, hremote, -⟩ := h
  refine ⟨hname, hrunner, ?_, hruntime, hopenusd, hplugin, ?_, hpublish, htarget, hkind, hpython,
    hpackages, elim_ok hremote⟩
  · intro label hlabel
    by_contra hbad
    exact hlabels (List.any_eq_true.mpr ⟨label, hlabel, by simpa using hbad⟩)
  · rintro bundle hb hescapes
    rw [validateBundle, Result.failIf_ok, hb] at hbundle
    exact hbundle (by simpa using hescapes)

theorem validateCells_ok {cells : List SupportCell} : ∀ {seen : List String},
    m.validateCells catalog seen cells = .ok () →
      (∀ cell ∈ cells, CellAccepted catalog m cell ∧ cell.name ∉ seen) ∧
        (cells.map SupportCell.name).Nodup := by
  induction cells with
  | nil =>
    intro seen _
    exact ⟨by simp, List.nodup_nil⟩
  | cons cell rest ih =>
    intro seen h
    simp only [validateCells, Result.bind_ok, Result.failIf_ok, not_not] at h
    obtain ⟨⟨⟩, hname, ⟨⟩, hfresh, ⟨⟩, hcell, hrest⟩ := h
    obtain ⟨hcells, hnodup⟩ := ih hrest
    refine ⟨?_, ?_⟩
    · intro other hother
      rcases List.mem_cons.mp hother with rfl | hmem
      · exact ⟨cellAccepted_of_validateCell hname hcell, hfresh⟩
      · obtain ⟨haccepted, hseen⟩ := hcells other hmem
        exact ⟨haccepted, fun hin => hseen (List.mem_cons_of_mem _ hin)⟩
    · refine List.nodup_cons.mpr ⟨fun hin => ?_, hnodup⟩
      obtain ⟨other, hother, heq⟩ := List.mem_map.mp hin
      exact (hcells other hother).2 (heq ▸ List.mem_cons_self)

/-- An accepted document passed each of its checks. -/
theorem accepted_of_validate (h : m.validate catalog = .ok ()) : Accepted catalog m := by
  simp only [validate, Result.bind_ok, Result.failIf_ok] at h
  obtain ⟨⟨⟩, -, ⟨⟩, -, ⟨⟩, hbootstrap, ⟨⟩, hpolicy, ⟨⟩, hchecks, ⟨⟩, hrelease, ⟨⟩, hrunners, ⟨⟩,
    hcells, ⟨⟩, hcandidates, ⟨⟩, hcontract, -⟩ := h
  obtain ⟨haccepted, hnames⟩ := validateCells_ok hcells
  refine ⟨elim_ok hbootstrap, elim_ok hpolicy, validateChecks_ok hchecks, ?_,
    Result.forAll_ok.mp hrunners, fun cell hcell => (haccepted cell hcell).1, hnames,
    hcandidates⟩
  intro release hsome
  obtain ⟨⟨⟩, hvalid, hnamed⟩ := Result.bind_ok.mp (elim_ok hrelease release hsome)
  exact ⟨hvalid, validateChecks_ok hnamed, elim_ok hcontract release hsome⟩

end SupportMatrix

theorem Accepted.cells_nodup (h : Accepted catalog m) : m.cells.Nodup :=
  List.Nodup.of_map SupportCell.name h.names

namespace CellAccepted

/-- Only workspace cells leave out the runtime. -/
theorem isWorkspace_of_runtimeFree (h : CellAccepted catalog m cell) (hfree : cell.isRuntimeFree) :
    cell.isWorkspace := by
  have hruntime := h.runtime
  rw [SupportCell.isRuntimeFree, Option.isNone_iff_eq_none] at hfree
  simpa [validateRuntimeArtifact, hfree] using hruntime

/-- A workspace cell is a source cell that names no bundle and publishes nothing. -/
theorem workspace (h : CellAccepted catalog m cell) (hworkspace : cell.isWorkspace) :
    cell.lane.isSource ∧ cell.bundle = none ∧ cell.publish = .never := by
  have hkind := h.kind
  rw [validateKind, if_pos hworkspace] at hkind
  simp only [validateWorkspace, Result.bind_ok, Result.failIf_ok] at hkind
  obtain ⟨⟨⟩, hsource, ⟨⟩, hbundle, ⟨⟩, -, ⟨⟩, -, ⟨⟩, -, ⟨⟩, hpublish, -⟩ := hkind
  exact ⟨by simpa using hsource, by simpa using hbundle, by simpa using hpublish⟩

/-- A candidate is a bundle cell of the main lane. -/
theorem candidate (h : CellAccepted catalog m cell) (hcandidate : cell.publish = .candidate) :
    cell.lane = .main ∧ cell.isWorkspace = false := by
  have hpublish := h.publish
  simp only [validatePublish, Result.bind_ok, Result.failIf_ok] at hpublish
  obtain ⟨⟨⟩, -, ⟨⟩, hlane, -⟩ := hpublish
  refine ⟨by simpa [hcandidate] using hlane, ?_⟩
  by_contra hworkspace
  have := (h.workspace (by simpa using hworkspace)).2.2
  rw [hcandidate] at this
  cases this

end CellAccepted

end OpenStrata.Ci
