import OpenStrata.Formation.Reordering

/-!
# Supplied records and component order

What the resolver is given and in which order it answers. The records that are supplied stand for
the declared artifacts one by one as long as a digest belongs to one component; the components
that are selected are listed in the least order in which each comes after its providers.

## Main definitions

* `ComponentOrder`: an order of the selected components after their providers
* `Supplies`: the records are the declared artifacts, each once

## Main results

* `topologicalOrder_laws`: when there is an order, and which one it is
* `supplies_iff`: when the accepted records are exactly the declared artifacts
-/

namespace OpenStrata

open Std (ExtTreeMap)
open SortBy (sortBy)
open RuntimeComposition

/-! ## Component order -/

/-- Every selected component exactly once, each provider before its consumers. -/
structure ComponentOrder (s : Selection) (order : List String) : Prop where
  nodup : order.Nodup
  complete : ∀ id, id ∈ order ↔ id ∈ s.selected
  before : ∀ provider consumer, (provider, consumer) ∈ s.edges → provider ≠ consumer →
    ∀ pre post, order = pre ++ consumer :: post → provider ∈ pre

/-- The edges lead from no component back to itself, except for edges from a component to itself. -/
def NoCycle (edges : List (String × String)) : Prop :=
  ∀ id, ¬ Relation.TransGen (fun u v => (u, v) ∈ edges ∧ u ≠ v) id id

theorem noCycle_iff {edges : List (String × String)} : NoCycle edges ↔ Kahn.Acyclic edges := by
  rw [Kahn.acyclic_iff]
  have hproper : (fun u v => (u, v) ∈ Kahn.proper edges) =
      fun u v : String => (u, v) ∈ edges ∧ u ≠ v := by
    funext u v
    exact propext Kahn.mem_proper
  unfold NoCycle Kahn.Reaches
  rw [hproper]

theorem componentOrder_iff {s : Selection} {order : List String} :
    ComponentOrder s order ↔ Kahn.IsTopological s.selected.keys s.edges order := by
  constructor
  · rintro ⟨hnodup, hcomplete, hbefore⟩
    refine ⟨(List.perm_ext_iff_of_nodup hnodup (nodup_keys _)).mpr fun id => ?_,
      fun pre v post hsplit u huv hne => hbefore u v huv hne pre post hsplit⟩
    rw [hcomplete, ExtTreeMap.mem_keys]
  · rintro ⟨hperm, hafter⟩
    refine ⟨hperm.nodup_iff.mpr (nodup_keys _), fun id => ?_,
      fun provider consumer hedge hne pre post hsplit =>
        hafter pre consumer post hsplit provider hedge hne⟩
    rw [hperm.mem_iff, ExtTreeMap.mem_keys]

theorem sorted_keys (selected : ExtTreeMap String Candidate) :
    selected.keys.Pairwise (· ≤ ·) :=
  selected.ordered_keys.imp fun h => (compare_lt_iff_lt.mp h).le

section Order

variable {declared : RuntimeCompositionManifest} {digests : List String}
  {records : List ArtifactRecord} {candidates : List Candidate} {s : Selection}

/-- The components of a selection have an order exactly when its edges have no cycle, and the
order that is given is the least of those that list every component once after its providers. -/
theorem topologicalOrder_laws (hcollect : collectCandidates digests [] records = .ok candidates)
    (hselect : resolveSelection declared (sortBy candidateKey candidates) = .ok s) :
    ((∃ order, topologicalOrder s.selected s.edges = .ok order) ↔ NoCycle s.edges) ∧
      ∀ order, topologicalOrder s.selected s.edges = .ok order →
        ComponentOrder s order ∧
          ∀ other, ComponentOrder s other → ¬ List.Lex (· < ·) other order := by
  obtain ⟨-, -, hids⟩ := collectCandidates_ok hcollect
  have hunique : UniqueIds (sortBy candidateKey candidates) := fun a ha b hb =>
    uniqueIds_of_nodup hids a (SortBy.mem_sortBy.mp ha) b (SortBy.mem_sortBy.mp hb)
  have hinv := inv_of_resolveSelection hunique hselect
  simp only [topologicalOrder, Result.okOr_ok]
  refine ⟨?_, fun order horder => ⟨?_, fun other hother => ?_⟩⟩
  · rw [noCycle_iff, ← Option.isSome_iff_exists]
    exact Kahn.order_isSome_iff (nodup_keys _) hinv.edges_nodup hinv.edges_keys
  · exact componentOrder_iff.mpr
      (Kahn.order_isTopological (nodup_keys _) hinv.edges_nodup hinv.edges_keys horder)
  · exact Kahn.order_least (nodup_keys _) (sorted_keys _) hinv.edges_nodup hinv.edges_keys horder
      (componentOrder_iff.mp hother)

end Order

/-! ## Supplied records -/

section Supplied

variable {codec : Codec} {declared : RuntimeCompositionManifest} {records : List ArtifactRecord}
  {r : ResolvedRuntimeComposition}

/-- The supplied records are the declared artifacts, each once. -/
structure Supplies (declared : RuntimeCompositionManifest) (records : List ArtifactRecord) :
    Prop where
  distinct : (records.map (·.digest)).Nodup
  same : ∀ digest, digest ∈ records.map (·.digest) ↔ digest ∈ declared.artifacts.map (·.artifact)

/-- A digest belongs to one component. -/
def OneComponent (records : List ArtifactRecord) : Prop :=
  ∀ a ∈ records, ∀ b ∈ records, a.digest = b.digest →
    a.component.map (·.id) = b.component.map (·.id)

theorem candidateOf_declared {digests : List String} {record : ArtifactRecord} {c : Candidate}
    (h : candidateOf digests record = .ok c) : record.digest ∈ digests := by
  simp only [candidateOf, Result.bind_ok, Result.failIf_ok, not_not] at h
  obtain ⟨⟨⟩, hdigest, -⟩ := h
  exact hdigest

/-- The checks on the records: as many as there are declared artifacts, each of a declared digest,
and no two of one component. -/
theorem records_of_resolve (h : resolveRuntimeComposition codec declared ⟨records⟩ = .ok r) :
    records.length = declared.artifacts.length ∧
      (∀ record ∈ records, record.digest ∈ declared.artifacts.map (·.artifact)) ∧
      (records.map fun record => record.component.map (·.id)).Nodup := by
  simp only [resolveRuntimeComposition, Result.bind_ok, Result.failIf_ok, not_not] at h
  obtain ⟨-, -, ⟨⟩, hlength, candidates, hcollect, -⟩ := h
  obtain ⟨hrecords, hall, hids⟩ := collectCandidates_ok hcollect
  refine ⟨hlength, fun record hrecord => ?_, ?_⟩
  · rw [← hrecords] at hrecord
    obtain ⟨c, hc, rfl⟩ := List.mem_map.mp hrecord
    exact candidateOf_declared (hall c hc).1
  · have hmap : (records.map fun record => record.component.map (·.id)) =
        (candidates.map (·.contract.id)).map some := by
      rw [← hrecords, List.map_map, List.map_map]
      refine List.map_congr_left fun c hc => ?_
      show c.record.component.map (·.id) = some c.contract.id
      rw [(candidateOf_ok (hall c hc).1).2.1]
      rfl
    rw [hmap]
    exact hids.map (Option.some_injective _)

/-- The accepted records are exactly the declared artifacts when no two components share a digest,
and only then. -/
theorem supplies_iff (h : resolveRuntimeComposition codec declared ⟨records⟩ = .ok r) :
    Supplies declared records ↔ OneComponent records := by
  obtain ⟨hlength, hdeclared, hids⟩ := records_of_resolve h
  constructor
  · rintro ⟨hdistinct, -⟩ a ha b hb heq
    rw [List.inj_on_of_nodup_map hdistinct ha hb heq]
  · intro hone
    have hdistinct : (records.map (·.digest)).Nodup := by
      refine (List.Nodup.of_map _ hids).map_on fun a ha b hb heq => ?_
      exact List.inj_on_of_nodup_map hids ha hb (hone a ha b hb heq)
    have hsubset : records.map (·.digest) ⊆ declared.artifacts.map (·.artifact) := by
      intro digest hdigest
      obtain ⟨record, hrecord, rfl⟩ := List.mem_map.mp hdigest
      exact hdeclared record hrecord
    -- as many different digests as there are artifacts
    have hperm : (records.map (·.digest)).Perm (declared.artifacts.map (·.artifact)) :=
      (hdistinct.subperm hsubset).perm_of_length_le (by simp [hlength])
    exact ⟨hdistinct, fun digest => hperm.mem_iff⟩

end Supplied

namespace RuntimeComposition.Sample

/-- Two components recorded under one digest. -/
def recordsOfOneDigest : List ArtifactRecord := [record renderer artifactB, record usd artifactB]

theorem resolves_oneDigest :
    (resolveRuntimeComposition codec manifest ⟨recordsOfOneDigest⟩).toOption.isSome := by
  rw [recordsOfOneDigest,
    resolve_pair codec (by simp) (by simp) validate_renderer validate_usd (by decide)]
  decide

end RuntimeComposition.Sample

open RuntimeComposition.Sample

theorem topologicalOrder_laws_sample : ∃ candidates s,
    collectCandidates [artifactA, artifactB] [] records = .ok candidates ∧
      resolveSelection manifest (sortBy candidateKey candidates) = .ok s ∧
      ((∃ order, topologicalOrder s.selected s.edges = .ok order) ↔ NoCycle s.edges) ∧
      ∀ order, topologicalOrder s.selected s.edges = .ok order →
        ComponentOrder s order ∧
          ∀ other, ComponentOrder s other → ¬ List.Lex (· < ·) other order := by
  obtain ⟨r, hr⟩ := Result.exists_ok Sample.resolves
  simp only [resolveRuntimeComposition, Result.bind_ok] at hr
  obtain ⟨⟨⟩, -, ⟨⟩, -, candidates, hcollect, s, hselect, -⟩ := hr
  exact ⟨candidates, s, hcollect, hselect, topologicalOrder_laws hcollect hselect⟩

theorem supplies_iff_sample :
    ∃ r, resolveRuntimeComposition codec manifest ⟨records⟩ = .ok r ∧
      (Supplies manifest records ↔ OneComponent records) := by
  obtain ⟨r, hr⟩ := Result.exists_ok Sample.resolves
  exact ⟨r, hr, supplies_iff hr⟩

/-- The first artifact is declared and never supplied. -/
theorem supplies_fails :
    ∃ r, resolveRuntimeComposition codec manifest ⟨recordsOfOneDigest⟩ = .ok r ∧
      ¬ Supplies manifest recordsOfOneDigest := by
  obtain ⟨r, hr⟩ := Result.exists_ok Sample.resolves_oneDigest
  refine ⟨r, hr, fun hsupplies => ?_⟩
  have hmem : artifactA ∈ recordsOfOneDigest.map (·.digest) :=
    (hsupplies.same artifactA).mpr List.mem_cons_self
  exact absurd hmem (by decide)

end OpenStrata
