import OpenStrata.Artifact.StoreHeld
import OpenStrata.Core.Segments

/-!
# Histories of the store

The store answers imports, removals and resolutions one after another, each under its own
faults. Whatever they did, the index is in strict order of digest and every entry has a record
of its digest. Where no fault struck, the entry is that record, and it is the record that the
last import of its digest returned.

## Main definitions

* `StoreRequest`, `StoreEvent`, `StoreHistory`: requests, their answers, and what they lead to
* `lastImported`: the record of the last import of a digest that was not removed since
* `IndexLaws`, `IndexExact`: what the index promises after a history

## Main results

* `resolveIn_ok_iff`: a reference resolves when exactly one digest has its prefix
* `StoreHistory.indexLaws`: the promises hold after every history
-/

namespace OpenStrata

/-- What a caller may ask of the store. -/
inductive StoreRequest
  | call (call : StoreCall)
  | resolve (digestRef : String)

/-- The program that answers a request with a record. -/
def StoreRequest.program (store : ArtifactStore) : StoreRequest → Action ArtifactRecord
  | .call (.importDist pid createdUnix path source) => do
    return (← store.importDist pid createdUnix path source).record
  | .call (.remove digestRef) => store.remove digestRef
  | .resolve digestRef => store.resolve digestRef

/-- A request, the faults it met, and its answer. -/
structure StoreEvent where
  env : Environment StoreOp StoreOp.Reply StoreFault
  request : StoreRequest
  result : Result ArtifactRecord

/-- The requests that an empty store has answered, the latest first, and the store they lead
to. -/
inductive StoreHistory (store : ArtifactStore) : List StoreEvent → World → Prop
  | empty : StoreHistory store [] World.empty
  | answer {past : List StoreEvent} {w : World} (h : StoreHistory store past w)
      (env : Environment StoreOp StoreOp.Reply StoreFault) (request : StoreRequest) :
      StoreHistory store
        (⟨env, request, (Program.run World.step env (request.program store) [] w).result⟩ :: past)
        (Program.run World.step env (request.program store) [] w).state

/-- The record that the last import of a digest returned, unless it was removed since. -/
def lastImported (digest : String) : List StoreEvent → Option ArtifactRecord
  | [] => none
  | event :: past =>
    match event.request, event.result with
    | .call (.importDist ..), .ok record =>
      if record.digest = digest then some record else lastImported digest past
    | .call (.remove _), .ok record =>
      if record.digest = digest then none else lastImported digest past
    | _, _ => lastImported digest past

section LastImported

variable {env : Environment StoreOp StoreOp.Reply StoreFault} {record : ArtifactRecord}
  {past : List StoreEvent} {digest : String}

theorem lastImported_import {pid createdUnix : Nat} {path : DistPath} {source : ArtifactSource} :
    lastImported digest
        (⟨env, .call (.importDist pid createdUnix path source), .ok record⟩ :: past) =
      if record.digest = digest then some record else lastImported digest past :=
  rfl

theorem lastImported_remove {digestRef : String} :
    lastImported digest (⟨env, .call (.remove digestRef), .ok record⟩ :: past) =
      if record.digest = digest then none else lastImported digest past :=
  rfl

/-- A request that fails has imported and removed nothing. -/
theorem lastImported_error {request : StoreRequest} {e : Error} :
    lastImported digest (⟨env, request, .error e⟩ :: past) = lastImported digest past := by
  cases request with
  | call call => cases call <;> rfl
  | resolve digestRef => rfl

end LastImported

/-- No request met a fault. -/
def Quiet (past : List StoreEvent) : Prop := ∀ event ∈ past, event.env = Environment.quiet

/-- What a reference resolves to. -/
def ArtifactStore.resolved (store : ArtifactStore) (w : World) (digestRef : String) :
    Result ArtifactRecord :=
  (Program.run World.step Environment.quiet (store.resolve digestRef) [] w).result

/-- What the index promises where no fault struck. -/
structure IndexExact (store : ArtifactStore) (past : List StoreEvent) (w : World) : Prop where
  stored : ∀ r ∈ w.index.getD [], w.file? r.digestHex RECORD_FILE = some (.record r)
  full : ∀ digestRef hex, digestNeedle digestRef = .ok hex → hex.length = 64 → ∀ record,
    store.resolved w digestRef = .ok record ↔ lastImported ("sha256:" ++ hex) past = some record

/-- What the index promises after a history. -/
structure IndexLaws (store : ArtifactStore) (past : List StoreEvent) (w : World) : Prop where
  sorted : (w.index.getD []).Pairwise (·.digest < ·.digest)
  stored : ∀ r ∈ w.index.getD [], ∃ r', w.file? r.digestHex RECORD_FILE = some (.record r') ∧
    r'.digest = r.digest
  unique : ∀ digestRef needle, digestNeedle digestRef = .ok needle →
    ((∃ record, store.resolved w digestRef = .ok record) ↔
      ∃! digest, ∃ r ∈ w.index.getD [], r.digest = digest ∧ Text.startsWith needle r.digestHex)
  exact : Quiet past → IndexExact store past w

/-! ## Resolution -/

section Resolution

variable {store : ArtifactStore} {w : World} {digestRef needle : String}
  {artifacts : List ArtifactRecord} {record : ArtifactRecord}

/-- Resolving a reference reads the index and looks for its prefix. -/
theorem resolved_eq : store.resolved w digestRef = resolveIn digestRef (indexed w) := by
  unfold ArtifactStore.resolved ArtifactStore.resolve
  cases hneedle : digestNeedle digestRef with
  | error e =>
    rw [resolveIn, hneedle]
    rfl
  | ok needle => rfl

/-- A reference resolves to the only record that its prefix filters. -/
theorem resolveIn_ok_iff (hneedle : digestNeedle digestRef = .ok needle) :
    resolveIn digestRef artifacts = .ok record ↔
      (artifacts.filter fun r => Text.startsWith needle r.digestHex) = [record] := by
  simp only [resolveIn, Result.bind_ok, hneedle, Except.ok.injEq, exists_eq_left']
  constructor
  · intro h
    split at h
    · next one hone =>
      cases h
      exact hone
    · cases h
    · cases h
  · intro h
    rw [h]
    rfl

/-- Exactly one element passes a test when exactly one key has an element that does. -/
theorem filter_eq_singleton_iff {α β : Type} {f : α → β} {p : α → Bool} {l : List α}
    (hnodup : (l.map f).Nodup) : (∃ a, l.filter p = [a]) ↔ ∃! b, ∃ a ∈ l, f a = b ∧ p a := by
  constructor
  · rintro ⟨a, ha⟩
    have hmem : ∀ x, x ∈ l ∧ p x ↔ x = a := fun x => by rw [← List.mem_filter, ha,
      List.mem_singleton]
    obtain ⟨hal, hpa⟩ := (hmem a).mpr rfl
    refine ⟨f a, ⟨a, hal, rfl, hpa⟩, ?_⟩
    rintro b ⟨x, hx, rfl, hpx⟩
    rw [(hmem x).mp ⟨hx, hpx⟩]
  · rintro ⟨b, ⟨a, ha, rfl, hpa⟩, hunique⟩
    refine ⟨a, List.perm_singleton.mp ?_⟩
    rw [List.perm_ext_iff_of_nodup ((List.Nodup.of_map f hnodup).filter p)
      (List.nodup_singleton a)]
    intro x
    rw [List.mem_filter, List.mem_singleton]
    constructor
    · rintro ⟨hx, hpx⟩
      exact List.inj_on_of_nodup_map hnodup hx ha (hunique (f x) ⟨x, hx, rfl, hpx⟩)
    · rintro rfl
      exact ⟨ha, hpa⟩

/-- A full digest is a prefix of itself only. -/
theorem startsWith_digestHex_iff (hcanonical : isCanonicalSha256 record.digest)
    (hlength : needle.length = 64) :
    Text.startsWith needle record.digestHex ↔ record.digest = "sha256:" ++ needle := by
  unfold isCanonicalSha256 at hcanonical
  cases hhex : Text.stripPrefix "sha256:" record.digest with
  | none => simp [hhex] at hcanonical
  | some hex =>
    simp only [hhex, Bool.and_eq_true, beq_iff_eq] at hcanonical
    rw [ArtifactRecord.digestHex, hhex, Option.getD_some, Text.stripPrefix_eq_some.mp hhex,
      Text.startsWith, List.isPrefixOf_iff_prefix]
    constructor
    · intro hinit
      have hlist := hinit.eq_of_length (by
        rw [String.length_toList, String.length_toList, hlength, hcanonical.1])
      rw [String.toList_inj.mp hlist]
    · intro heq
      rw [(String.append_right_inj _).mp heq]

end Resolution

/-! ## One request -/

/-- What an answered request has done to the store. -/
def StoreRequest.Answered (w : World) (record : ArtifactRecord) (s : World) : StoreRequest → Prop
  | .call (.importDist ..) => Indexed w record s
  | .call (.remove _) => Dropped w record s
  | .resolve _ => s = w

section Requests

variable {store : ArtifactStore} {env : Environment StoreOp StoreOp.Reply StoreFault}
  {I : World → Prop} {w s : World} {past : List StoreEvent} {record : ArtifactRecord}

/-- Any request leaves the store filed; one that fails without faults leaves the index and its
records. -/
theorem StoreRequest.spec_program (hw : Filed store w) (request : StoreRequest) :
    Program.Spec World.step env I (fun s => Filed store s ∧ ((∀ t, ¬ I t) → SameIndex w s))
      (request.program store) w fun record s => Filed store s ∧ request.Answered w record s := by
  cases request with
  | call call =>
    cases call with
    | importDist pid createdUnix path source =>
      apply Program.Spec.bind (ArtifactStore.spec_importDist_filed hw)
      exact fun outcome s hs => Program.Spec.pure hs
    | remove digestRef => exact ArtifactStore.spec_remove_filed hw
  | resolve digestRef =>
    apply Program.Spec.mono (ArtifactStore.spec_resolve (F := fun s => s = w) rfl)
    · rintro record s ⟨rfl, -⟩
      exact ⟨hw, rfl⟩
    · rintro s rfl
      exact ⟨hw, fun _ => SameIndex.refl s⟩

/-- Every store that requests lead to is filed. -/
theorem StoreHistory.filed (h : StoreHistory store past w) : Filed store w := by
  induction h with
  | empty => exact filed_empty
  | @answer past w h env request ih =>
    have hspec : Program.Spec World.step env (fun _ => True) _ _ _ _ := request.spec_program ih
    exact hspec.state (Program.faultsWithin_of_forall (fun _ => trivial) _ _ _)
      (fun _ s hs => hs.1) fun s hs => hs.1

/-! ## Requests without faults -/

/-- Every index entry is the record of its directory, and the record that the last import of
its digest returned. -/
structure Mirrored (past : List StoreEvent) (w : World) : Prop where
  stored : ∀ r ∈ w.index.getD [], w.file? r.digestHex RECORD_FILE = some (.record r)
  last : ∀ digest record, lastImported digest past = some record ↔
    record ∈ w.index.getD [] ∧ record.digest = digest

theorem Mirrored.same {event : StoreEvent} (h : Mirrored past w) (hs : SameIndex w s)
    (hlast : ∀ digest, lastImported digest (event :: past) = lastImported digest past) :
    Mirrored (event :: past) s where
  stored := by
    intro r hr
    rw [hs.index] at hr
    rw [hs.records r hr]
    exact h.stored r hr
  last := by
    intro digest record
    rw [hlast, hs.index]
    exact h.last digest record

theorem Mirrored.indexed {pid createdUnix : Nat} {path : DistPath} {source : ArtifactSource}
    (h : Mirrored past w) (hw : Filed store w) (hs : Indexed w record s) :
    Mirrored (⟨env, .call (.importDist pid createdUnix path source), .ok record⟩ :: past) s where
  stored := by
    intro r hr
    rw [hs.index, Option.getD_some, mem_upsertRecord, hw.indexed_eq] at hr
    rcases hr with rfl | ⟨hr, hne⟩
    · exact hs.file
    · rw [hs.others r hr hne]
      exact h.stored r hr
  last := by
    intro digest r
    rw [hs.index, Option.getD_some, mem_upsertRecord, hw.indexed_eq, lastImported_import]
    by_cases hdigest : record.digest = digest
    · rw [if_pos hdigest, Option.some.injEq]
      constructor
      · rintro rfl
        exact ⟨.inl rfl, hdigest⟩
      · rintro ⟨rfl | ⟨-, hne⟩, heq⟩
        · rfl
        · exact absurd (heq.trans hdigest.symm) hne
    · rw [if_neg hdigest, h.last]
      constructor
      · rintro ⟨hr, rfl⟩
        exact ⟨.inr ⟨hr, fun heq => hdigest heq.symm⟩, rfl⟩
      · rintro ⟨rfl | ⟨hr, -⟩, heq⟩
        · exact absurd heq hdigest
        · exact ⟨hr, heq⟩

theorem Mirrored.dropped {digestRef : String} (h : Mirrored past w) (hw : Filed store w)
    (hs : Dropped w record s) :
    Mirrored (⟨env, .call (.remove digestRef), .ok record⟩ :: past) s where
  stored := by
    intro r hr
    rw [hs.index, Option.getD_some, mem_dropDigest, hw.indexed_eq] at hr
    rw [hs.others r hr.1 hr.2]
    exact h.stored r hr.1
  last := by
    intro digest r
    rw [hs.index, Option.getD_some, mem_dropDigest, hw.indexed_eq, lastImported_remove]
    by_cases hdigest : record.digest = digest
    · rw [if_pos hdigest]
      constructor
      · intro hnone
        cases hnone
      · rintro ⟨⟨-, hne⟩, heq⟩
        exact absurd (heq.trans hdigest.symm) hne
    · rw [if_neg hdigest, h.last]
      constructor
      · rintro ⟨hr, rfl⟩
        exact ⟨⟨hr, fun heq => hdigest heq.symm⟩, rfl⟩
      · rintro ⟨⟨hr, -⟩, heq⟩
        exact ⟨hr, heq⟩

/-- Without faults, the index mirrors what was imported. -/
theorem StoreHistory.mirrored (h : StoreHistory store past w) (hquiet : Quiet past) :
    Mirrored past w := by
  induction h with
  | empty =>
    refine ⟨fun r hr => ?_, fun digest record => ?_⟩
    · cases hr
    · simp [lastImported, World.empty]
  | @answer past w h env request ih =>
    have hw := h.filed
    have hpast := ih fun event hevent => hquiet event (List.mem_cons_of_mem _ hevent)
    have henv : env = Environment.quiet := hquiet _ (List.mem_cons_self ..)
    subst henv
    have hspec : Program.Spec World.step Environment.quiet (fun _ => False) _ _ _ _ :=
      request.spec_program hw
    rcases hspec.outcome (Program.faultsWithin_quiet _ [] w) with
      ⟨record, hresult, -, hanswered⟩ | ⟨e, hresult, -, hsame⟩
    · rw [hresult]
      cases request with
      | call call =>
        cases call with
        | importDist pid createdUnix path source => exact hpast.indexed hw hanswered
        | remove digestRef => exact hpast.dropped hw hanswered
      | resolve digestRef =>
        refine hpast.same ?_ fun digest => rfl
        rw [show _ = w from hanswered]
        exact SameIndex.refl w
    · rw [hresult]
      exact hpast.same (hsame fun _ => not_false) fun digest => lastImported_error

end Requests

/-- After every sequence of imports, removals and resolutions, the index keeps its promises. -/
theorem StoreHistory.indexLaws {store : ArtifactStore} {past : List StoreEvent} {w : World}
    (h : StoreHistory store past w) : IndexLaws store past w where
  sorted := h.filed.sorted
  stored := by
    intro r hr
    obtain ⟨r', hfile, -, hdigest⟩ := h.filed.record_of_index hr
    exact ⟨r', hfile, hdigest⟩
  unique := by
    intro digestRef needle hneedle
    simp only [resolved_eq, resolveIn_ok_iff hneedle, h.filed.indexed_eq]
    exact filter_eq_singleton_iff h.filed.nodup
  exact := by
    intro hquiet
    have hmirrored := h.mirrored hquiet
    refine ⟨hmirrored.stored, fun digestRef hex hhex hlength record => ?_⟩
    rw [resolved_eq, resolveIn_ok_iff hhex, h.filed.indexed_eq, hmirrored.last]
    have hsame : ∀ r ∈ w.index.getD [], Text.startsWith hex r.digestHex ↔
        r.digest = "sha256:" ++ hex := fun r hr =>
      startsWith_digestHex_iff (h.filed.index r hr).1 hlength
    constructor
    · intro hfilter
      have hmem : record ∈ (w.index.getD []).filter fun r => Text.startsWith hex r.digestHex := by
        rw [hfilter]
        exact List.mem_singleton_self _
      obtain ⟨hr, hinit⟩ := List.mem_filter.mp hmem
      exact ⟨hr, (hsame record hr).mp hinit⟩
    · rintro ⟨hr, hdigest⟩
      obtain ⟨found, hfound⟩ := (filter_eq_singleton_iff h.filed.nodup).mpr
        ⟨record.digest, ⟨record, hr, rfl, (hsame record hr).mpr hdigest⟩, by
          rintro _ ⟨r, hr', rfl, hinit⟩
          rw [(hsame r hr').mp hinit, hdigest]⟩
      have hmem : record ∈ (w.index.getD []).filter fun r => Text.startsWith hex r.digestHex :=
        List.mem_filter.mpr ⟨hr, (hsame record hr).mpr hdigest⟩
      rw [hfound, List.mem_singleton] at hmem
      rw [hmem, hfound]

/-! ## A short history -/

namespace History.Sample

def store : ArtifactStore :=
  Store.Sample.store [(11, Transport.Sample.archiveHex)] [(289, Store.Sample.manifest [] [])]

def firstImport : StoreRequest :=
  .call (.importDist 1 0 (Store.Sample.dist (Store.Sample.manifest [] []) []) .imported)

/-- The store after the import, and what a prefix of the digest resolves to there. -/
theorem firstImport_resolves :
    (store.resolved (Program.run World.step Environment.quiet (firstImport.program store) []
      World.empty).state "6672c9").toOption.isSome := by
  decide +kernel

end History.Sample

open History.Sample in
theorem StoreHistory.indexLaws_sample : ∃ past w, IndexLaws store past w ∧ Quiet past ∧
    (store.resolved w "6672c9").toOption.isSome := by
  refine ⟨_, _, StoreHistory.indexLaws (.answer .empty Environment.quiet firstImport), ?_,
    firstImport_resolves⟩
  intro event hevent
  rw [List.mem_singleton.mp hevent]

end OpenStrata
