import OpenStrata.Build.Lease

/-!
# Runs of the target lease

The content of a lease file is a function of what was done to it: the last owner that began to
write its record wrote so many bytes of it, and a release has cleared them or not. Only the
process that holds the lock does any of this, so what an acquire reads is still there when the
acquire returns.

## Main definitions

* `Tenure`, `lastTenure`: the last record of a path, from the history of a run
* `stale`: the owner whose complete record was left behind
* `Invariant`: what every run preserves

## Main results

* `Run.invariant`: the run lemma
* `lease_laws`: one holder at a time, and takeovers name the owner left behind
-/

set_option linter.unusedSectionVars false

namespace OpenStrata.Lease

variable {P Path : Type} [DecidableEq Path] {codec : Codec}

/-! ## Records -/

/-- The record of an owner that began to write it. -/
structure Tenure where
  owner : LeaseOwner
  written : Nat
  cleared : Bool

/-- What an action does to the record of a path. -/
def tenureAfter (path : Path) (tenure : Option Tenure) : Action Path → Option Tenure
  | .record path' owner =>
    if path' = path then some { owner, written := 0, cleared := false } else tenure
  | .write path' count =>
    if path' = path then tenure.map fun t => { t with written := t.written + count } else tenure
  | .release path' truncated =>
    if path' = path ∧ truncated then tenure.map fun t => { t with cleared := true } else tenure
  | _ => tenure

/-- The last record of a path. -/
def lastTenure (path : Path) (history : List (P × Action Path)) : Option Tenure :=
  history.foldl (fun tenure event => tenureAfter path tenure event.2) none

/-- The owner whose record was written completely and never cleared. -/
def Tenure.left (t : Tenure) : Option LeaseOwner :=
  if t.cleared = false ∧ (utf8 t.owner.text).length ≤ t.written then some t.owner else none

/-- The last owner of a path that began to write its record, if it wrote it completely and no
release has cleared it since. -/
def stale (path : Path) (history : List (P × Action Path)) : Option LeaseOwner :=
  (lastTenure path history).bind Tenure.left

/-- The owners that began to write a record. -/
def recorded (history : List (P × Action Path)) : List LeaseOwner :=
  history.filterMap fun event => match event.2 with
    | .record _ owner => some owner
    | _ => none

/-- What the parser makes of a record: the text parses to its value, with the line end or
without, and no proper prefix of an object is a value. -/
structure ReadsRecord (codec : Codec) (owner : LeaseOwner) : Prop where
  text : codec.parse (utf8 owner.text) = some owner.toValue
  body : codec.parse owner.body = some owner.toValue
  cut : ∀ n < (utf8 owner.text).length, codec.parse ((utf8 owner.text).take n) = none

/-- The content of a lease file with this last record. -/
def contentOf : Option Tenure → Bytes
  | none => []
  | some t => if t.cleared then [] else t.owner.body.take t.written

theorem body_eq (owner : LeaseOwner) : owner.body = utf8 owner.text ++ [0x0A] := by
  rw [LeaseOwner.body, utf8_append]
  rfl

theorem head_text (owner : LeaseOwner) : ∃ rest, utf8 owner.text = 0x7B :: rest := by
  have hbrace : utf8 "\x7b" = [0x7B] := rfl
  have htext : ∃ rest, owner.text = "\x7b" ++ rest := by
    simp only [LeaseOwner.text, LeaseOwner.fields, Json.renderPretty, String.append_assoc]
    exact ⟨_, rfl⟩
  obtain ⟨rest, hrest⟩ := htext
  exact ⟨utf8 rest, by rw [hrest, utf8_append, hbrace, List.singleton_append]⟩

theorem readOwnerFrom_eq_none {content : Bytes} (h : codec.parse content = none) :
    readOwnerFrom codec content = none := by
  rw [readOwnerFrom, h]
  simp

theorem readOwnerFrom_eq_some {content : Bytes} {owner : LeaseOwner} (hvalid : Utf8.valid content)
    (hhead : ∃ rest, content = 0x7B :: rest) (h : codec.parse content = some owner.toValue) :
    readOwnerFrom codec content = some owner := by
  have hblank : Utf8.isBlank content = false := by
    obtain ⟨rest, rfl⟩ := hhead
    rfl
  rw [readOwnerFrom, if_neg (not_not.mpr hvalid), hblank, if_neg Bool.false_ne_true, h,
    Option.bind_some, LeaseOwner.fromJson_toValue]

/-- Reading back the file finds the owner whose record was left. -/
theorem readOwnerFrom_contentOf {tenure : Option Tenure}
    (h : ∀ t, tenure = some t → ReadsRecord codec t.owner) :
    readOwnerFrom codec (contentOf tenure) = tenure.bind Tenure.left := by
  cases tenure with
  | none => rfl
  | some t =>
    have hreads := h t rfl
    rw [Option.bind_some, Tenure.left, contentOf]
    by_cases hcleared : t.cleared
    · simp only [hcleared, if_true, Bool.true_eq_false, false_and, if_false]
      rfl
    · rw [if_neg hcleared, body_eq]
      by_cases hcomplete : (utf8 t.owner.text).length ≤ t.written
      · rw [if_pos ⟨Bool.not_eq_true _ ▸ hcleared, hcomplete⟩]
        -- All of the text is there, and perhaps the line end after it.
        rcases Nat.eq_or_lt_of_le hcomplete with heq | hlt
        · rw [← heq, List.take_left' rfl]
          exact readOwnerFrom_eq_some (Utf8.valid_utf8 _) (head_text _) hreads.text
        · have hall : (utf8 t.owner.text ++ [0x0A]).take t.written = t.owner.body := by
            rw [body_eq]
            exact List.take_of_length_le (by simpa using Nat.succ_le_of_lt hlt)
          rw [hall]
          refine readOwnerFrom_eq_some (Utf8.valid_utf8 _) ?_ hreads.body
          obtain ⟨rest, hrest⟩ := head_text t.owner
          exact ⟨rest ++ [0x0A], by rw [body_eq, hrest, List.cons_append]⟩
      · rw [if_neg fun h => hcomplete h.2, List.take_append_of_le_length (by omega)]
        exact readOwnerFrom_eq_none (hreads.cut _ (by omega))

/-! ## Histories -/

theorem lastTenure_append {path : Path} {history : List (P × Action Path)} {p : P}
    {a : Action Path} : lastTenure path (history ++ [(p, a)]) =
      tenureAfter path (lastTenure path history) a := by
  rw [lastTenure, List.foldl_append]
  rfl

theorem recorded_append {history : List (P × Action Path)} {event : P × Action Path}
    {owner : LeaseOwner} (h : owner ∈ recorded history) : owner ∈ recorded (history ++ [event]) := by
  rw [recorded, List.filterMap_append, List.mem_append]
  exact .inl h

/-- The last record of a path belongs to an owner that was recorded. -/
theorem mem_recorded {path : Path} {history : List (P × Action Path)} {t : Tenure}
    (h : lastTenure path history = some t) : t.owner ∈ recorded history := by
  induction history using List.reverseRecOn generalizing t with
  | nil => cases h
  | append_singleton history event ih =>
    obtain ⟨p, a⟩ := event
    rw [lastTenure_append] at h
    have hold : ∀ t', lastTenure path history = some t' → t'.owner = t.owner →
        t.owner ∈ recorded (history ++ [(p, a)]) := by
      intro t' ht' howner
      rw [recorded, List.filterMap_append, List.mem_append]
      exact .inl (howner ▸ ih ht')
    unfold tenureAfter at h
    split at h
    · rename_i path' owner
      split at h
      · obtain rfl := Option.some.inj h
        rw [recorded, List.filterMap_append, List.mem_append]
        exact .inr List.mem_cons_self
      · exact hold t h rfl
    · split at h
      · obtain ⟨t', ht', rfl⟩ := Option.map_eq_some_iff.mp h
        exact hold t' ht' rfl
      · exact hold t h rfl
    · split at h
      · obtain ⟨t', ht', rfl⟩ := Option.map_eq_some_iff.mp h
        exact hold t' ht' rfl
      · exact hold t h rfl
    · exact hold t h rfl

/-! ## The invariant -/

theorem lookup_create {s : State P Path} {path path' : Path} {inode : Nat}
    (h : s.lookup path' = some inode) :
    (s.create path).lookup path' = some inode := by
  unfold State.create
  split
  · exact h
  · rename_i hnone
    have hne : path' ≠ path := by
      rintro rfl
      rw [hnone] at h
      cases h
    exact (Function.update_of_ne hne ..).trans h

variable [DecidableEq P]

/-- The acquire of a process found this takeover: the lock was its last to take, and what it
read was the record left behind then. -/
def Found (history : List (P × Action Path)) (p : P) (path : Path)
    (takeover : Option StaleTakeover) : Prop :=
  ∃ before after, history = before ++ (p, .lock path) :: after ∧ (p, .lock path) ∉ after ∧
    takeover.map (·.previous) = stale path before

/-- What a process that has the file of a path open knows, by its stage. -/
def StageInvariant (history : List (P × Action Path)) (p : P) (path : Path) : Stage → Prop
  | .opened => True
  | .locked => ∃ before after, history = before ++ (p, .lock path) :: after ∧
      (p, .lock path) ∉ after ∧ lastTenure path history = lastTenure path before
  | .verified takeover => Found history p path takeover
  | .writing takeover owner written => Found history p path takeover ∧
      lastTenure path history = some { owner, written, cleared := false }
  | .held takeover owner => Found history p path takeover ∧
      lastTenure path history = some { owner, written := owner.body.length, cleared := false }
  | .released => True

/-- What holds of the files. -/
structure FileInvariant (history : List (P × Action Path)) (s : State P Path) : Prop where
  fresh : ∀ path inode, s.lookup path = some inode → inode < s.next
  injective : ∀ path path' inode, s.lookup path = some inode → s.lookup path' = some inode →
    path = path'
  content : ∀ path inode, s.lookup path = some inode →
    s.content inode = contentOf (lastTenure path history)
  unbound : ∀ path, s.lookup path = none → lastTenure path history = none

/-- What holds of a process that has a file open. -/
structure HandleInvariant (history : List (P × Action Path)) (s : State P Path) (p : P)
    (path : Path) (inode : Nat) (stage : Stage) : Prop where
  bound : s.lookup path = some inode
  locked : stage ≠ .opened → s.lock inode = some p
  stage : StageInvariant history p path stage

structure Invariant (history : List (P × Action Path)) (s : State P Path) : Prop where
  files : FileInvariant history s
  handle : ∀ p path inode stage, s.phase p = .handle path inode stage →
    HandleInvariant history s p path inode stage

theorem invariant_initial : Invariant [] (.initial : State P Path) :=
  ⟨⟨nofun, nofun, nofun, fun _ _ => rfl⟩, nofun⟩

/-! ## One step -/

section Step

variable {history : List (P × Action Path)} {s s' : State P Path} {p q : P} {a : Action Path}
  {path : Path} {inode : Nat}

theorem Found.append {takeover : Option StaleTakeover} (h : Found history q path takeover)
    (hne : (p, a) ≠ (q, .lock path)) : Found (history ++ [(p, a)]) q path takeover := by
  obtain ⟨before, after, rfl, hlast, hprevious⟩ := h
  refine ⟨before, after ++ [(p, a)], by simp, ?_, hprevious⟩
  rw [List.mem_append, List.mem_singleton, not_or]
  exact ⟨hlast, fun heq => hne heq.symm⟩

/-- A stage knows the same as long as the record of its path is not touched. -/
theorem StageInvariant.append {stage : Stage} (h : StageInvariant history q path stage)
    (hne : (p, a) ≠ (q, .lock path))
    (htenure : lastTenure path (history ++ [(p, a)]) = lastTenure path history) :
    StageInvariant (history ++ [(p, a)]) q path stage := by
  cases stage with
  | opened => trivial
  | locked =>
    obtain ⟨before, after, hhistory, hlast, hbefore⟩ := h
    refine ⟨before, after ++ [(p, a)], by rw [hhistory]; simp, ?_, htenure.trans hbefore⟩
    rw [List.mem_append, List.mem_singleton, not_or]
    exact ⟨hlast, fun heq => hne heq.symm⟩
  | verified takeover => exact Found.append h hne
  | writing takeover owner written => exact ⟨h.1.append hne, htenure.trans h.2⟩
  | held takeover owner => exact ⟨h.1.append hne, htenure.trans h.2⟩
  | released => trivial

/-- An action touches the record of a path only by the process that has its lock. -/
theorem tenure_of_lock (hinv : Invariant history s) (hstep : Step codec s p a s')
    (hlookup : s.lookup path = some inode) (hlock : s.lock inode ≠ some p) :
    lastTenure path (history ++ [(p, a)]) = lastTenure path history := by
  have hother : ∀ {path' inode' stage}, s.phase p = .handle path' inode' stage →
      stage ≠ .opened → path' ≠ path := by
    rintro path' inode' stage hphase hstage rfl
    have hhandle := hinv.handle p path' inode' stage hphase
    obtain rfl := Option.some.inj (hlookup.symm.trans hhandle.bound)
    exact hlock (hhandle.locked hstage)
  rw [lastTenure_append]
  cases hstep with
  | record hphase => exact if_neg (hother hphase nofun)
  | write hphase => exact if_neg (hother hphase nofun)
  | release hphase => exact if_neg fun h => hother hphase nofun h.1
  | _ => rfl

/-- The frame of a step: what other processes have is theirs after it. -/
theorem Step.frame (hstep : Step codec s p a s') (hne : q ≠ p) :
    s'.phase q = s.phase q ∧ (∀ path inode, s.lookup path = some inode →
      s'.lookup path = some inode) ∧ ∀ inode, s.lock inode = some q → s'.lock inode = some q := by
  have hphase (s : State P Path) (phase : Phase Path) : (s.enter p phase).phase q = s.phase q :=
    Function.update_of_ne hne ..
  have hdrop : ∀ inode, s.lock inode = some q → (s.dropLocks p).lock inode = some q := by
    intro inode hlock
    show (s.lock inode).filter _ = some q
    rw [hlock, Option.filter_some, if_pos (by simpa using hne)]
  cases hstep with
  | openFile hidle hinode =>
    refine ⟨(hphase _ _).trans ?_, fun _ _ => lookup_create, fun inode hlock => ?_⟩
    · unfold State.create
      split <;> rfl
    · show (State.create s _).lock inode = some q
      unfold State.create
      split <;> exact hlock
  | @lock path' inode' hhandle hfree =>
    refine ⟨hphase _ _, fun _ _ h => h, fun inode hlock => ?_⟩
    have hinode : inode ≠ inode' := by
      rintro rfl
      rw [hfree] at hlock
      cases hlock
    show Function.update s.lock inode' (some p) inode = some q
    rw [Function.update_of_ne hinode, hlock]
  | release hhandle =>
    refine ⟨(hphase _ _).trans ?_, fun _ _ h => ?_, fun inode hlock => ?_⟩
    · split <;> rfl
    · show (ite _ _ _ : State P Path).lookup _ = _
      split <;> exact h
    · show (ite _ _ _ : State P Path).lock _ = _
      split <;> exact hlock
  | close => exact ⟨hphase _ _, fun _ _ h => h, hdrop⟩
  | drop => exact ⟨hphase _ _, fun _ _ h => h, hdrop⟩
  | fail => exact ⟨hphase _ _, fun _ _ h => h, hdrop⟩
  | crash => exact ⟨hphase _ _, fun _ _ h => h, hdrop⟩
  | _ => exact ⟨hphase _ _, fun _ _ h => h, fun _ h => h⟩

theorem overwrite_take {content : Bytes} {n count : Nat} (h : n + count ≤ content.length) :
    overwrite (content.take n) n ((content.drop n).take count) = content.take (n + count) := by
  have hlength : (content.take n).length = n := by
    rw [List.length_take]
    omega
  have hrest : (content.take n).drop (n + ((content.drop n).take count).length) = [] :=
    List.drop_eq_nil_of_le (by omega)
  rw [overwrite, hrest, hlength, Nat.sub_self, List.take_of_length_le (by omega), List.take_add]
  simp

/-- Files after a step that leaves them and the records of their paths alone. -/
theorem FileInvariant.keep (h : FileInvariant history s) (hlookup : s'.lookup = s.lookup)
    (hnext : s'.next = s.next) (hcontent : s'.content = s.content)
    (htenure : ∀ path, lastTenure path (history ++ [(p, a)]) = lastTenure path history) :
    FileInvariant (history ++ [(p, a)]) s' := by
  refine ⟨?_, ?_, ?_, ?_⟩
  · rw [hlookup, hnext]
    exact h.fresh
  · rw [hlookup]
    exact h.injective
  · intro path inode hpath
    rw [hcontent, htenure]
    exact h.content path inode (hlookup ▸ hpath)
  · intro path hpath
    rw [htenure]
    exact h.unbound path (hlookup ▸ hpath)

/-- Files after a step that changes the content behind one path as its record. -/
theorem FileInvariant.set {content : Bytes} (h : FileInvariant history s)
    (hbound : s.lookup path = some inode) (hlookup : s'.lookup = s.lookup)
    (hnext : s'.next = s.next) (hcontent : s'.content = Function.update s.content inode content)
    (hown : content = contentOf (lastTenure path (history ++ [(p, a)])))
    (hother : ∀ path', path' ≠ path →
      lastTenure path' (history ++ [(p, a)]) = lastTenure path' history) :
    FileInvariant (history ++ [(p, a)]) s' := by
  refine ⟨?_, ?_, ?_, ?_⟩
  · rw [hlookup, hnext]
    exact h.fresh
  · rw [hlookup]
    exact h.injective
  · intro path' inode' hpath
    rw [hlookup] at hpath
    rw [hcontent]
    by_cases hsame : path' = path
    · subst hsame
      obtain rfl := Option.some.inj (hbound.symm.trans hpath)
      rw [Function.update_self, hown]
    · have hinode : inode' ≠ inode := by
        rintro rfl
        exact hsame (h.injective _ _ _ hpath hbound)
      rw [Function.update_of_ne hinode, hother path' hsame]
      exact h.content path' inode' hpath
  · intro path' hpath
    rw [hlookup] at hpath
    have hsame : path' ≠ path := by
      rintro rfl
      rw [hbound] at hpath
      cases hpath
    rw [hother path' hsame]
    exact h.unbound path' hpath

theorem FileInvariant.create (h : FileInvariant history s)
    (htenure : ∀ path, lastTenure path (history ++ [(p, a)]) = lastTenure path history)
    {phase : Phase Path} :
    FileInvariant (history ++ [(p, a)]) ((s.create path).enter p phase) := by
  unfold State.create
  split
  · exact h.keep rfl rfl rfl htenure
  · rename_i hnone
    -- The path gets the next inode, an empty file.
    have hcases : ∀ {path' inode'}, Function.update s.lookup path (some s.next) path' =
        some inode' → path' = path ∧ inode' = s.next ∨
          path' ≠ path ∧ s.lookup path' = some inode' := by
      intro path' inode' hpath
      by_cases hsame : path' = path
      · subst hsame
        rw [Function.update_self] at hpath
        exact .inl ⟨rfl, (Option.some.inj hpath).symm⟩
      · rw [Function.update_of_ne hsame] at hpath
        exact .inr ⟨hsame, hpath⟩
    refine ⟨?_, ?_, ?_, ?_⟩
    · intro path' inode' hpath
      show inode' < s.next + 1
      rcases hcases hpath with ⟨-, rfl⟩ | ⟨-, hold⟩
      · omega
      · have := h.fresh path' inode' hold
        omega
    · intro path₁ path₂ inode' hpath₁ hpath₂
      rcases hcases hpath₁ with ⟨rfl, rfl⟩ | ⟨-, hold₁⟩
      · rcases hcases hpath₂ with ⟨rfl, -⟩ | ⟨-, hold₂⟩
        · rfl
        · exact absurd (h.fresh _ _ hold₂) (lt_irrefl _)
      · rcases hcases hpath₂ with ⟨rfl, rfl⟩ | ⟨-, hold₂⟩
        · exact absurd (h.fresh _ _ hold₁) (lt_irrefl _)
        · exact h.injective _ _ _ hold₁ hold₂
    · intro path' inode' hpath
      rw [htenure]
      show Function.update s.content s.next [] inode' = _
      rcases hcases hpath with ⟨rfl, rfl⟩ | ⟨-, hold⟩
      · rw [Function.update_self, h.unbound path' hnone]
        rfl
      · rw [Function.update_of_ne (h.fresh path' inode' hold).ne]
        exact h.content path' inode' hold
    · intro path' hpath
      rw [htenure]
      have hsame : path' ≠ path := by
        rintro rfl
        have hself : Function.update s.lookup path' (some s.next) path' = none := hpath
        rw [Function.update_self] at hself
        cases hself
      refine h.unbound path' ?_
      rw [← hpath]
      exact (Function.update_of_ne hsame (some s.next) s.lookup).symm

/-- The step lemma of the files. -/
theorem FileInvariant.step (hinv : Invariant history s) (hstep : Step codec s p a s') :
    FileInvariant (history ++ [(p, a)]) s' := by
  have hfiles := hinv.files
  cases hstep with
  | openFile => exact hfiles.create fun path => by rw [lastTenure_append]; rfl
  | @record path inode takeover owner hphase =>
    have hhandle := hinv.handle _ _ _ _ hphase
    refine hfiles.set hhandle.bound rfl rfl rfl ?_ fun path' hne => ?_
    · rw [lastTenure_append, tenureAfter, if_pos rfl]
      rfl
    · rw [lastTenure_append, tenureAfter, if_neg hne.symm]
  | @write path inode takeover owner written count hphase hcount =>
    have hhandle := hinv.handle _ _ _ _ hphase
    obtain ⟨-, htenure⟩ := hhandle.stage
    refine hfiles.set hhandle.bound rfl rfl rfl ?_ fun path' hne => ?_
    · rw [lastTenure_append, tenureAfter, if_pos rfl, hfiles.content _ _ hhandle.bound, htenure]
      exact overwrite_take hcount
    · rw [lastTenure_append, tenureAfter, if_neg hne.symm]
  | @release path inode takeover owner truncated hphase =>
    have hhandle := hinv.handle _ _ _ _ hphase
    obtain ⟨-, htenure⟩ := hhandle.stage
    cases truncated with
    | true =>
      refine hfiles.set hhandle.bound rfl rfl rfl ?_ fun path' hne => ?_
      · rw [lastTenure_append, tenureAfter, if_pos ⟨rfl, rfl⟩, htenure]
        rfl
      · rw [lastTenure_append, tenureAfter, if_neg fun h => hne h.1.symm]
    | false =>
      refine hfiles.keep rfl rfl rfl fun path' => ?_
      rw [lastTenure_append, tenureAfter, if_neg fun h => Bool.false_ne_true h.2]
  | _ => exact hfiles.keep rfl rfl rfl fun path => by rw [lastTenure_append]; rfl

/-- The step lemma of the process that takes the step. -/
theorem HandleInvariant.step {stage : Stage} (hinv : Invariant history s)
    (hstep : Step codec s p a s')
    (hcodec : ∀ owner ∈ recorded history, ReadsRecord codec owner)
    (hphase' : s'.phase p = .handle path inode stage) :
    HandleInvariant (history ++ [(p, a)]) s' p path inode stage := by
  have hself (s : State P Path) (phase : Phase Path) : (s.enter p phase).phase p = phase :=
    Function.update_self ..
  cases hstep with
  | openFile hidle hinode =>
    rw [hself] at hphase'
    cases hphase'
    exact ⟨hinode, fun h => absurd rfl h, trivial⟩
  | lock hphase hfree =>
    rw [hself] at hphase'
    cases hphase'
    have hhandle := hinv.handle _ _ _ _ hphase
    refine ⟨hhandle.bound, fun _ => Function.update_self .., history, [], rfl, nofun, ?_⟩
    rw [lastTenure_append]
    rfl
  | verify host isLive hphase =>
    rw [hself] at hphase'
    cases hphase'
    have hhandle := hinv.handle _ _ _ _ hphase
    refine ⟨hhandle.bound, fun _ => hhandle.locked nofun, Found.append ?_ nofun⟩
    -- What was left at the lock is still in the file.
    obtain ⟨before, after, hhistory, hlast, htenure⟩ := hhandle.stage
    refine ⟨before, after, hhistory, hlast, ?_⟩
    rw [Option.map_map, hinv.files.content _ _ hhandle.bound,
      readOwnerFrom_contentOf fun t ht => hcodec _ (mem_recorded ht), stale, ← htenure]
    exact Option.map_id'
  | record hphase =>
    rw [hself] at hphase'
    cases hphase'
    have hhandle := hinv.handle _ _ _ _ hphase
    refine ⟨hhandle.bound, fun _ => hhandle.locked nofun, Found.append hhandle.stage nofun, ?_⟩
    rw [lastTenure_append, tenureAfter, if_pos rfl]
  | write hphase hcount =>
    rw [hself] at hphase'
    cases hphase'
    have hhandle := hinv.handle _ _ _ _ hphase
    refine ⟨hhandle.bound, fun _ => hhandle.locked nofun, Found.append hhandle.stage.1 nofun, ?_⟩
    rw [lastTenure_append, tenureAfter, if_pos rfl, hhandle.stage.2]
    rfl
  | acquired hphase =>
    rw [hself] at hphase'
    cases hphase'
    have hhandle := hinv.handle _ _ _ _ hphase
    refine ⟨hhandle.bound, fun _ => hhandle.locked nofun, Found.append hhandle.stage.1 nofun, ?_⟩
    rw [lastTenure_append]
    exact hhandle.stage.2
  | @release path inode takeover owner truncated hphase =>
    rw [hself] at hphase'
    cases hphase'
    have hhandle := hinv.handle _ _ _ _ hphase
    refine ⟨?_, fun _ => ?_, trivial⟩
    · cases truncated <;> exact hhandle.bound
    · cases truncated <;> exact hhandle.locked nofun
  | _ =>
    rw [hself] at hphase'
    cases hphase'

/-- The step lemma of the invariant. -/
theorem Invariant.step (hinv : Invariant history s) (hstep : Step codec s p a s')
    (hcodec : ∀ owner ∈ recorded history, ReadsRecord codec owner) :
    Invariant (history ++ [(p, a)]) s' := by
  refine ⟨.step hinv hstep, fun q path inode stage hphase => ?_⟩
  by_cases hq : q = p
  · subst hq
    exact .step hinv hstep hcodec hphase
  · obtain ⟨hframe, hlookup, hlock⟩ := hstep.frame hq
    have hhandle := hinv.handle q path inode stage (hframe ▸ hphase)
    have hne : (p, a) ≠ (q, .lock path) := fun h => hq (congrArg Prod.fst h).symm
    refine ⟨hlookup _ _ hhandle.bound, fun h => hlock _ (hhandle.locked h), ?_⟩
    by_cases hstage : stage = .opened
    · rw [hstage]
      trivial
    · refine hhandle.stage.append hne (tenure_of_lock hinv hstep hhandle.bound ?_)
      rw [hhandle.locked hstage]
      exact fun h => hq (Option.some.inj h)

end Step

/-! ## Locks

Who has a lock does not depend on what the records say. -/

/-- A process that has a file open has the one behind the path, and past the opening its lock. -/
def Bound (s : State P Path) : Prop :=
  ∀ p path inode stage, s.phase p = .handle path inode stage →
    s.lookup path = some inode ∧ (stage ≠ .opened → s.lock inode = some p)

theorem bound_initial : Bound (State.initial : State P Path) := nofun

/-- The step lemma of the locks. -/
theorem Bound.step {s s' : State P Path} {p : P} {a : Action Path} (h : Bound s)
    (hstep : Step codec s p a s') : Bound s' := by
  intro q path inode stage hphase
  by_cases hq : q = p
  · subst hq
    have hself (s : State P Path) (phase : Phase Path) : (s.enter q phase).phase q = phase :=
      Function.update_self ..
    cases hstep with
    | openFile hidle hinode =>
      rw [hself] at hphase
      cases hphase
      exact ⟨hinode, fun h => absurd rfl h⟩
    | lock hold hfree =>
      rw [hself] at hphase
      cases hphase
      exact ⟨(h _ _ _ _ hold).1, fun _ => Function.update_self ..⟩
    | verify host isLive hold =>
      rw [hself] at hphase
      cases hphase
      exact ⟨(h _ _ _ _ hold).1, fun _ => (h _ _ _ _ hold).2 nofun⟩
    | record hold =>
      rw [hself] at hphase
      cases hphase
      exact ⟨(h _ _ _ _ hold).1, fun _ => (h _ _ _ _ hold).2 nofun⟩
    | write hold hcount =>
      rw [hself] at hphase
      cases hphase
      exact ⟨(h _ _ _ _ hold).1, fun _ => (h _ _ _ _ hold).2 nofun⟩
    | acquired hold =>
      rw [hself] at hphase
      cases hphase
      exact ⟨(h _ _ _ _ hold).1, fun _ => (h _ _ _ _ hold).2 nofun⟩
    | @release _ _ _ _ truncated hold =>
      rw [hself] at hphase
      cases hphase
      cases truncated <;> exact ⟨(h _ _ _ _ hold).1, fun _ => (h _ _ _ _ hold).2 nofun⟩
    | _ =>
      rw [hself] at hphase
      cases hphase
  · obtain ⟨hframe, hlookup, hlock⟩ := hstep.frame hq
    obtain ⟨hbound, hlocked⟩ := h q path inode stage (hframe ▸ hphase)
    exact ⟨hlookup _ _ hbound, fun hstage => hlock _ (hlocked hstage)⟩

/-! ## Runs -/

/-- The run lemma. -/
theorem Run.invariant {history : List (P × Action Path)} {s : State P Path}
    (run : Run codec history s) (hcodec : ∀ owner ∈ recorded history, ReadsRecord codec owner) :
    Invariant history s := by
  induction run with
  | initial => exact invariant_initial
  | step _ hstep ih =>
    have hbefore := fun owner howner => hcodec owner (recorded_append howner)
    exact (ih hbefore).step hstep hbefore

/-- The takeover that an acquire has found, from the reading of the record on. -/
def takeoverOf (s : State P Path) (p : P) : Option (Path × Option StaleTakeover) :=
  match s.phase p with
  | .handle path _ (.verified takeover) => some (path, takeover)
  | .handle path _ (.writing takeover _ _) => some (path, takeover)
  | .handle path _ (.held takeover _) => some (path, takeover)
  | _ => none

/-- In every run at most one live process holds the lease of a path, and an acquire reports a
takeover exactly if the last owner that had begun to write its record before the lock was taken
had written it completely and no release had cleared it; it names that owner. -/
theorem lease_laws {history : List (P × Action Path)} {s : State P Path}
    (run : Run codec history s) (hcodec : ∀ owner ∈ recorded history, ReadsRecord codec owner) :
    (∀ p q path, Holds s p path → Holds s q path → p = q) ∧
    ∀ p path takeover, takeoverOf s p = some (path, takeover) →
      ∃ before after, history = before ++ (p, .lock path) :: after ∧ (p, .lock path) ∉ after ∧
        takeover.map (·.previous) = stale path before := by
  have hinv := run.invariant hcodec
  constructor
  · rintro p q path ⟨inode, _, _, hp⟩ ⟨inode', _, _, hq⟩
    have hp := hinv.handle _ _ _ _ hp
    have hq := hinv.handle _ _ _ _ hq
    obtain rfl := Option.some.inj (hp.bound.symm.trans hq.bound)
    exact Option.some.inj ((hp.locked nofun).symm.trans (hq.locked nofun))
  · intro p path takeover h
    unfold takeoverOf at h
    split at h
    · rename_i hphase
      cases h
      exact (hinv.handle _ _ _ _ hphase).stage
    · rename_i hphase
      cases h
      exact (hinv.handle _ _ _ _ hphase).stage.1
    · rename_i hphase
      cases h
      exact (hinv.handle _ _ _ _ hphase).stage.1
    · cases h

/-! ## An interrupted acquire -/

/-- A parser that knows the record of one owner. -/
def recordCodec (owner : LeaseOwner) : Codec where
  sha256 _ := []
  parse bytes :=
    if bytes = utf8 owner.text ∨ bytes = owner.body then some owner.toValue else none

theorem readsRecord_recordCodec (owner : LeaseOwner) : ReadsRecord (recordCodec owner) owner := by
  have hparse (bytes : Bytes) : (recordCodec owner).parse bytes =
      if bytes = utf8 owner.text ∨ bytes = owner.body then some owner.toValue else none := rfl
  refine ⟨by rw [hparse, if_pos (.inl rfl)], by rw [hparse, if_pos (.inr rfl)], fun n hn => ?_⟩
  rw [hparse, if_neg]
  have hlength : ((utf8 owner.text).take n).length = n := by
    rw [List.length_take]
    omega
  rintro (heq | heq)
  · rw [heq] at hlength
    omega
  · rw [heq, body_eq, List.length_append] at hlength
    omega

def sampleOwner : LeaseOwner where
  schema := TARGET_LEASE_SCHEMA
  invocation := "deadbeefdeadbeef"
  command := "ost build"
  target := "cy2026-linux"
  pid := 4711
  host := "builder"
  acquiredUnix := 1

/-- The first process acquires the lease and crashes, the second takes the lock and crashes
before it touches the record, and the third opens the file. -/
def sampleHistory : List (Nat × Action Unit) := [
  (0, .openFile ()), (0, .lock ()), (0, .verify), (0, .record () sampleOwner),
  (0, .write () sampleOwner.body.length), (0, .acquired), (0, .crash),
  (1, .openFile ()), (1, .lock ()), (1, .crash), (2, .openFile ())]

theorem readOwnerFrom_sampleOwner :
    readOwnerFrom (recordCodec sampleOwner) sampleOwner.body = some sampleOwner := by
  refine readOwnerFrom_eq_some (Utf8.valid_utf8 _) ?_ (readsRecord_recordCodec _).body
  obtain ⟨rest, hrest⟩ := head_text sampleOwner
  exact ⟨rest ++ [0x0A], by rw [body_eq, hrest, List.cons_append]⟩

/-- The third process finds the record of the first. -/
theorem run_sample : ∃ s : State Nat Unit,
    Run (recordCodec sampleOwner) (sampleHistory ++ [(2, .lock ()), (2, .verify)]) s ∧
      takeoverOf s 2 =
        some ((), some { previous := sampleOwner, reason := .ownerExited }) := by
  have run₀ : Run (recordCodec sampleOwner) ([] : List (Nat × Action Unit)) .initial := .initial
  have run₁ := run₀.step (show Step _ _ 0 (.openFile ()) _ from .openFile rfl rfl)
  have run₂ := run₁.step (show Step _ _ 0 (.lock ()) _ from .lock rfl rfl)
  have run₃ := run₂.step (show Step _ _ 0 .verify _ from .verify "builder" (fun _ => false) rfl)
  have run₄ := run₃.step (show Step _ _ 0 (.record () sampleOwner) _ from .record rfl)
  have run₅ := run₄.step
    (show Step _ _ 0 (.write () sampleOwner.body.length) _ from .write rfl (Nat.zero_add _).le)
  rw [Nat.zero_add] at run₅
  have run₆ := run₅.step (show Step _ _ 0 .acquired _ from .acquired rfl)
  have run₇ := run₆.step (show Step _ _ 0 .crash _ from .crash)
  have run₈ := run₇.step (show Step _ _ 1 (.openFile ()) _ from .openFile rfl rfl)
  have run₉ := run₈.step (show Step _ _ 1 (.lock ()) _ from .lock rfl rfl)
  have run₁₀ := run₉.step (show Step _ _ 1 .crash _ from .crash)
  have run₁₁ := run₁₀.step (show Step _ _ 2 (.openFile ()) _ from .openFile rfl rfl)
  have run₁₂ := run₁₁.step (show Step _ _ 2 (.lock ()) _ from .lock rfl rfl)
  have run₁₃ := run₁₂.step (show Step _ _ 2 .verify _ from .verify "builder" (fun _ => false) rfl)
  refine ⟨_, run₁₃, ?_⟩
  have hcontent : overwrite [] 0 ((sampleOwner.body.drop 0).take sampleOwner.body.length) =
      sampleOwner.body := by simp [overwrite]
  show some ((), (readOwnerFrom (recordCodec sampleOwner) (overwrite [] 0
    ((sampleOwner.body.drop 0).take sampleOwner.body.length))).map _) = _
  rw [hcontent, readOwnerFrom_sampleOwner]
  rfl

theorem lease_laws_sample : ∃ s : State Nat Unit,
    takeoverOf s 2 = some ((), some { previous := sampleOwner, reason := .ownerExited }) ∧
      (∀ p q path, Holds s p path → Holds s q path → p = q) ∧
      ∃ before after, sampleHistory ++ [(2, .lock ()), (2, .verify)] =
          before ++ (2, .lock ()) :: after ∧ (2, .lock ()) ∉ after ∧
        some sampleOwner = stale () before := by
  have hcodec : ∀ owner ∈ recorded (sampleHistory ++ [(2, .lock ()), (2, .verify)]),
      ReadsRecord (recordCodec sampleOwner) owner := by
    intro owner howner
    obtain rfl := List.mem_singleton.mp (show owner ∈ [sampleOwner] from howner)
    exact readsRecord_recordCodec _
  obtain ⟨s, run, htakeover⟩ := run_sample
  exact ⟨s, htakeover, (lease_laws run hcodec).1, (lease_laws run hcodec).2 2 () _ htakeover⟩

/-- The last process that took the lock of a path. -/
def lastLocker (path : Path) (history : List (P × Action Path)) : Option P :=
  history.reverse.findSome? fun event => match event.2 with
    | .lock path' => if path' = path then some event.1 else none
    | _ => none

/-- The owner that a takeover names need not be the last that had the lock: one that ended before
it touched the record left the record of an earlier owner. -/
theorem takeover_names_earlier_owner : ¬ ∀ (codec : Codec) (before after : List (Nat × Action Unit))
    (s : State Nat Unit) (p q : Nat) (takeover : StaleTakeover),
    Run codec (before ++ (p, .lock ()) :: after) s → (p, .lock ()) ∉ after →
    (∀ owner ∈ recorded (before ++ (p, .lock ()) :: after), ReadsRecord codec owner) →
    takeoverOf s p = some ((), some takeover) → lastLocker () before = some q →
    (q, .record () takeover.previous) ∈ before := by
  intro h
  obtain ⟨s, run, htakeover⟩ := run_sample
  have hmem := h _ sampleHistory [(2, .verify)] s 2 1 _ run ?_ ?_ htakeover rfl
  · simp [sampleHistory] at hmem
  · simp
  · intro owner howner
    obtain rfl := List.mem_singleton.mp (show owner ∈ [sampleOwner] from howner)
    exact readsRecord_recordCodec _

end OpenStrata.Lease
