import OpenStrata.Lib.Program

/-!
# Specifications of programs under faults

Rules to reason about a program that is run under an environment whose faults only strike in
certain states. A specification says what holds after success and what holds after failure;
it is established operation by operation, and a sequence by its parts.

## Main definitions

* `Program.FaultsWithin`: every fault of a run strikes in a state that satisfies a predicate
* `Program.Spec`: after a run, a postcondition of its success or of its failure
* `Program.EndsWith`, `Program.Agree`: runs that only observe the state

## Main results

* `Program.Spec.bind`, `Program.Spec.perform`, `Program.Spec.attempt_bind`: the rules
* `Program.Spec.of_calls`: a program whose every operation preserves the failure condition
* `Program.succeeds_bind`: a sequence succeeds when its parts do
* `Program.faultsWithin_quiet`: an environment without faults is within any predicate
-/

namespace OpenStrata.Program

variable {Op : Type} {Reply : Op → Type} {Fault S E α β : Type}

/-- Every fault of the run strikes in a state that satisfies `I`. -/
def FaultsWithin (machine : Machine Op Reply Fault S) (env : Environment Op Reply Fault)
    (I : S → Prop) : Program Op Reply E α → List (Event Op Reply) → S → Prop
  | .done _, _, _ => True
  | .call op next, past, s =>
    let r := machine op (env past op) s
    (env past op ≠ none → I s) ∧
      FaultsWithin machine env I (next r.1) (⟨op, r.1⟩ :: past) r.2

/-- After a run from `s` whose faults are within `I`, success satisfies `Q` and failure
satisfies `F`. -/
structure Spec (machine : Machine Op Reply Fault S) (env : Environment Op Reply Fault)
    (I F : S → Prop) (p : Program Op Reply E α) (s : S) (Q : α → S → Prop) : Prop where
  post : ∀ past, FaultsWithin machine env I p past s →
    match run machine env p past s with
    | ⟨.ok a, _, s'⟩ => Q a s'
    | ⟨.error _, _, s'⟩ => F s'

variable {machine : Machine Op Reply Fault S} {env : Environment Op Reply Fault}
  {I F : S → Prop}

theorem faultsWithin_quiet (p : Program Op Reply E α) (past : List (Event Op Reply)) (s : S) :
    FaultsWithin machine Environment.quiet I p past s := by
  induction p generalizing past s with
  | done r => trivial
  | call op next ih => exact ⟨fun h => absurd rfl h, ih _ _ _⟩

theorem faultsWithin_bind {p : Program Op Reply E α} {f : α → Program Op Reply E β}
    {past : List (Event Op Reply)} {s : S} :
    FaultsWithin machine env I (p >>= f) past s ↔
      FaultsWithin machine env I p past s ∧
        match run machine env p past s with
        | ⟨.ok a, past', s'⟩ => FaultsWithin machine env I (f a) past' s'
        | ⟨.error _, _, _⟩ => True := by
  induction p generalizing past s with
  | done r =>
    cases r with
    | ok a => simp [FaultsWithin]
    | error e => simp [FaultsWithin]
  | call op next ih =>
    rw [call_bind, run_call]
    simp only [FaultsWithin]
    rw [ih, and_assoc]

theorem faultsWithin_attempt {p : Program Op Reply E α} {past : List (Event Op Reply)}
    {s : S} : FaultsWithin machine env I p.attempt past s ↔
      FaultsWithin machine env I p past s := by
  induction p generalizing past s with
  | done r => exact Iff.rfl
  | call op next ih =>
    simp only [attempt, FaultsWithin]
    rw [ih]

/-- Every fault is within a predicate that holds of all states. -/
theorem faultsWithin_of_forall (h : ∀ s, I s) (p : Program Op Reply E α)
    (past : List (Event Op Reply)) (s : S) : FaultsWithin machine env I p past s := by
  induction p generalizing past s with
  | done r => trivial
  | call op next ih => exact ⟨fun _ => h s, ih _ _ _⟩

/-- The state in which a specified run ends. -/
theorem Spec.state {p : Program Op Reply E α} {s : S} {Q : α → S → Prop} {G : S → Prop}
    {past : List (Event Op Reply)} (h : Spec machine env I F p s Q)
    (hfaults : FaultsWithin machine env I p past s) (hok : ∀ a s', Q a s' → G s')
    (herror : ∀ s', F s' → G s') : G (run machine env p past s).state := by
  have hpost := h.post past hfaults
  rcases hrun : run machine env p past s with ⟨r, past', s'⟩
  rw [hrun] at hpost
  cases r with
  | ok a => exact hok a s' hpost
  | error e => exact herror s' hpost

/-- A specified run succeeds with its postcondition or fails with the failure condition. -/
theorem Spec.outcome {p : Program Op Reply E α} {s : S} {Q : α → S → Prop}
    {past : List (Event Op Reply)} (h : Spec machine env I F p s Q)
    (hfaults : FaultsWithin machine env I p past s) :
    (∃ a, (run machine env p past s).result = .ok a ∧ Q a (run machine env p past s).state) ∨
      ∃ e, (run machine env p past s).result = .error e ∧ F (run machine env p past s).state := by
  have hpost := h.post past hfaults
  rcases hrun : run machine env p past s with ⟨r, past', s'⟩
  rw [hrun] at hpost
  cases r with
  | ok a => exact .inl ⟨a, rfl, hpost⟩
  | error e => exact .inr ⟨e, rfl, hpost⟩

/-- A specified run that succeeds satisfies its postcondition. -/
theorem Spec.of_ok {p : Program Op Reply E α} {s s' : S} {Q : α → S → Prop}
    {past past' : List (Event Op Reply)} {a : α} (h : Spec machine env I F p s Q)
    (hfaults : FaultsWithin machine env I p past s)
    (hrun : run machine env p past s = ⟨.ok a, past', s'⟩) : Q a s' := by
  have hpost := h.post past hfaults
  rw [hrun] at hpost
  exact hpost

/-- A specified run that fails satisfies the failure condition. -/
theorem Spec.of_error {p : Program Op Reply E α} {s s' : S} {Q : α → S → Prop}
    {past past' : List (Event Op Reply)} {e : E} (h : Spec machine env I F p s Q)
    (hfaults : FaultsWithin machine env I p past s)
    (hrun : run machine env p past s = ⟨.error e, past', s'⟩) : F s' := by
  have hpost := h.post past hfaults
  rw [hrun] at hpost
  exact hpost

theorem Spec.done_ok {a : α} {s : S} {Q : α → S → Prop} (h : Q a s) :
    Spec machine env I F (.done (.ok a) : Program Op Reply E α) s Q :=
  ⟨fun _ _ => h⟩

theorem Spec.done_error {e : E} {s : S} {Q : α → S → Prop} (h : F s) :
    Spec machine env I F (.done (.error e) : Program Op Reply E α) s Q :=
  ⟨fun _ _ => h⟩

theorem Spec.pure {a : α} {s : S} {Q : α → S → Prop} (h : Q a s) :
    Spec machine env I F (pure a : Program Op Reply E α) s Q :=
  ⟨fun _ _ => h⟩

/-- A sequence is specified by its parts. -/
theorem Spec.bind {p : Program Op Reply E α} {f : α → Program Op Reply E β} {s : S}
    {R : α → S → Prop} {Q : β → S → Prop} (hp : Spec machine env I F p s R)
    (hf : ∀ a s', R a s' → Spec machine env I F (f a) s' Q) :
    Spec machine env I F (p >>= f) s Q := by
  refine ⟨fun past hfaults => ?_⟩
  obtain ⟨hfirst, hrest⟩ := faultsWithin_bind.mp hfaults
  have hmid := hp.post past hfirst
  rw [run_bind]
  rcases hrun : run machine env p past s with ⟨r, past', s'⟩
  rw [hrun] at hmid hrest
  cases r with
  | ok a => exact (hf a s' hmid).post past' hrest
  | error e => exact hmid

/-- One operation, faulted only within `I`. -/
theorem Spec.call {op : Op} {next : Reply op → Program Op Reply E α} {s : S}
    {Q : α → S → Prop}
    (h : ∀ fault, (fault ≠ none → I s) →
      Spec machine env I F (next (machine op fault s).1) (machine op fault s).2 Q) :
    Spec machine env I F (.call op next) s Q := by
  refine ⟨fun past hfaults => ?_⟩
  rw [run_call]
  exact (h (env past op) hfaults.1).post _ hfaults.2

theorem Spec.perform {op : Op} {s : S} {Q : Reply op → S → Prop}
    (h : ∀ fault, (fault ≠ none → I s) → Q (machine op fault s).1 (machine op fault s).2) :
    Spec machine env I F (perform op : Program Op Reply E (Reply op)) s Q :=
  Spec.call fun fault hfault => Spec.done_ok (h fault hfault)

/-- The result of an attempt tells success from failure. -/
theorem Spec.attempt {p : Program Op Reply E α} {s : S} {Q : Except E α → S → Prop}
    {G : S → Prop} {R : α → S → Prop} (hp : Spec machine env I G p s R)
    (hok : ∀ a s', R a s' → Q (.ok a) s') (herror : ∀ e s', G s' → Q (.error e) s') :
    Spec machine env I F p.attempt s Q := by
  refine ⟨fun past hfaults => ?_⟩
  have hpost := hp.post past (faultsWithin_attempt.mp hfaults)
  rw [run_attempt]
  rcases hrun : run machine env p past s with ⟨r, past', s'⟩
  rw [hrun] at hpost
  cases r with
  | ok a => exact hok a s' hpost
  | error e => exact herror e s' hpost

/-- What follows an attempt continues from its success or from its failure. -/
theorem Spec.attempt_bind {p : Program Op Reply E α} {f : Except E α → Program Op Reply E β}
    {s : S} {Q : β → S → Prop} {G : S → Prop} {R : α → S → Prop}
    (hp : Spec machine env I G p s R)
    (hok : ∀ a s', R a s' → Spec machine env I F (f (.ok a)) s' Q)
    (herror : ∀ e s', G s' → Spec machine env I F (f (.error e)) s' Q) :
    Spec machine env I F (p.attempt >>= f) s Q :=
  (hp.attempt (Q := fun r s' => Spec machine env I F (f r) s' Q) hok herror).bind
    fun _ _ h => h

theorem Spec.mono {p : Program Op Reply E α} {s : S} {Q R : α → S → Prop} {G : S → Prop}
    (hp : Spec machine env I G p s R) (hok : ∀ a s', R a s' → Q a s')
    (herror : ∀ s', G s' → F s') : Spec machine env I F p s Q := by
  refine ⟨fun past hfaults => ?_⟩
  have hpost := hp.post past hfaults
  rcases hrun : run machine env p past s with ⟨r, past', s'⟩
  rw [hrun] at hpost
  cases r with
  | ok a => exact hok a s' hpost
  | error e => exact herror s' hpost

/-- Two specifications of one program hold together. -/
theorem Spec.and {p : Program Op Reply E α} {s : S} {Q R : α → S → Prop} {G : S → Prop}
    (hp : Spec machine env I F p s Q) (hq : Spec machine env I G p s R) :
    Spec machine env I (fun s' => F s' ∧ G s') p s fun a s' => Q a s' ∧ R a s' := by
  refine ⟨fun past hfaults => ?_⟩
  have hfirst := hp.post past hfaults
  have hsecond := hq.post past hfaults
  rcases hrun : run machine env p past s with ⟨r, past', s'⟩
  rw [hrun] at hfirst hsecond
  cases r with
  | ok a => exact ⟨hfirst, hsecond⟩
  | error e => exact ⟨hfirst, hsecond⟩

/-- A program whose every operation preserves `F`, faulted or not. -/
theorem Spec.of_calls {P : Op → Prop} {p : Program Op Reply E α} (hp : p.Calls P)
    (hstep : ∀ op fault s, P op → F s → F (machine op fault s).2) {s : S} (hs : F s) :
    Spec machine env I F p s fun _ s' => F s' := by
  refine ⟨fun past _ => ?_⟩
  have hpost : F (run machine env p past s).state := run_invariant hp hstep past hs
  rcases hrun : run machine env p past s with ⟨r, past', s'⟩
  rw [hrun] at hpost
  cases r with
  | ok a => exact hpost
  | error e => exact hpost

/-! ## Runs that only observe -/

/-- Without faults, the program ends with a result and leaves the state. -/
def EndsWith (machine : Machine Op Reply Fault S) (p : Program Op Reply E α) (s : S)
    (r : Except E α) : Prop :=
  ∀ past, ∃ past', run machine Environment.quiet p past s = ⟨r, past', s⟩

/-- Without faults, the program ends alike in two states, and leaves both. -/
def Agree (machine : Machine Op Reply Fault S) (p : Program Op Reply E α) (s s' : S) : Prop :=
  ∃ r, EndsWith machine p s r ∧ EndsWith machine p s' r

section EndsWith

variable {p : Program Op Reply E α} {f : α → Program Op Reply E β} {s s' : S} {a : α} {e : E}

theorem EndsWith.done (r : Except E α) (s : S) :
    EndsWith machine (.done r : Program Op Reply E α) s r :=
  fun past => ⟨past, rfl⟩

theorem EndsWith.eq_of_done {r r' : Except E α}
    (h : EndsWith machine (.done r : Program Op Reply E α) s r') : r = r' := by
  obtain ⟨past', hrun⟩ := h []
  rw [run_done] at hrun
  cases hrun
  rfl

/-- An operation that changes nothing. -/
theorem EndsWith.perform {op : Op} {r : Reply op} (h : machine op none s = (r, s)) :
    EndsWith machine (perform op : Program Op Reply E (Reply op)) s (.ok r) := by
  intro past
  refine ⟨⟨op, r⟩ :: past, ?_⟩
  rw [run_perform]
  simp only [Environment.quiet, h]

theorem EndsWith.bind_ok {r : Except E β} (hp : EndsWith machine p s (.ok a))
    (hf : EndsWith machine (f a) s r) : EndsWith machine (p >>= f) s r := by
  intro past
  obtain ⟨past₁, hrun⟩ := hp past
  obtain ⟨past₂, hrest⟩ := hf past₁
  refine ⟨past₂, ?_⟩
  rw [run_bind, hrun]
  exact hrest

theorem EndsWith.bind_error (hp : EndsWith machine p s (.error e)) :
    EndsWith machine (p >>= f) s (.error e) := by
  intro past
  obtain ⟨past₁, hrun⟩ := hp past
  refine ⟨past₁, ?_⟩
  rw [run_bind, hrun]

theorem EndsWith.result {r : Except E α} (h : EndsWith machine p s r)
    (past : List (Event Op Reply)) :
    (run machine Environment.quiet p past s).result = r := by
  obtain ⟨past', hrun⟩ := h past
  rw [hrun]

theorem Agree.done (r : Except E α) (s s' : S) :
    Agree machine (.done r : Program Op Reply E α) s s' :=
  ⟨r, EndsWith.done r s, EndsWith.done r s'⟩

/-- An operation that replies alike and changes nothing. -/
theorem Agree.perform {op : Op} {r : Reply op} (h : machine op none s = (r, s))
    (h' : machine op none s' = (r, s')) :
    Agree machine (perform op : Program Op Reply E (Reply op)) s s' :=
  ⟨.ok r, EndsWith.perform h, EndsWith.perform h'⟩

/-- A sequence ends alike when its first part does, and the rest after its value. -/
theorem Agree.bind (hp : Agree machine p s s')
    (hf : ∀ a, EndsWith machine p s (.ok a) → Agree machine (f a) s s') :
    Agree machine (p >>= f) s s' := by
  obtain ⟨r, hleft, hright⟩ := hp
  cases r with
  | ok a =>
    obtain ⟨r', hrest, hrest'⟩ := hf a hleft
    exact ⟨r', hleft.bind_ok hrest, hright.bind_ok hrest'⟩
  | error e => exact ⟨.error e, hleft.bind_error, hright.bind_error⟩

/-- Without faults, the program succeeds. -/
def Succeeds (machine : Machine Op Reply Fault S) (p : Program Op Reply E α)
    (past : List (Event Op Reply)) (s : S) : Prop :=
  ∃ a past' s', run machine Environment.quiet p past s = ⟨.ok a, past', s'⟩

/-- What happened before does not matter without faults. -/
theorem Succeeds.of_past {past past' : List (Event Op Reply)} (h : Succeeds machine p past s) :
    Succeeds machine p past' s := by
  induction p generalizing past past' s with
  | done r =>
    obtain ⟨a, last, s', h⟩ := h
    cases h
    exact ⟨a, past', s, rfl⟩
  | call op next ih =>
    obtain ⟨a, last, s', h⟩ := h
    exact ih _ ⟨a, last, s', h⟩

theorem run_bind_of_run {env : Environment Op Reply Fault} {past past' : List (Event Op Reply)}
    (hp : run machine env p past s = ⟨.ok a, past', s'⟩) :
    run machine env (p >>= f) past s = run machine env (f a) past' s' := by
  rw [run_bind, hp]

/-- A sequence whose first part is known to succeed goes on from there. -/
theorem succeeds_bind_of_run {past past' : List (Event Op Reply)}
    (hp : run machine Environment.quiet p past s = ⟨.ok a, past', s'⟩) :
    Succeeds machine (p >>= f) past s ↔ Succeeds machine (f a) past' s' := by
  unfold Succeeds
  simp only [run_bind, hp]

theorem run_done_ok {env : Environment Op Reply Fault} {r : Except E α}
    {past past' : List (Event Op Reply)} :
    run machine env (.done r) past s = ⟨.ok a, past', s'⟩ ↔ r = .ok a ∧ past' = past ∧ s' = s := by
  rw [run_done, Outcome.mk.injEq]
  exact and_congr_right fun _ => and_congr eq_comm eq_comm

theorem succeeds_done {r : Except E α} {past : List (Event Op Reply)} :
    Succeeds machine (.done r) past s ↔ ∃ a, r = .ok a := by
  constructor
  · rintro ⟨a, past', s', h⟩
    cases h
    exact ⟨a, rfl⟩
  · rintro ⟨a, rfl⟩
    exact ⟨a, past, s, rfl⟩

/-- A sequence succeeds when its first part does, and the rest after it. -/
theorem succeeds_bind {past : List (Event Op Reply)} :
    Succeeds machine (p >>= f) past s ↔ ∃ a past' s',
      run machine Environment.quiet p past s = ⟨.ok a, past', s'⟩ ∧
        Succeeds machine (f a) past' s' := by
  constructor
  · rintro ⟨b, past'', s'', h⟩
    obtain ⟨a, past', s', hp, hf⟩ := run_bind_ok.mp h
    exact ⟨a, past', s', hp, b, past'', s'', hf⟩
  · rintro ⟨a, past', s', hp, b, past'', s'', hf⟩
    exact ⟨b, past'', s'', run_bind_ok.mpr ⟨a, past', s', hp, hf⟩⟩

end EndsWith

end OpenStrata.Program
