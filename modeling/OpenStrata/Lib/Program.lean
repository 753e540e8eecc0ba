import Mathlib.Data.List.Infix
import Mathlib.Logic.Function.Basic

/-!
# Programs over operations

A program is a tree of operations: it ends with a value or an error, or it calls one operation
and goes on with whatever is replied. What an operation does is left to a machine, which also
decides what a faulted operation leaves behind. The faults of a run are chosen by an environment
that sees the history.

## Main definitions

* `Program`, `Program.bind`, `Program.attempt`: programs, their sequencing, and the recovery
  from an error
* `Machine`, `Program.run`: the effect of operations, and a run under an environment
* `Program.Calls`: every operation a program may call satisfies a predicate

## Main results

* `Program.run_bind`, `Program.run_bind_ok`: runs of a sequence
* `Program.run_invariant`: what every operation preserves, a run preserves
-/

namespace OpenStrata

/-- A program that calls operations and ends with a value or an error. -/
inductive Program (Op : Type) (Reply : Op → Type) (E α : Type)
  | done (result : Except E α)
  | call (op : Op) (next : Reply op → Program Op Reply E α)

/-- What an operation does to the state and what it replies, unfaulted or faulted. -/
abbrev Machine (Op : Type) (Reply : Op → Type) (Fault S : Type) :=
  (op : Op) → Option Fault → S → Reply op × S

/-- An operation together with the reply it got. -/
abbrev Event (Op : Type) (Reply : Op → Type) := (op : Op) × Reply op

/-- The environment's choice of faults, given the events so far, the latest first. -/
abbrev Environment (Op : Type) (Reply : Op → Type) (Fault : Type) :=
  List (Event Op Reply) → Op → Option Fault

/-- The environment that never faults. -/
def Environment.quiet {Op : Type} {Reply : Op → Type} {Fault : Type} :
    Environment Op Reply Fault :=
  fun _ _ => none

namespace Program

variable {Op : Type} {Reply : Op → Type} {Fault S E α β γ : Type}

/-- Run a program and go on with its value, or end with its error. -/
def bind : Program Op Reply E α → (α → Program Op Reply E β) → Program Op Reply E β
  | .done (.ok a), f => f a
  | .done (.error e), _ => .done (.error e)
  | .call op next, f => .call op fun r => (next r).bind f

instance : Monad (Program Op Reply E) where
  pure a := .done (.ok a)
  bind := bind

/-- The program that calls one operation and ends with its reply. -/
def perform (op : Op) : Program Op Reply E (Reply op) := .call op fun r => .done (.ok r)

/-- Run a program and end with its result, error or not. -/
def attempt : Program Op Reply E α → Program Op Reply E (Except E α)
  | .done r => .done (.ok r)
  | .call op next => .call op fun r => (next r).attempt

@[simp] theorem done_ok_bind (a : α) (f : α → Program Op Reply E β) :
    (done (.ok a) >>= f : Program Op Reply E β) = f a := rfl

@[simp] theorem done_error_bind (e : E) (f : α → Program Op Reply E β) :
    (done (.error e) >>= f : Program Op Reply E β) = .done (.error e) := rfl

@[simp] theorem call_bind (op : Op) (next : Reply op → Program Op Reply E α)
    (f : α → Program Op Reply E β) :
    (call op next >>= f : Program Op Reply E β) = .call op fun r => next r >>= f := rfl

theorem perform_bind (op : Op) (f : Reply op → Program Op Reply E β) :
    (perform op >>= f : Program Op Reply E β) = .call op f := rfl

theorem bind_assoc (p : Program Op Reply E α) (f : α → Program Op Reply E β)
    (g : β → Program Op Reply E γ) : (p >>= f) >>= g = p >>= fun a => f a >>= g := by
  induction p with
  | done r =>
    cases r with
    | ok a => rfl
    | error e => rfl
  | call op next ih =>
    simp only [call_bind]
    congr 1
    funext r
    exact ih r

/-! ## Runs -/

/-- The result, the history and the state a run ends with. -/
structure Outcome (Op : Type) (Reply : Op → Type) (S E α : Type) where
  result : Except E α
  past : List (Event Op Reply)
  state : S

/-- Run a program from a history and a state. -/
def run (machine : Machine Op Reply Fault S) (env : Environment Op Reply Fault) :
    Program Op Reply E α → List (Event Op Reply) → S → Outcome Op Reply S E α
  | .done r, past, s => ⟨r, past, s⟩
  | .call op next, past, s =>
    let r := machine op (env past op) s
    run machine env (next r.1) (⟨op, r.1⟩ :: past) r.2

variable {machine : Machine Op Reply Fault S} {env env' : Environment Op Reply Fault}

@[simp] theorem run_done (r : Except E α) (past : List (Event Op Reply)) (s : S) :
    run machine env (.done r) past s = ⟨r, past, s⟩ := rfl

@[simp] theorem run_pure (a : α) (past : List (Event Op Reply)) (s : S) :
    run machine env (pure a : Program Op Reply E α) past s = ⟨.ok a, past, s⟩ := rfl

theorem run_call (op : Op) (next : Reply op → Program Op Reply E α)
    (past : List (Event Op Reply)) (s : S) :
    run machine env (.call op next) past s =
      run machine env (next (machine op (env past op) s).1)
        (⟨op, (machine op (env past op) s).1⟩ :: past) (machine op (env past op) s).2 := rfl

@[simp] theorem run_perform (op : Op) (past : List (Event Op Reply)) (s : S) :
    run machine env (perform op : Program Op Reply E (Reply op)) past s =
      ⟨.ok (machine op (env past op) s).1, ⟨op, (machine op (env past op) s).1⟩ :: past,
        (machine op (env past op) s).2⟩ := rfl

/-- A run of a sequence fails with its first part, or goes on from where that ended. -/
theorem run_bind (p : Program Op Reply E α) (f : α → Program Op Reply E β)
    (past : List (Event Op Reply)) (s : S) :
    run machine env (p >>= f) past s =
      match run machine env p past s with
      | ⟨.ok a, past', s'⟩ => run machine env (f a) past' s'
      | ⟨.error e, past', s'⟩ => ⟨.error e, past', s'⟩ := by
  induction p generalizing past s with
  | done r =>
    cases r with
    | ok a => rfl
    | error e => rfl
  | call op next ih =>
    rw [call_bind, run_call, run_call]
    exact ih _ _ _

/-- A run of an attempt ends with the result of the run. -/
theorem run_attempt (p : Program Op Reply E α) (past : List (Event Op Reply)) (s : S) :
    run machine env p.attempt past s =
      ⟨.ok (run machine env p past s).result, (run machine env p past s).past,
        (run machine env p past s).state⟩ := by
  induction p generalizing past s with
  | done r => rfl
  | call op next ih =>
    rw [attempt, run_call, run_call]
    exact ih _ _ _

/-- A successful run of a sequence is successful runs of its parts. -/
theorem run_bind_ok {p : Program Op Reply E α} {f : α → Program Op Reply E β}
    {past past' : List (Event Op Reply)} {s s' : S} {b : β} :
    run machine env (p >>= f) past s = ⟨.ok b, past', s'⟩ ↔
      ∃ a past₁ s₁, run machine env p past s = ⟨.ok a, past₁, s₁⟩ ∧
        run machine env (f a) past₁ s₁ = ⟨.ok b, past', s'⟩ := by
  rw [run_bind]
  rcases run machine env p past s with ⟨r, past₁, s₁⟩
  cases r with
  | ok a =>
    constructor
    · exact fun h => ⟨a, past₁, s₁, rfl, h⟩
    · rintro ⟨a', past₂, s₂, heq, h⟩
      cases heq
      exact h
  | error e =>
    constructor
    · intro h
      cases h
    · rintro ⟨a', past₂, s₂, heq, -⟩
      cases heq

/-! ## The operations a program calls -/

/-- Every operation that the program may call satisfies `P`. -/
def Calls (P : Op → Prop) : Program Op Reply E α → Prop
  | .done _ => True
  | .call op next => P op ∧ ∀ r, (next r).Calls P

section Calls

variable {P Q : Op → Prop} {p : Program Op Reply E α} {f : α → Program Op Reply E β}

theorem calls_pure (a : α) : (pure a : Program Op Reply E α).Calls P := trivial

theorem calls_done (r : Except E α) : (done r : Program Op Reply E α).Calls P := trivial

theorem calls_perform {op : Op} (h : P op) :
    (perform op : Program Op Reply E (Reply op)).Calls P :=
  ⟨h, fun _ => trivial⟩

theorem Calls.bind (hp : p.Calls P) (hf : ∀ a, (f a).Calls P) : (p >>= f).Calls P := by
  induction p with
  | done r =>
    cases r with
    | ok a => exact hf a
    | error e => trivial
  | call op next ih => exact ⟨hp.1, fun r => ih r (hp.2 r)⟩

theorem Calls.mono (hp : p.Calls P) (h : ∀ op, P op → Q op) : p.Calls Q := by
  induction p with
  | done r => trivial
  | call op next ih => exact ⟨h op hp.1, fun r => ih r (hp.2 r)⟩

/-- What every called operation preserves, faulted or not, a run preserves. -/
theorem run_invariant {I : S → Prop} (hp : p.Calls P)
    (hstep : ∀ op fault s, P op → I s → I (machine op fault s).2)
    (past : List (Event Op Reply)) {s : S} (hs : I s) : I (run machine env p past s).state := by
  induction p generalizing past s with
  | done r => exact hs
  | call op next ih => exact ih _ (hp.2 _) _ (hstep op _ s hp.1 hs)

end Calls

end Program

end OpenStrata
