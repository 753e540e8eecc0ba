import Mathlib.Data.List.Forall2
import OpenStrata.Core.Json

/-!
# Errors

The error type shared by the crates: a stable machine code, a category and a message. The
operating-system source of an i/o error and the parser source of a parse error are not
modelled; nothing branches on them.

## Main definitions

* `Category`: the category that fixes the exit code
* `Error`, `Error.code`, `Error.category`: errors and their contract with callers
* `Result`: fallible computations

## Main results

* `Result.bind_ok`, `Result.failIf_ok`: a successful computation succeeded at every step
* `Result.bind_eq_map`: mapping commutes with sequencing
* `Result.mapM_ok`, `Result.mem_mapM`, `Result.zip_mapM`: a mapped list, element by element
-/

namespace OpenStrata

/-- The category of an error, which fixes the process exit code. -/
inductive Category
  | usage
  | configuration
  | precondition
  | validation
  | externalTool
  | io
  | internal
  deriving DecidableEq, Repr

/-- An error of the program. -/
inductive Error
  | invalidManifest (message : String)
  | operation (message : String)
  | coded (code : String) (category : Category) (message : String)
      (hint : Option String) (data : Option Json)
  | io (path : String)
  | parse (what : String)
  deriving DecidableEq, Repr

namespace Error

/-- A coded error without hint or data. -/
def ofCode (code : String) (category : Category) (message : String) : Error :=
  .coded code category message none none

def usage (message : String) : Error := ofCode "INVALID_ARGUMENT" .usage message

def config (message : String) : Error := ofCode "INVALID_CONFIG" .configuration message

def precondition (message : String) : Error := ofCode "PRECONDITION_FAILED" .precondition message

def validation (message : String) : Error := ofCode "VALIDATION_FAILED" .validation message

/-- Attach a hint; only coded errors carry one. -/
def withHint (hint : String) : Error → Error
  | .coded code category message _ data => .coded code category message (some hint) data
  | error => error

/-- Attach machine-readable data; only coded errors carry it. -/
def withData (data : Json) : Error → Error
  | .coded code category message hint _ => .coded code category message hint (some data)
  | error => error

/-- The stable machine code of an error. -/
def code : Error → String
  | .invalidManifest _ => "MANIFEST_INVALID"
  | .operation _ => "OPERATION_FAILED"
  | .coded code _ _ _ _ => code
  | .io _ => "IO_ERROR"
  | .parse _ => "PARSE_FAILED"

def category : Error → Category
  | .invalidManifest _ => .configuration
  | .operation _ => .precondition
  | .coded _ category _ _ _ => category
  | .io _ => .io
  | .parse _ => .configuration

/-- The rendered message, as `Display` prints it. -/
def message : Error → String
  | .invalidManifest message => "manifest is invalid: " ++ message
  | .operation message => message
  | .coded _ _ message _ _ => message
  | .io path => "i/o error at " ++ path
  | .parse what => "could not parse " ++ what

end Error

/-- A fallible computation. -/
abbrev Result (α : Type) := Except Error α

namespace Result

variable {α β : Type}

/-- Fail with `error` when `bad` holds. -/
def failIf (bad : Prop) [Decidable bad] (error : Error) : Result Unit :=
  if bad then .error error else .ok ()

@[simp] theorem failIf_ok {bad : Prop} [Decidable bad] {error : Error} {u : Unit} :
    failIf bad error = .ok u ↔ ¬ bad := by
  unfold failIf
  split <;> simp_all

/-- A successful sequence succeeded at its first step, and its rest succeeded on that value. -/
theorem bind_ok {x : Result α} {f : α → Result β} {b : β} :
    (x >>= f) = .ok b ↔ ∃ a, x = .ok a ∧ f a = .ok b := by
  cases x with
  | error e => simp [bind, Except.bind]
  | ok a => simp [bind, Except.bind]

theorem exists_ok {x : Result α} (h : x.toOption.isSome) : ∃ a, x = .ok a := by
  cases x with
  | error e => cases h
  | ok a => exact ⟨a, rfl⟩

theorem exists_of_map_eq {x : Result α} {f : α → β} {b : β} (h : x.toOption.map f = some b) :
    ∃ a, x = .ok a ∧ f a = b := by
  cases x with
  | error e => cases h
  | ok a => exact ⟨a, rfl, Option.some.inj h⟩

theorem exists_of_any {x : Result α} {p : α → Bool} (h : x.toOption.any p) :
    ∃ a, x = .ok a ∧ p a := by
  cases x with
  | error e => cases h
  | ok a => exact ⟨a, rfl, h⟩

/-- Mapping commutes with sequencing when it commutes with both steps. -/
theorem bind_eq_map {α' β' : Type} {x : Result α} {x' : Result α'} {f : α → Result β}
    {f' : α' → Result β'} {g : α → α'} {k : β → β'} (hx : x' = x.map g)
    (hf : ∀ a, f' (g a) = (f a).map k) : (x' >>= f') = (x >>= f).map k := by
  subst hx
  cases x with
  | error e => rfl
  | ok a => exact hf a

/-- `Option::ok_or_else`. -/
def okOr (error : Error) : Option α → Result α
  | some a => .ok a
  | none => .error error

@[simp] theorem okOr_ok {error : Error} {o : Option α} {a : α} :
    okOr error o = .ok a ↔ o = some a := by
  cases o <;> simp [okOr]

/-- Check every element of a list in order, stopping at the first failure. -/
def forAll (check : α → Result Unit) : List α → Result Unit
  | [] => .ok ()
  | a :: as => do
    check a
    forAll check as

theorem forAll_ok {check : α → Result Unit} {as : List α} {u : Unit} :
    forAll check as = .ok u ↔ ∀ a ∈ as, check a = .ok () := by
  induction as with
  | nil => simp [forAll]
  | cons a as ih =>
    rw [forAll, bind_ok]
    constructor
    · rintro ⟨⟨⟩, ha, h⟩
      simpa [ha] using ih.mp h
    · intro h
      exact ⟨(), h a (by simp), ih.mpr fun b hb => h b (by simp [hb])⟩

section Mapped

variable {f : α → Result β} {as : List α} {bs : List β}

theorem mapM_ok : as.mapM f = .ok bs ↔ List.Forall₂ (fun a b => f a = .ok b) as bs := by
  induction as generalizing bs with
  | nil =>
    rw [List.mapM_nil, List.forall₂_nil_left_iff]
    constructor
    · intro h
      exact (Except.ok.inj h).symm
    · rintro rfl
      rfl
  | cons a rest ih =>
    rw [List.mapM_cons, bind_ok, List.forall₂_cons_left_iff]
    refine exists_congr fun b => ?_
    rw [bind_ok]
    constructor
    · rintro ⟨ha, others, hothers, heq⟩
      exact ⟨others, ha, ih.mp hothers, (Except.ok.inj heq).symm⟩
    · rintro ⟨others, ha, hothers, rfl⟩
      exact ⟨ha, others, ih.mpr hothers, rfl⟩

/-- Every element is mapped to one of the list, and every one of the list is mapped to. -/
theorem mem_mapM (h : as.mapM f = .ok bs) :
    (∀ a ∈ as, ∃ b ∈ bs, f a = .ok b) ∧ ∀ b ∈ bs, ∃ a ∈ as, f a = .ok b := by
  have hall := mapM_ok.mp h
  clear h
  induction hall with
  | nil => simp
  | cons hab _ ih =>
    obtain ⟨hleft, hright⟩ := ih
    refine ⟨List.forall_mem_cons.mpr ⟨⟨_, List.mem_cons_self, hab⟩, fun a ha => ?_⟩,
      List.forall_mem_cons.mpr ⟨⟨_, List.mem_cons_self, hab⟩, fun b hb => ?_⟩⟩
    · obtain ⟨b, hb, hmapped⟩ := hleft a ha
      exact ⟨b, List.mem_cons_of_mem _ hb, hmapped⟩
    · obtain ⟨a, ha, hmapped⟩ := hright b hb
      exact ⟨a, List.mem_cons_of_mem _ ha, hmapped⟩

/-- Every element comes with what a list is mapped to. -/
theorem zip_mapM (h : as.mapM f = .ok bs) :
    (∀ entry ∈ as.zip bs, entry.1 ∈ as ∧ f entry.1 = .ok entry.2) ∧
      ∀ a ∈ as, ∃ b, (a, b) ∈ as.zip bs := by
  have hall := mapM_ok.mp h
  clear h
  induction hall with
  | nil => simp
  | cons hab _ ih =>
    obtain ⟨hentries, hzipped⟩ := ih
    rw [List.zip_cons_cons]
    refine ⟨List.forall_mem_cons.mpr ⟨⟨List.mem_cons_self, hab⟩, fun entry hentry => ?_⟩,
      List.forall_mem_cons.mpr ⟨⟨_, List.mem_cons_self⟩, fun other hother => ?_⟩⟩
    · exact ⟨List.mem_cons_of_mem _ (hentries entry hentry).1, (hentries entry hentry).2⟩
    · obtain ⟨b', hmem⟩ := hzipped other hother
      exact ⟨b', List.mem_cons_of_mem _ hmem⟩

end Mapped

end Result

end OpenStrata
