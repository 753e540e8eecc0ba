import OpenStrata.Lib.ShellQuote
import OpenStrata.Runtime.Env

/-!
# Rendered environments

An environment is applied in two ways: as shell statements that a user's shell evaluates, and as
values that are resolved over a given environment. Bash comes to the resolved values for every set
of changes. PowerShell does when nothing is prepended to an empty value, where its statement leaves
the separator at the end, and when no value has typographic quotation marks, which PowerShell reads
as plain ones.

## Main definitions

* `EnvSet.render`: the set as shell statements
* `EnvSet.evaluate`: the environment after the statements, by the rules of the shell
* `PwshReads`: the sets that PowerShell reads as they are resolved

## Main results

* `EnvSet.evaluate_render_iff`: the shell comes to the resolved values
* `EnvSet.runs_render`: the rendered text is read as its statements
-/

namespace OpenStrata.Runtime

open ShellQuote (Dialect IsIdentifier)

/-! ## Rendering -/

inductive Shell
  | bash
  | pwsh
  deriving DecidableEq, Repr

/-- `str::replace` of a character by a string. -/
def replaceBy (c : Char) (replacement s : String) : String :=
  String.ofList (s.toList.flatMap fun d => if d = c then replacement.toList else [d])

namespace Shell

/-- A value inside double quotation marks. -/
def escape : Shell → String → String
  | .bash, value =>
    replaceBy '"' "\\\"" (replaceBy '$' "\\$" (replaceBy '\u0060' "\\\u0060"
      (replaceBy '\\' "\\\\" value)))
  | .pwsh, value =>
    replaceBy '"' "\u0060\"" (replaceBy '$' "\u0060$" (replaceBy '\u0060' "\u0060\u0060" value))

/-- The statement of one change. -/
def statement (shell : Shell) (sep : Char) (v : EnvVar) : String :=
  match shell, v.op with
  | .bash, .set value => "export " ++ v.key ++ "=\"" ++ shell.escape value ++ "\""
  | .bash, .prepend value =>
    "export " ++ v.key ++ "=\"" ++ shell.escape value ++ "$\x7b" ++ v.key ++ ":+" ++
      sep.toString ++ "$" ++ v.key ++ "\x7d\""
  | .pwsh, .set value => "$env:" ++ v.key ++ " = \"" ++ shell.escape value ++ "\""
  | .pwsh, .prepend value =>
    "$env:" ++ v.key ++ " = \"" ++ shell.escape value ++ sep.toString ++ "$env:" ++ v.key ++ "\""

def dialect : Shell → Dialect
  | .bash => ShellQuote.bash
  | .pwsh => ShellQuote.pwsh

end Shell

namespace EnvSet

/-- The set as evaluable shell statements. -/
def render (env : EnvSet) (shell : Shell) : String :=
  env.vars.foldl (fun out v => out ++ shell.statement env.sep v ++ "\n") ""

/-- The environment after one statement, which has to be complete. -/
def evaluateStatement (shell : Shell) (sep : Char) (e : ShellQuote.Environment) (v : EnvVar) :
    Option ShellQuote.Environment :=
  (shell.dialect.assignment e (shell.statement sep v).toList).bind fun (e', rest) =>
    if rest = [] then some e' else none

/-- The environment after the statements of the set. -/
def evaluate (env : EnvSet) (shell : Shell) (base : ShellQuote.Environment) :
    Option ShellQuote.Environment :=
  env.vars.foldlM (evaluateStatement shell env.sep) base

/-- The shell leaves each variable of the set with the resolved value. -/
def Agrees (env : EnvSet) (shell : Shell) (base : ShellQuote.Environment) : Prop :=
  ∃ final, env.evaluate shell base = some final ∧
    ∀ v ∈ env.vars, (final v.key).isSome ∧ final v.key = (env.resolveWith base).lookup v.key

end EnvSet

/-! ## Changes to one variable -/

/-- The changes to a variable, the last one first. -/
def changes (vars : List EnvVar) (key : String) : List EnvOp :=
  ((vars.filter (·.key = key)).map (·.op)).reverse

/-- A value in front of another one, which is left out when it is empty. -/
def EnvOp.over (sep : Char) : EnvOp → String → String
  | .set value, _ => value
  | .prepend value, existing =>
    if existing = "" then value else value ++ sep.toString ++ existing

/-- The value after the changes. -/
def resolved (sep : Char) (base : String) : List EnvOp → String
  | [] => base
  | op :: earlier => op.over sep (resolved sep base earlier)

/-- A value as PowerShell reads it. -/
def readBack (value : String) : String :=
  String.ofList ((ShellQuote.Pwsh.undouble value.toList).getD [])

/-- The value that PowerShell comes to, with the separator also in front of an empty value. -/
def EnvOp.typed (sep : Char) : EnvOp → String → String
  | .set value, _ => readBack value
  | .prepend value, existing => readBack value ++ sep.toString ++ existing

def typed (sep : Char) (base : String) : List EnvOp → String
  | [] => base
  | op :: earlier => op.typed sep (typed sep base earlier)

/-- A value without typographic quotation marks. -/
def Plain (value : String) : Prop := ∀ c ∈ value.toList, ShellQuote.Pwsh.isTypographic c = false

instance : DecidablePred Plain := fun value =>
  decidable_of_iff (value.toList.all fun c => !ShellQuote.Pwsh.isTypographic c) (by simp [Plain])

/-- After these changes, the last one first, the variable has no text to prepend to. -/
def MeetsEmpty (base : String) : List EnvOp → Prop
  | [] => base = ""
  | .set value :: _ => value = ""
  | .prepend _ :: _ => False

/-- Since it was last set, the variable was changed by plain values, each in front of a text. -/
def Exact (base : String) : List EnvOp → Prop
  | [] => True
  | .set value :: _ => Plain value
  | .prepend value :: earlier => Plain value ∧ ¬MeetsEmpty base earlier ∧ Exact base earlier

/-- What PowerShell needs to come to the resolved values: each statement is read to its end, and
each variable is changed exactly. -/
structure PwshReads (env : EnvSet) (base : ShellQuote.Environment) : Prop where
  paired : ∀ v ∈ env.vars, (ShellQuote.Pwsh.undouble v.op.value.toList).isSome
  exact : ∀ v ∈ env.vars, Exact ((base v.key).getD "") (changes env.vars v.key)

section Changes

variable {sep : Char} {base : String} {ops : List EnvOp}

theorem resolved_ne_empty (hexact : Exact base ops) (hmeets : ¬MeetsEmpty base ops) :
    resolved sep base ops ≠ "" := by
  induction ops with
  | nil => exact hmeets
  | cons op earlier ih =>
    cases op with
    | set value => exact hmeets
    | prepend value =>
      have hearlier := ih hexact.2.2 hexact.2.1
      intro h
      rw [resolved, EnvOp.over, if_neg hearlier, String.append_eq_empty_iff] at h
      exact hearlier h.2

theorem not_meetsEmpty (h : resolved sep base ops ≠ "") : ¬MeetsEmpty base ops := by
  cases ops with
  | nil => exact h
  | cons op earlier =>
    cases op with
    | set value => exact h
    | prepend value => exact id

theorem readBack_of_plain {value : String} (h : Plain value) : readBack value = value := by
  rw [readBack, ShellQuote.Pwsh.undouble_of_plain h, Option.getD_some, String.ofList_toList]

variable (hsep : ShellQuote.Pwsh.isTypographic sep = false)

include hsep in
/-- What PowerShell reads of a value and goes on with the separator is the value only when it is
plain. -/
theorem plain_of_readBack {value tail : String} (after : String)
    (hpaired : (ShellQuote.Pwsh.undouble value.toList).isSome)
    (h : readBack value ++ sep.toString ++ tail = value ++ after) : Plain value := by
  obtain ⟨word, hword⟩ := Option.isSome_iff_exists.mp hpaired
  have hlist : word ++ sep :: tail.toList = value.toList ++ after.toList := by
    simpa [readBack, hword] using congrArg String.toList h
  exact ShellQuote.Pwsh.plain_of_append_eq hword hsep hlist

include hsep in
/-- PowerShell comes to the value of the changes exactly when they are exact. -/
theorem typed_eq_resolved_iff
    (hpaired : ∀ op ∈ ops, (ShellQuote.Pwsh.undouble op.value.toList).isSome) :
    typed sep base ops = resolved sep base ops ↔ Exact base ops := by
  induction ops with
  | nil => exact iff_of_true rfl trivial
  | cons op earlier ih =>
    have hop := hpaired op List.mem_cons_self
    have hearlier := ih fun op hop => hpaired op (List.mem_cons_of_mem _ hop)
    cases op with
    | set value =>
      refine ⟨fun h => ?_, readBack_of_plain⟩
      have heq : readBack value = value := h
      have happend : readBack value ++ sep.toString ++ "" = value ++ sep.toString := by
        rw [heq, String.append_empty]
      exact plain_of_readBack hsep _ hop happend
    | prepend value =>
      have htyped : typed sep base (.prepend value :: earlier) =
          readBack value ++ sep.toString ++ typed sep base earlier := rfl
      have hresolved : resolved sep base (.prepend value :: earlier) =
          if resolved sep base earlier = "" then value
          else value ++ sep.toString ++ resolved sep base earlier := rfl
      rw [htyped, hresolved, Exact]
      constructor
      · intro h
        by_cases hempty : resolved sep base earlier = ""
        · -- the separator stays at the end
          rw [if_pos hempty] at h
          have hplain : Plain value := plain_of_readBack hsep "" hop (by simpa using h)
          rw [readBack_of_plain hplain] at h
          have hlength := congrArg String.length h
          simp only [String.length_append, Char.toString] at hlength
          have hone : (String.singleton sep).length = 1 := String.length_singleton
          omega
        · rw [if_neg hempty] at h
          have hplain : Plain value := plain_of_readBack hsep
            (sep.toString ++ resolved sep base earlier) hop (by rw [h, String.append_assoc])
          rw [readBack_of_plain hplain] at h
          have heq : typed sep base earlier = resolved sep base earlier :=
            String.append_right_inj _ |>.mp h
          exact ⟨hplain, not_meetsEmpty hempty, hearlier.mp heq⟩
      · rintro ⟨hplain, hmeets, hexact⟩
        rw [if_neg (resolved_ne_empty hexact hmeets), readBack_of_plain hplain, hearlier.mpr hexact]

end Changes

/-! ## Resolving -/

section Resolving

variable {sep : Char} {vars : List EnvVar} {base : ShellQuote.Environment} {key : String}

theorem changes_append (vars : List EnvVar) (v : EnvVar) (key : String) :
    changes (vars ++ [v]) key =
      if v.key = key then v.op :: changes vars key else changes vars key := by
  unfold changes
  by_cases h : v.key = key
  · simp [h]
  · simp [h]

theorem changes_eq_nil : changes vars key = [] ↔ ∀ v ∈ vars, v.key ≠ key := by
  simp [changes]

theorem mem_changes {op : EnvOp} : op ∈ changes vars key ↔ ∃ v ∈ vars, v.key = key ∧ v.op = op := by
  simp [changes, and_assoc]

/-- A variable after the changes, or as it was. -/
def valueAfter (after : String → List EnvOp → String) (base : ShellQuote.Environment)
    (vars : List EnvVar)
    (key : String) : Option String :=
  if changes vars key = [] then base key
  else some (after ((base key).getD "") (changes vars key))

/-- One more change, on top of the value so far. -/
theorem valueAfter_append {after : String → List EnvOp → String}
    (hnil : ∀ start, after start [] = start) (base : ShellQuote.Environment) (vars : List EnvVar)
    (v : EnvVar) :
    valueAfter after base (vars ++ [v]) = Function.update (valueAfter after base vars) v.key
      (some (after ((base v.key).getD "") (v.op :: changes vars v.key))) ∧
    (valueAfter after base vars v.key).getD "" =
      after ((base v.key).getD "") (changes vars v.key) := by
  constructor
  · ext1 key
    rw [valueAfter, changes_append, Function.update_apply]
    by_cases h : v.key = key
    · subst h
      rw [if_pos rfl, if_pos rfl, if_neg (List.cons_ne_nil _ _)]
    · rw [if_neg h, if_neg (Ne.symm h)]
      rfl
  · rw [valueAfter]
    split
    · next h => rw [h, hnil]
    · rfl

/-- The resolved values. -/
theorem lookup_foldl_applyVar (sep : Char) (base : ShellQuote.Environment) (vars : List EnvVar)
    (key : String) :
    ((vars.foldl (EnvSet.applyVar sep base) []).lookup key).or (base key) =
      valueAfter (resolved sep) base vars key ∧
    ((vars.foldl (EnvSet.applyVar sep base) []).lookup key = none ↔ changes vars key = []) := by
  induction vars using List.reverseRecOn generalizing key with
  | nil => exact ⟨rfl, iff_of_true rfl rfl⟩
  | append_singleton vars v ih =>
    obtain ⟨hvalue, hget⟩ := valueAfter_append (fun start => (rfl : resolved sep start [] = start))
      base vars v
    have hput : (vars ++ [v]).foldl (EnvSet.applyVar sep base) [] =
        Overlay.put Prod.fst (v.key, v.op.over sep ((valueAfter (resolved sep) base vars v.key).getD
          "")) (vars.foldl (EnvSet.applyVar sep base) []) := by
      rw [List.foldl_append, List.foldl_cons, List.foldl_nil, ← (ih v.key).1, EnvSet.applyVar]
      cases hop : v.op with
      | set value => rfl
      | prepend value =>
        dsimp only [EnvOp.over]
        cases ((vars.foldl (EnvSet.applyVar sep base) []).lookup v.key).or (base v.key) with
        | none => rfl
        | some existing => simp [String.isEmpty_iff]
    rw [hput, lookup_put, hvalue, hget, changes_append, Function.update_apply]
    by_cases h : key = v.key
    · subst h
      simp [resolved]
    · rw [if_neg h, if_neg h, if_neg (Ne.symm h)]
      exact ih key

/-- The resolved value of a variable of the set. -/
theorem EnvSet.lookup_resolveWith (env : EnvSet) (base : ShellQuote.Environment) {v : EnvVar}
    (hv : v ∈ env.vars) : (env.resolveWith base).lookup v.key =
      some (resolved env.sep ((base v.key).getD "") (changes env.vars v.key)) := by
  obtain ⟨hvalue, hnone⟩ := lookup_foldl_applyVar env.sep base env.vars v.key
  have hne : changes env.vars v.key ≠ [] := fun h => changes_eq_nil.mp h v hv rfl
  obtain ⟨value, hlookup⟩ := Option.ne_none_iff_exists'.mp (mt hnone.mp hne)
  rw [hlookup, Option.some_or, valueAfter, if_neg hne] at hvalue
  rw [resolveWith, hlookup, hvalue]

end Resolving

/-! ## Evaluating -/

section Evaluating

open ShellQuote

variable {sep : Char} {v : EnvVar} {e : ShellQuote.Environment} {rest : List Char}

theorem escape_bash (value : String) :
    (Shell.bash.escape value).toList = Bash.escape value.toList := by
  simp only [Shell.escape, replaceBy, String.toList_ofList, List.flatMap_assoc, Bash.escape]
  refine List.flatMap_congr fun c _ => ?_
  by_cases hslash : c = '\\'
  · subst hslash; rfl
  by_cases htick : c = '\u0060'
  · subst htick; rfl
  by_cases hdollar : c = '$'
  · subst hdollar; rfl
  by_cases hquote : c = '"'
  · subst hquote; rfl
  simp [Bash.isEscapable, hslash, htick, hdollar, hquote]

theorem escape_pwsh (value : String) :
    (Shell.pwsh.escape value).toList = Pwsh.escape value.toList := by
  simp only [Shell.escape, replaceBy, String.toList_ofList, List.flatMap_assoc, Pwsh.escape]
  refine List.flatMap_congr fun c _ => ?_
  by_cases htick : c = '\u0060'
  · subst htick; rfl
  by_cases hdollar : c = '$'
  · subst hdollar; rfl
  by_cases hquote : c = '"'
  · subst hquote; rfl
  simp [Pwsh.isEscapable, htick, hdollar, hquote]

/-- The environment after an assignment. -/
theorem assign_eq {d : Dialect} {c : Char} {tail : List Char} (hopening : d.opening = c :: tail)
    (hc : isNameChar c = false) (hkey : IsIdentifier v.key.toList) {body word : List Char}
    (hquoted : d.quoted e body = some (word, rest)) :
    d.assignment e (d.lead ++ (v.key.toList ++ (d.opening ++ body))) =
      some (Function.update e v.key (some (String.ofList word)), rest) := by
  rw [Dialect.assignment_eq hopening hc hkey, hquoted, Option.map_some, String.ofList_toList]

theorem text_key (e : ShellQuote.Environment) (key : String) :
    e.text key.toList = ((e key).getD "").toList := by
  rw [ShellQuote.Environment.text, String.ofList_toList]

theorem lead_bash : bash.lead = "export ".toList := rfl

theorem opening_bash : bash.opening = ['=', '"'] := rfl

theorem lead_pwsh : pwsh.lead = "$env:".toList := rfl

theorem opening_pwsh : pwsh.opening = [' ', '=', ' ', '"'] := rfl

/-- Bash reads the statement of a change as the change. -/
theorem assignment_bash (hkey : IsIdentifier v.key.toList) (hsep : sep = ':' ∨ sep = ';') :
    bash.assignment e ((Shell.bash.statement sep v).toList ++ rest) =
      some (Function.update e v.key (some (v.op.over sep ((e v.key).getD ""))), rest) := by
  obtain ⟨key, op⟩ := v
  cases op with
  | set value =>
    have htext : (Shell.bash.statement sep ⟨key, .set value⟩).toList ++ rest =
        bash.lead ++ (key.toList ++ (bash.opening ++
          (Bash.escape value.toList ++ '"' :: rest))) := by
      simp [Shell.statement, escape_bash, lead_bash, opening_bash]
    have hquoted : bash.quoted e (Bash.escape value.toList ++ '"' :: rest) =
        some (value.toList, rest) :=
      (Bash.run_escape [] value.toList).trans (Bash.run_quote _)
    rw [htext, assign_eq opening_bash rfl hkey hquoted, String.ofList_toList]
    rfl
  | prepend value =>
    have htext : (Shell.bash.statement sep ⟨key, .prepend value⟩).toList ++ rest =
        bash.lead ++ (key.toList ++ (bash.opening ++
          (Bash.escape value.toList ++ '$' :: '{' :: (key.toList ++ ':' :: '+' :: sep :: '$' ::
            (key.toList ++ '}' :: '"' :: rest))))) := by
      simp [Shell.statement, escape_bash, lead_bash, opening_bash, Char.toString]
    have hplain : Bash.isEscapable sep = false ∧ sep ≠ '}' := by
      rcases hsep with rfl | rfl
      · decide
      · decide
    have hquoted : bash.quoted e (Bash.escape value.toList ++ '$' :: '{' :: (key.toList ++
        ':' :: '+' :: sep :: '$' :: (key.toList ++ '}' :: '"' :: rest))) =
          some ([] ++ value.toList ++
            if e.text key.toList = [] then [] else sep :: e.text key.toList, rest) :=
      (Bash.run_escape [] value.toList).trans
        ((Bash.run_guarded hkey hplain.1 hplain.2).trans (Bash.run_quote _))
    rw [htext, assign_eq opening_bash rfl hkey hquoted]
    refine congrArg (fun word => some (Function.update e key (some word), rest)) ?_
    rw [text_key, List.nil_append, EnvOp.over]
    by_cases hempty : (e key).getD "" = ""
    · simp [hempty]
    · simp [hempty, ← String.toList_inj, Char.toString]

/-- PowerShell reads the statement of a change whose typographic quotation marks are paired. -/
theorem assignment_pwsh (hkey : IsIdentifier v.key.toList) (hsep : sep = ':' ∨ sep = ';')
    (hpaired : (Pwsh.undouble v.op.value.toList).isSome)
    (hrest : ∀ c ∈ rest.head?, Pwsh.isDoubleQuote c = false) :
    pwsh.assignment e ((Shell.pwsh.statement sep v).toList ++ rest) =
      some (Function.update e v.key (some (v.op.typed sep ((e v.key).getD ""))), rest) := by
  obtain ⟨key, op⟩ := v
  cases op with
  | set value =>
    obtain ⟨word, hword⟩ : ∃ word, Pwsh.undouble value.toList = some word :=
      Option.isSome_iff_exists.mp hpaired
    have htext : (Shell.pwsh.statement sep ⟨key, .set value⟩).toList ++ rest =
        pwsh.lead ++ (key.toList ++ (pwsh.opening ++
          (Pwsh.escape value.toList ++ '"' :: rest))) := by
      simp [Shell.statement, escape_pwsh, lead_pwsh, opening_pwsh]
    have hquoted : pwsh.quoted e (Pwsh.escape value.toList ++ '"' :: rest) =
        some ([] ++ word, rest) :=
      (Pwsh.run_escape hword []).trans (Pwsh.run_quote hrest _)
    have hvalue : readBack value = String.ofList word := by
      rw [readBack, hword, Option.getD_some]
    rw [htext, assign_eq opening_pwsh rfl hkey hquoted]
    exact congrArg (fun value => some (Function.update e key (some value), rest)) hvalue.symm
  | prepend value =>
    obtain ⟨word, hword⟩ : ∃ word, Pwsh.undouble value.toList = some word :=
      Option.isSome_iff_exists.mp hpaired
    have htext : (Shell.pwsh.statement sep ⟨key, .prepend value⟩).toList ++ rest =
        pwsh.lead ++ (key.toList ++ (pwsh.opening ++
          (Pwsh.escape value.toList ++ sep :: '$' :: 'e' :: 'n' :: 'v' :: ':' ::
            (key.toList ++ '"' :: rest)))) := by
      simp [Shell.statement, escape_pwsh, lead_pwsh, opening_pwsh, Char.toString]
    have hstep (out : List Char) : (Pwsh.machine e).step ⟨.text, out⟩ sep =
        .on ⟨.text, out ++ [sep]⟩ := by
      rcases hsep with rfl | rfl
      · rfl
      · rfl
    have hquoted : pwsh.quoted e (Pwsh.escape value.toList ++ sep :: '$' :: 'e' :: 'n' :: 'v' ::
        ':' :: (key.toList ++ '"' :: rest)) =
          some ([] ++ word ++ [sep] ++ e.text key.toList, rest) :=
      (Pwsh.run_escape hword []).trans ((Machine.run_on (hstep _)).trans
        ((Pwsh.run_variable hkey rfl).trans (Pwsh.run_quote hrest _)))
    have hvalue : readBack value = String.ofList word := by
      rw [readBack, hword, Option.getD_some]
    rw [htext, assign_eq opening_pwsh rfl hkey hquoted]
    refine congrArg (fun word => some (Function.update e key (some word), rest)) ?_
    rw [text_key, EnvOp.typed, hvalue]
    simp [← String.toList_inj, Char.toString]

/-- A statement with a single typographic quotation mark is not complete. -/
theorem assignment_pwsh_none (hkey : IsIdentifier v.key.toList) (hsep : sep = ':' ∨ sep = ';')
    (hsingle : Pwsh.undouble v.op.value.toList = none) (e' : ShellQuote.Environment) :
    pwsh.assignment e (Shell.pwsh.statement sep v).toList ≠ some (e', []) := by
  -- the word with what follows the value in it
  have hnone (tail : List Char) (htail : Pwsh.Follows tail) :
      pwsh.assignment e (pwsh.lead ++ (v.key.toList ++ (pwsh.opening ++
        (Pwsh.escape v.op.value.toList ++ tail)))) ≠ some (e', []) := by
    rw [Dialect.assignment_eq opening_pwsh rfl hkey]
    intro h
    obtain ⟨⟨word, rest⟩, hquoted, heq⟩ := Option.map_eq_some_iff.mp h
    obtain ⟨-, rfl⟩ := Prod.mk.inj heq
    exact Pwsh.run_escape_none hsingle htail [] word hquoted
  obtain ⟨key, op⟩ := v
  cases op with
  | set value =>
    have htext : (Shell.pwsh.statement sep ⟨key, .set value⟩).toList =
        pwsh.lead ++ (key.toList ++ (pwsh.opening ++ (Pwsh.escape value.toList ++ ['"']))) := by
      simp [Shell.statement, escape_pwsh, lead_pwsh, opening_pwsh]
    rw [htext]
    exact hnone _ (.inl rfl)
  | prepend value =>
    have htext : (Shell.pwsh.statement sep ⟨key, .prepend value⟩).toList =
        pwsh.lead ++ (key.toList ++ (pwsh.opening ++
          (Pwsh.escape value.toList ++ sep :: '$' :: 'e' :: 'n' :: 'v' :: ':' ::
            (key.toList ++ ['"'])))) := by
      simp [Shell.statement, escape_pwsh, lead_pwsh, opening_pwsh, Char.toString]
    rw [htext]
    refine hnone _ (.inr ⟨sep, _, rfl, ?_⟩)
    rcases hsep with rfl | rfl
    · rfl
    · rfl

/-- What the shell makes of a change, when it reads its statement. -/
def Shell.after : Shell → Char → String → List EnvOp → String
  | .bash => resolved
  | .pwsh => typed

/-- The changes whose statements the shell reads to their ends. -/
def Shell.Reads (shell : Shell) (v : EnvVar) : Prop :=
  shell = .pwsh → (Pwsh.undouble v.op.value.toList).isSome

theorem Shell.after_nil (shell : Shell) (sep : Char) (start : String) :
    shell.after sep start [] = start := by
  cases shell with
  | bash => rfl
  | pwsh => rfl

/-- A statement that is read changes its variable. -/
theorem assignment_statement {shell : Shell} (hkey : IsIdentifier v.key.toList)
    (hsep : sep = ':' ∨ sep = ';') (hreads : shell.Reads v)
    (hrest : ∀ c ∈ rest.head?, Pwsh.isDoubleQuote c = false) {vars : List EnvVar}
    {base : ShellQuote.Environment} :
    shell.dialect.assignment (valueAfter (shell.after sep) base vars)
        ((shell.statement sep v).toList ++ rest) =
      some (valueAfter (shell.after sep) base (vars ++ [v]), rest) := by
  obtain ⟨hvalue, hget⟩ := valueAfter_append (shell.after_nil sep) base vars v
  rw [hvalue]
  cases shell with
  | bash => exact (assignment_bash hkey hsep).trans (by rw [hget]; rfl)
  | pwsh => exact (assignment_pwsh hkey hsep (hreads rfl) hrest).trans (by rw [hget]; rfl)

end Evaluating

section Agreeing

open ShellQuote

variable {env : EnvSet} {shell : Shell} {base : ShellQuote.Environment}

/-- The environment after statements that are all read. -/
theorem evaluate_of_reads {sep : Char} (hsep : sep = ':' ∨ sep = ';') {vars : List EnvVar}
    (hkeys : ∀ v ∈ vars, IsIdentifier v.key.toList) (hreads : ∀ v ∈ vars, shell.Reads v) :
    vars.foldlM (EnvSet.evaluateStatement shell sep) base =
      some (valueAfter (shell.after sep) base vars) := by
  induction vars using List.reverseRecOn with
  | nil => rfl
  | append_singleton vars v ih =>
    have hstatement : shell.dialect.assignment (valueAfter (shell.after sep) base vars)
        ((shell.statement sep v).toList ++ []) =
          some (valueAfter (shell.after sep) base (vars ++ [v]), []) :=
      assignment_statement (hkeys v (by simp)) hsep (hreads v (by simp)) (by simp)
    rw [List.append_nil] at hstatement
    rw [List.foldlM_append, ih (fun w hw => hkeys w (by simp [hw]))
      fun w hw => hreads w (by simp [hw])]
    simp [EnvSet.evaluateStatement, hstatement]

/-- A set is evaluated only when every statement of it is read. -/
theorem reads_of_evaluate {sep : Char} (hsep : sep = ':' ∨ sep = ';') {vars : List EnvVar}
    (hkeys : ∀ v ∈ vars, IsIdentifier v.key.toList) {start final : ShellQuote.Environment}
    (h : vars.foldlM (EnvSet.evaluateStatement shell sep) start = some final) :
    ∀ v ∈ vars, shell.Reads v := by
  induction vars generalizing start with
  | nil => simp
  | cons v vars ih =>
    rw [List.foldlM_cons] at h
    obtain ⟨next, hnext, h⟩ := Option.bind_eq_some_iff.mp h
    refine List.forall_mem_cons.mpr ⟨?_, ih (fun w hw => hkeys w (List.mem_cons_of_mem v hw)) h⟩
    rintro rfl
    rw [Option.isSome_iff_ne_none]
    intro hnone
    obtain ⟨⟨e', rest⟩, hassigned, hrest⟩ := Option.bind_eq_some_iff.mp hnext
    by_cases hnil : rest = []
    · subst hnil
      exact assignment_pwsh_none (hkeys v List.mem_cons_self) hsep hnone e' hassigned
    · simp [hnil] at hrest

/-- The rendered text is read as its statements, each in front of a line end. -/
theorem EnvSet.runs_render (hsep : env.sep = ':' ∨ env.sep = ';')
    (hkeys : ∀ v ∈ env.vars, IsIdentifier v.key.toList)
    (hreads : ∀ v ∈ env.vars, shell.Reads v) (base : ShellQuote.Environment) :
    ∃ final, env.evaluate shell base = some final ∧
      shell.dialect.Runs base (env.render shell).toList final := by
  refine ⟨_, evaluate_of_reads hsep hkeys hreads, ?_⟩
  suffices hrun : ∀ (done todo : List EnvVar) (out : String), done ++ todo = env.vars →
      ∃ text, (todo.foldl (fun out v => out ++ shell.statement env.sep v ++ "\n") out).toList =
        out.toList ++ text ∧ shell.dialect.Runs (valueAfter (shell.after env.sep) base done) text
          (valueAfter (shell.after env.sep) base env.vars) by
    obtain ⟨text, htext, hruns⟩ := hrun [] env.vars "" rfl
    rw [render, htext]
    exact hruns
  intro done todo
  induction todo generalizing done with
  | nil =>
    intro out hvars
    rw [List.append_nil] at hvars
    exact ⟨[], by simp, hvars ▸ .done _⟩
  | cons v todo ih =>
    intro out hvars
    have hv : v ∈ env.vars := hvars ▸ by simp
    obtain ⟨text, htext, hruns⟩ := ih (done ++ [v]) (out ++ shell.statement env.sep v ++ "\n")
      (by rw [← hvars]; simp)
    refine ⟨(shell.statement env.sep v).toList ++ '\n' :: text, ?_, ?_⟩
    · rw [List.foldl_cons, htext]
      simp
    · exact .statement (assignment_statement (hkeys v hv) hsep (hreads v hv)
        (by simp [Pwsh.isDoubleQuote, Pwsh.isTypographic])) hruns

/-- The shell comes to the resolved values: Bash always, PowerShell when it reads every statement
and each variable is changed exactly. -/
theorem EnvSet.evaluate_render_iff (hsep : env.sep = ':' ∨ env.sep = ';')
    (hkeys : ∀ v ∈ env.vars, IsIdentifier v.key.toList) (shell : Shell)
    (base : ShellQuote.Environment) :
    env.Agrees shell base ↔ (shell = .pwsh → PwshReads env base) := by
  have hne {v : EnvVar} (hv : v ∈ env.vars) : changes env.vars v.key ≠ [] :=
    fun h => changes_eq_nil.mp h v hv rfl
  constructor
  · rintro ⟨final, hfinal, hagrees⟩ rfl
    have hreads := reads_of_evaluate hsep hkeys hfinal
    have hpaired : ∀ v ∈ env.vars, (Pwsh.undouble v.op.value.toList).isSome :=
      fun v hv => hreads v hv rfl
    obtain rfl : valueAfter (typed env.sep) base env.vars = final :=
      Option.some.inj ((evaluate_of_reads hsep hkeys hreads).symm.trans hfinal)
    refine ⟨hpaired, fun v hv => ?_⟩
    have hvalue := (hagrees v hv).2
    rw [lookup_resolveWith env base hv, valueAfter, if_neg (hne hv)] at hvalue
    refine (typed_eq_resolved_iff ?_ ?_).mp (Option.some.inj hvalue)
    · rcases hsep with h | h
      · rw [h]; rfl
      · rw [h]; rfl
    · intro op hop
      obtain ⟨w, hw, -, rfl⟩ := mem_changes.mp hop
      exact hpaired w hw
  · intro hpwsh
    have hreads : ∀ v ∈ env.vars, shell.Reads v := fun v hv h => (hpwsh h).paired v hv
    refine ⟨_, evaluate_of_reads hsep hkeys hreads, fun v hv => ?_⟩
    rw [lookup_resolveWith env base hv, valueAfter, if_neg (hne hv)]
    refine ⟨rfl, congrArg some ?_⟩
    cases shell with
    | bash => rfl
    | pwsh =>
      refine (typed_eq_resolved_iff ?_ ?_).mpr ((hpwsh rfl).exact v hv)
      · rcases hsep with h | h
        · rw [h]; rfl
        · rw [h]; rfl
      · intro op hop
        obtain ⟨w, hw, -, rfl⟩ := mem_changes.mp hop
        exact (hpwsh rfl).paired w hw

/-- A search path that is set and extended. -/
theorem EnvSet.evaluate_render_iff_sample :
    EnvSet.Agrees ⟨':', [⟨"P", .set "a$b"⟩, ⟨"P", .prepend "c\"d"⟩]⟩ .pwsh fun _ => none := by
  have hkey : ∀ v ∈ [(⟨"P", .set "a$b"⟩ : EnvVar), ⟨"P", .prepend "c\"d"⟩], v.key = "P" := by decide
  have hpaired : ∀ v ∈ [(⟨"P", .set "a$b"⟩ : EnvVar), ⟨"P", .prepend "c\"d"⟩],
      (Pwsh.undouble v.op.value.toList).isSome := by decide
  have hexact : Exact "" [.prepend "c\"d", .set "a$b"] :=
    ⟨by decide, (by decide : "a$b" ≠ ""), (by decide : Plain "a$b")⟩
  refine (EnvSet.evaluate_render_iff (.inl rfl) (fun v hv => ?_) .pwsh fun _ => none).mpr
    fun _ => ⟨hpaired, fun v hv => ?_⟩
  · rw [hkey v hv]
    exact ⟨rfl, rfl⟩
  · rw [hkey v hv]
    exact hexact

theorem EnvSet.runs_render_sample : ∃ final,
    EnvSet.evaluate ⟨':', [⟨"PYTHONPATH", .prepend "/rt/python"⟩]⟩ .pwsh (fun _ => none) =
        some final ∧
      Shell.pwsh.dialect.Runs (fun _ => none)
        (EnvSet.render ⟨':', [⟨"PYTHONPATH", .prepend "/rt/python"⟩]⟩ .pwsh).toList final := by
  refine EnvSet.runs_render (.inl rfl) (fun v hv => ?_) (fun v hv _ => ?_) _
  · rw [List.mem_singleton.mp hv]
    exact ⟨rfl, rfl⟩
  · rw [List.mem_singleton.mp hv]
    decide

/-- PowerShell leaves the separator at the end of a variable that had no value. -/
theorem EnvSet.prepend_to_unset_disagrees :
    (∀ v ∈ [(⟨"PYTHONPATH", .prepend "/rt/python"⟩ : EnvVar)], IsIdentifier v.key.toList) ∧
      ¬EnvSet.Agrees ⟨':', [⟨"PYTHONPATH", .prepend "/rt/python"⟩]⟩ .pwsh fun _ => none := by
  have hkeys : ∀ v ∈ [(⟨"PYTHONPATH", .prepend "/rt/python"⟩ : EnvVar)],
      IsIdentifier v.key.toList := by
    intro v hv
    rw [List.mem_singleton.mp hv]
    exact ⟨rfl, rfl⟩
  refine ⟨hkeys, ?_⟩
  rintro ⟨final, hfinal, hagrees⟩
  obtain ⟨-, hvalue⟩ := hagrees _ List.mem_cons_self
  have hreads : ∀ v ∈ [(⟨"PYTHONPATH", .prepend "/rt/python"⟩ : EnvVar)], Shell.pwsh.Reads v := by
    intro v hv _
    rw [List.mem_singleton.mp hv]
    decide
  obtain rfl := Option.some.inj ((evaluate_of_reads (.inl rfl) hkeys hreads).symm.trans hfinal)
  exact absurd hvalue (by decide)

end Agreeing

end OpenStrata.Runtime
