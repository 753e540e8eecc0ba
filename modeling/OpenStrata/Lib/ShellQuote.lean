import Mathlib.Data.List.Basic
import Mathlib.Logic.Function.Basic

/-!
# Double-quoted words of shells

How two shells read a word between double quotation marks: what follows a backslash or a backtick,
where the values of variables are put, and where the word ends. A statement assigns such a word to
a variable of the environment.

The readers know what a double-quoted word of literal text and variables consists of. They are
stuck at a command in a word and at a variable that is no variable of the environment.

## Main definitions

* `Machine`, `Machine.run`: a reader that goes through a text character by character
* `Bash.machine`, `Pwsh.machine`: the double-quoted words of the two shells
* `Dialect.assignment`: a statement, with what follows it
* `Runs`: a text of statements

## Main results

* `Bash.run_escape`, `Pwsh.run_escape`: an escaped text reads as itself, in PowerShell up to the
  typographic quotation marks
* `Bash.run_guarded`: the word of `${name:+word}` is read when the variable has a value
-/

namespace ShellQuote

/-- The variables of the environment. -/
abbrev Environment := String → Option String

/-- What the name of a variable expands to. -/
def Environment.text (env : Environment) (name : List Char) : List Char :=
  ((env (String.ofList name)).getD "").toList

/-! ## Readers -/

/-- What a reader does at a character. -/
inductive Next (σ : Type) where
  | on (state : σ)
  /-- The word ends behind the character. -/
  | done (word : List Char)
  /-- The word ended in front of the character. -/
  | back (word : List Char)
  | stuck

structure Machine (σ : Type) where
  start : σ
  step : σ → Char → Next σ
  /-- The word when the text ends here. -/
  atEnd : σ → Option (List Char)

namespace Machine

variable {σ : Type} (m : Machine σ)

/-- The word and what follows it. -/
def run : σ → List Char → Option (List Char × List Char)
  | state, [] => (m.atEnd state).map fun word => (word, [])
  | state, c :: rest =>
    match m.step state c with
    | .on state => run state rest
    | .done word => some (word, rest)
    | .back word => some (word, c :: rest)
    | .stuck => none

variable {m} {state state' : σ} {c : Char} {word rest : List Char}

theorem run_on (h : m.step state c = .on state') : m.run state (c :: rest) = m.run state' rest := by
  rw [run, h]

theorem run_done (h : m.step state c = .done word) :
    m.run state (c :: rest) = some (word, rest) := by
  rw [run, h]

theorem run_back (h : m.step state c = .back word) :
    m.run state (c :: rest) = some (word, c :: rest) := by
  rw [run, h]

/-- A name is taken character by character. -/
theorem run_names (m : Machine σ) (p : Char → Prop) (inName : List Char → σ)
    (hstep : ∀ acc c, p c → m.step (inName acc) c = .on (inName (acc ++ [c])))
    {name : List Char} (hname : ∀ c ∈ name, p c) (acc rest : List Char) :
    m.run (inName acc) (name ++ rest) = m.run (inName (acc ++ name)) rest := by
  induction name generalizing acc with
  | nil => rw [List.append_nil, List.nil_append]
  | cons c name ih =>
    rw [List.cons_append, run_on (hstep acc c (hname c List.mem_cons_self)),
      ih (fun d hd => hname d (List.mem_cons_of_mem c hd)), List.append_assoc]
    rfl

end Machine

/-! ## Names -/

def isNameStart (c : Char) : Bool := c.isAlpha || c == '_'

def isNameChar (c : Char) : Bool := c.isAlphanum || c == '_'

/-- The name of a variable. -/
def IsIdentifier : List Char → Prop
  | [] => False
  | c :: rest => isNameStart c ∧ rest.all isNameChar

theorem isNameChar_of_start {c : Char} (h : isNameStart c) : isNameChar c := by
  simp only [isNameStart, isNameChar, Char.isAlphanum, Bool.or_eq_true] at h ⊢
  rcases h with h | h
  · exact .inl (.inl h)
  · exact .inr h

theorem IsIdentifier.nameChar {name : List Char} (h : IsIdentifier name) :
    ∀ c ∈ name, isNameChar c := by
  cases name with
  | nil => exact h.elim
  | cons c rest =>
    exact List.forall_mem_cons.mpr ⟨isNameChar_of_start h.1, List.all_eq_true.mp h.2⟩

/-! ## Bash -/

namespace Bash

inductive Mode where
  | text
  | escape
  | dollar
  /-- In `$name`. -/
  | name (acc : List Char)
  /-- In the name of `${name:+word}`. -/
  | brace (acc : List Char)
  /-- Behind its colon. -/
  | colon (name : List Char)

/-- Where the reader is: the conditional words around it, innermost first, each with whether it is
taken, and what was read. -/
structure State where
  mode : Mode
  guards : List Bool
  out : List Char

/-- What is read is dropped inside a word that is not taken. -/
def State.emit (s : State) (cs : List Char) : State :=
  if s.guards.all id then { s with out := s.out ++ cs } else s

/-- The characters that a backslash makes literal between quotation marks. -/
def isEscapable (c : Char) : Bool := c == '$' || c == '\u0060' || c == '"' || c == '\\'

def plain (s : State) (c : Char) : Next State :=
  if c = '"' then (if s.guards = [] then .done s.out else .stuck)
  else if c = '\\' then .on { s with mode := .escape }
  else if c = '$' then .on { s with mode := .dollar }
  else if c = '\u0060' then .stuck
  else if c = '}' ∧ s.guards ≠ [] then .on { s with mode := .text, guards := s.guards.tail }
  else .on { s.emit [c] with mode := .text }

def step (env : Environment) (s : State) (c : Char) : Next State :=
  match s.mode with
  | .text => plain s c
  | .escape =>
    -- a backslash in front of a line end joins the lines
    if c = '\n' then .on { s with mode := .text }
    else if isEscapable c then .on { s.emit [c] with mode := .text }
    else .on { s.emit ['\\', c] with mode := .text }
  | .dollar =>
    if c = '{' then .on { s with mode := .brace [] }
    else if isNameStart c then .on { s with mode := .name [c] }
    else .stuck
  | .name acc =>
    if isNameChar c then .on { s with mode := .name (acc ++ [c]) }
    else plain { s.emit (env.text acc) with mode := .text } c
  | .brace acc =>
    if isNameChar c then .on { s with mode := .brace (acc ++ [c]) }
    else if c = ':' then .on { s with mode := .colon acc }
    else .stuck
  | .colon name =>
    if c = '+' then .on { s with mode := .text, guards := (env.text name ≠ []) :: s.guards }
    else .stuck

def machine (env : Environment) : Machine State where
  start := ⟨.text, [], []⟩
  step := step env
  atEnd _ := none

/-- A text with a backslash in front of each character that has a meaning. -/
def escape (cs : List Char) : List Char :=
  cs.flatMap fun c => if isEscapable c then ['\\', c] else [c]

variable {env : Environment} {rest : List Char}

theorem machine_step : (machine env).step = step env := rfl

theorem step_plain {c : Char} (hc : isEscapable c = false) {guards : List Bool}
    (hbrace : c ≠ '}' ∨ guards = []) (out : List Char) :
    (machine env).step ⟨.text, guards, out⟩ c = .on ((⟨.text, guards, out⟩ : State).emit [c]) := by
  rw [machine_step]
  simp only [isEscapable, Bool.or_eq_false_iff, beq_eq_false_iff_ne] at hc
  obtain ⟨⟨⟨hdollar, htick⟩, hquote⟩, hslash⟩ := hc
  have hclose : ¬(c = '}' ∧ guards ≠ []) := fun h => hbrace.elim (· h.1) h.2
  simp only [step, plain, if_neg hquote, if_neg hslash, if_neg hdollar, if_neg htick, if_neg hclose]
  unfold State.emit
  split
  · rfl
  · rfl

@[simp] theorem emit_nil (mode : Mode) (out cs : List Char) :
    State.emit ⟨mode, [], out⟩ cs = ⟨mode, [], out ++ cs⟩ := rfl

theorem emit_single (mode : Mode) (taken : Bool) (out cs : List Char) :
    State.emit ⟨mode, [taken], out⟩ cs = ⟨mode, [taken], if taken then out ++ cs else out⟩ := by
  cases taken with
  | false => rfl
  | true => rfl

/-- An escaped character reads as itself. -/
theorem run_escaped (out : List Char) (c : Char) :
    (machine env).run ⟨.text, [], out⟩ ((if isEscapable c then ['\\', c] else [c]) ++ rest) =
      (machine env).run ⟨.text, [], out ++ [c]⟩ rest := by
  by_cases hc : isEscapable c
  · have hline : c ≠ '\n' := by
      rintro rfl
      exact absurd hc (by decide)
    have hslash : (machine env).step ⟨.text, [], out⟩ '\\' = .on ⟨.escape, [], out⟩ := rfl
    have hchar : (machine env).step ⟨.escape, [], out⟩ c = .on ⟨.text, [], out ++ [c]⟩ := by
      simp only [machine_step, step, if_neg hline, if_pos hc, emit_nil]
    rw [if_pos hc]
    show (machine env).run _ ('\\' :: c :: rest) = _
    rw [Machine.run_on hslash, Machine.run_on hchar]
  · have hplain : (machine env).step ⟨.text, [], out⟩ c = .on ⟨.text, [], out ++ [c]⟩ :=
      step_plain (by simpa using hc) (.inr rfl) out
    rw [if_neg hc]
    exact Machine.run_on hplain

/-- An escaped text reads as itself. -/
theorem run_escape (out cs : List Char) :
    (machine env).run ⟨.text, [], out⟩ (escape cs ++ rest) =
      (machine env).run ⟨.text, [], out ++ cs⟩ rest := by
  induction cs generalizing out with
  | nil => rw [List.append_nil]; rfl
  | cons c cs ih =>
    have hescape : escape (c :: cs) = (if isEscapable c then ['\\', c] else [c]) ++ escape cs := rfl
    rw [hescape, List.append_assoc, run_escaped, ih, List.append_assoc]
    rfl

section Guarded

variable {name : List Char} {guards : List Bool} {out : List Char}

/-- The name of a conditional word. -/
theorem run_brace (hname : ∀ c ∈ name, isNameChar c) :
    (machine env).run ⟨.text, guards, out⟩ ('$' :: '{' :: (name ++ ':' :: '+' :: rest)) =
      (machine env).run ⟨.text, (env.text name ≠ []) :: guards, out⟩ rest := by
  have hdollar : (machine env).step ⟨.text, guards, out⟩ '$' = .on ⟨.dollar, guards, out⟩ := rfl
  have hopen : (machine env).step ⟨.dollar, guards, out⟩ '{' = .on ⟨.brace [], guards, out⟩ := rfl
  have hcolon : (machine env).step ⟨.brace name, guards, out⟩ ':' =
      .on ⟨.colon name, guards, out⟩ := rfl
  have hplus : (machine env).step ⟨.colon name, guards, out⟩ '+' =
      .on ⟨.text, (env.text name ≠ []) :: guards, out⟩ := rfl
  have hnames := Machine.run_names (machine env) (fun c => isNameChar c)
    (fun acc => ⟨.brace acc, guards, out⟩)
    (fun acc c hc => by simp only [machine_step, step, if_pos hc]) hname [] (':' :: '+' :: rest)
  rw [Machine.run_on hdollar, Machine.run_on hopen]
  refine hnames.trans ?_
  rw [List.nil_append, Machine.run_on hcolon, Machine.run_on hplus]

/-- A variable in front of a character that its name cannot go on with. -/
theorem run_variable (hname : IsIdentifier name) {c : Char} (hc : isNameChar c = false) :
    (machine env).run ⟨.text, guards, out⟩ ('$' :: (name ++ c :: rest)) =
      (machine env).run ((⟨.text, guards, out⟩ : State).emit (env.text name)) (c :: rest) := by
  cases name with
  | nil => exact hname.elim
  | cons d name =>
    have hdollar : (machine env).step ⟨.text, guards, out⟩ '$' = .on ⟨.dollar, guards, out⟩ := rfl
    have hstart : (machine env).step ⟨.dollar, guards, out⟩ d = .on ⟨.name [d], guards, out⟩ := by
      have hd : d ≠ '{' := by
        rintro rfl
        exact absurd hname.1 (by decide)
      simp only [machine_step, step, if_neg hd, if_pos hname.1]
    have hnames := Machine.run_names (machine env) (fun c => isNameChar c)
      (fun acc => ⟨.name acc, guards, out⟩)
      (fun acc c hc => by simp only [machine_step, step, if_pos hc])
      (List.all_eq_true.mp hname.2) [d] (c :: rest)
    have hmode : ((⟨.text, guards, out⟩ : State).emit (env.text (d :: name))).mode = .text := by
      unfold State.emit
      split
      · rfl
      · rfl
    have hend : (machine env).step ⟨.name (d :: name), guards, out⟩ c =
        (machine env).step ((⟨.text, guards, out⟩ : State).emit (env.text (d :: name))) c := by
      rw [machine_step, step, step, hmode]
      simp only [if_neg (Bool.eq_false_iff.mp hc)]
      unfold State.emit
      split
      · rfl
      · rfl
    rw [Machine.run_on hdollar]
    show (machine env).run _ (d :: (name ++ c :: rest)) = _
    rw [Machine.run_on hstart]
    refine hnames.trans ?_
    rw [Machine.run, Machine.run, List.singleton_append, hend]

/-- The closing brace of a conditional word. -/
theorem run_close {taken : Bool} :
    (machine env).run ⟨.text, taken :: guards, out⟩ ('}' :: rest) =
      (machine env).run ⟨.text, guards, out⟩ rest :=
  Machine.run_on (by simp [machine_step, step, plain])

/-- A conditional word of a separator and the variable itself. -/
theorem run_guarded (hname : IsIdentifier name) {sep : Char} (hsep : isEscapable sep = false)
    (hbrace : sep ≠ '}') :
    (machine env).run ⟨.text, [], out⟩
        ('$' :: '{' :: (name ++ ':' :: '+' :: sep :: '$' :: (name ++ '}' :: rest))) =
      (machine env).run ⟨.text, [],
        out ++ if env.text name = [] then [] else sep :: env.text name⟩ rest := by
  have hstep : (machine env).step ⟨.text, [decide (env.text name ≠ [])], out⟩ sep =
      .on ((⟨.text, [decide (env.text name ≠ [])], out⟩ : State).emit [sep]) :=
    step_plain hsep (.inl hbrace) out
  rw [run_brace hname.nameChar, Machine.run_on hstep, emit_single, run_variable hname (by decide),
    emit_single, run_close]
  by_cases hempty : env.text name = []
  · simp [hempty]
  · simp [hempty]

/-- The quotation mark that ends the word. -/
theorem run_quote (out : List Char) :
    (machine env).run ⟨.text, [], out⟩ ('"' :: rest) = some (out, rest) :=
  Machine.run_done rfl

end Guarded

end Bash

/-! ## PowerShell -/

namespace Pwsh

inductive Mode where
  | text
  | tick
  | dollar
  /-- In the name of a drive. -/
  | drive (acc : List Char)
  /-- In the name of a variable of the environment. -/
  | name (acc : List Char)
  /-- Behind a quotation mark, the closing one or the first of two. -/
  | quote

structure State where
  mode : Mode
  out : List Char

/-- The typographic quotation marks, which are read like the plain one. -/
def isTypographic (c : Char) : Bool := c == '\u201c' || c == '\u201d' || c == '\u201e'

def isDoubleQuote (c : Char) : Bool := c == '"' || isTypographic c

def isVariableChar (c : Char) : Bool := isNameChar c || c == '?'

/-- The character that a backtick and this character stand for; a code point is not read. -/
def tickChar (c : Char) : Option Char :=
  if c = 'u' then none
  else if c = '0' then some '\u0000'
  else if c = 'a' then some '\u0007'
  else if c = 'b' then some '\u0008'
  else if c = 'e' then some '\u001b'
  else if c = 'f' then some '\u000c'
  else if c = 'n' then some '\n'
  else if c = 'r' then some '\r'
  else if c = 't' then some '\t'
  else if c = 'v' then some '\u000b'
  else some c

def plain (s : State) (c : Char) : Next State :=
  if isDoubleQuote c then .on { s with mode := .quote }
  else if c = '\u0060' then .on { s with mode := .tick }
  else if c = '$' then .on { s with mode := .dollar }
  else .on ⟨.text, s.out ++ [c]⟩

def step (env : Environment) (s : State) (c : Char) : Next State :=
  match s.mode with
  | .text => plain s c
  | .tick =>
    match tickChar c with
    | some d => .on ⟨.text, s.out ++ [d]⟩
    | none => .stuck
  | .dollar => if isVariableChar c then .on { s with mode := .drive [c] } else .stuck
  | .drive acc =>
    if isVariableChar c then .on { s with mode := .drive (acc ++ [c]) }
    else if c = ':' ∧ acc.map Char.toLower = ['e', 'n', 'v'] then .on { s with mode := .name [] }
    else .stuck
  | .name acc =>
    if isVariableChar c then .on { s with mode := .name (acc ++ [c]) }
    else if acc = [] then .stuck
    else plain ⟨.text, s.out ++ env.text acc⟩ c
  | .quote => if isDoubleQuote c then .on ⟨.text, s.out ++ [c]⟩ else .back s.out

def machine (env : Environment) : Machine State where
  start := ⟨.text, []⟩
  step := step env
  atEnd s :=
    match s.mode with
    | .quote => some s.out
    | _ => none

/-- The characters in front of which a backtick is put. -/
def isEscapable (c : Char) : Bool := c == '\u0060' || c == '$' || c == '"'

/-- A text with a backtick in front of each of these characters. -/
def escape (cs : List Char) : List Char :=
  cs.flatMap fun c => if isEscapable c then ['\u0060', c] else [c]

/-- What an escaped text reads as: two adjacent typographic quotation marks are one, and a single
one ends the word. -/
def undouble : List Char → Option (List Char)
  | [] => some []
  | [c] => if isTypographic c then none else some [c]
  | c :: d :: rest =>
    if isTypographic c then
      if isTypographic d then (undouble rest).map (d :: ·) else none
    else (undouble (d :: rest)).map (c :: ·)

section Reading

variable {env : Environment} {rest : List Char} {out cs : List Char} {c : Char}

theorem machine_step : (machine env).step = step env := rfl

/-- An escaped character that is no typographic quotation mark reads as itself. -/
theorem run_escaped (hc : isTypographic c = false) :
    (machine env).run ⟨.text, out⟩ ((if isEscapable c then ['\u0060', c] else [c]) ++ rest) =
      (machine env).run ⟨.text, out ++ [c]⟩ rest := by
  by_cases hescape : isEscapable c
  · have htick : (machine env).step ⟨.text, out⟩ '\u0060' = .on ⟨.tick, out⟩ := rfl
    have hchar : tickChar c = some c := by
      simp only [isEscapable, Bool.or_eq_true, beq_iff_eq] at hescape
      rcases hescape with (rfl | rfl) | rfl
      · rfl
      · rfl
      · rfl
    have hnext : (machine env).step ⟨.tick, out⟩ c = .on ⟨.text, out ++ [c]⟩ := by
      simp only [machine_step, step, hchar]
    rw [if_pos hescape]
    show (machine env).run _ ('\u0060' :: c :: rest) = _
    rw [Machine.run_on htick, Machine.run_on hnext]
  · have hnext : (machine env).step ⟨.text, out⟩ c = .on ⟨.text, out ++ [c]⟩ := by
      simp only [isEscapable, Bool.or_eq_true, beq_iff_eq, not_or] at hescape
      obtain ⟨⟨htick, hdollar⟩, hquote⟩ := hescape
      simp [machine_step, step, plain, isDoubleQuote, hc, htick, hdollar, hquote]
    rw [if_neg hescape]
    exact Machine.run_on hnext

/-- A typographic quotation mark is taken for the end of the word, until the next character is
seen. -/
theorem step_typographic (hc : isTypographic c = true) :
    (machine env).step ⟨.text, out⟩ c = .on ⟨.quote, out⟩ := by
  simp [machine_step, step, plain, isDoubleQuote, hc]

theorem escape_cons (c : Char) (cs : List Char) :
    escape (c :: cs) = (if isEscapable c then ['\u0060', c] else [c]) ++ escape cs := rfl

theorem not_isEscapable (hc : isTypographic c = true) : isEscapable c = false := by
  simp only [isTypographic, Bool.or_eq_true, beq_iff_eq] at hc
  rcases hc with (rfl | rfl) | rfl
  · rfl
  · rfl
  · rfl

/-- An escaped text whose typographic quotation marks are paired. -/
theorem run_escape {word : List Char} (h : undouble cs = some word) (out : List Char) :
    (machine env).run ⟨.text, out⟩ (escape cs ++ rest) =
      (machine env).run ⟨.text, out ++ word⟩ rest := by
  fun_induction undouble cs generalizing word out with
  | case1 =>
    cases h
    rw [List.append_nil]
    rfl
  | case2 c hc => cases h
  | case3 c hc =>
    cases h
    rw [escape_cons, List.append_assoc, run_escaped (by simpa using hc)]
    rfl
  | case4 c d cs hc hd ih =>
    obtain ⟨word, hword, rfl⟩ := Option.map_eq_some_iff.mp h
    have hsecond : (machine env).step ⟨.quote, out⟩ d = .on ⟨.text, out ++ [d]⟩ := by
      simp [machine_step, step, isDoubleQuote, hd]
    rw [escape_cons, escape_cons, if_neg (Bool.eq_false_iff.mp (not_isEscapable hc)),
      if_neg (Bool.eq_false_iff.mp (not_isEscapable hd))]
    show (machine env).run _ (c :: d :: (escape cs ++ rest)) = _
    rw [Machine.run_on (step_typographic hc), Machine.run_on hsecond, ih hword, List.append_assoc]
    rfl
  | case5 c d cs hc hd => cases h
  | case6 c d cs hc ih =>
    obtain ⟨word, hword, rfl⟩ := Option.map_eq_some_iff.mp h
    rw [escape_cons, List.append_assoc, run_escaped (by simpa using hc), ih hword,
      List.append_assoc]
    rfl

/-- What the reader finds behind an escaped text in a word. -/
def Follows (rest : List Char) : Prop :=
  rest = ['"'] ∨ ∃ c tail, rest = c :: tail ∧ isDoubleQuote c = false

/-- A single typographic quotation mark ends the word before the end of the text, or joins the
closing quotation mark. -/
theorem run_typographic (hc : isTypographic c = true) (cs : List Char)
    (hcs : ∀ d ∈ cs.head?, isTypographic d = false) (hrest : Follows rest) (word : List Char) :
    (machine env).run ⟨.text, out⟩ (c :: (escape cs ++ rest)) ≠ some (word, []) := by
  rw [Machine.run_on (step_typographic hc)]
  -- in front of a character that is no quotation mark the word ends
  have hback (d : Char) (tail : List Char) (hd : isDoubleQuote d = false) :
      (machine env).run ⟨.quote, out⟩ (d :: tail) ≠ some (word, []) := by
    have hstep : (machine env).step ⟨.quote, out⟩ d = .back out := by
      simp [machine_step, step, hd]
    rw [Machine.run_back hstep]
    simp
  cases cs with
  | nil =>
    rcases hrest with rfl | ⟨d, tail, rfl, hd⟩
    · have hjoined : (machine env).run ⟨.quote, out⟩ ['"'] = none := rfl
      show (machine env).run ⟨.quote, out⟩ ['"'] ≠ _
      rw [hjoined]
      simp
    · exact hback d tail hd
  | cons d cs =>
    have hd : isTypographic d = false := hcs d rfl
    by_cases hescape : isEscapable d
    · rw [escape_cons, if_pos hescape]
      exact hback '\u0060' _ rfl
    · rw [escape_cons, if_neg hescape]
      refine hback d _ ?_
      simp only [isEscapable, Bool.or_eq_true, beq_iff_eq, not_or] at hescape
      simp [isDoubleQuote, hd, hescape.2]

/-- An escaped text with a single typographic quotation mark is not read to its end. -/
theorem run_escape_none (h : undouble cs = none) (hrest : Follows rest) (out word : List Char) :
    (machine env).run ⟨.text, out⟩ (escape cs ++ rest) ≠ some (word, []) := by
  fun_induction undouble cs generalizing out with
  | case1 => cases h
  | case2 c hc =>
    rw [escape_cons, if_neg (Bool.eq_false_iff.mp (not_isEscapable hc))]
    exact run_typographic hc [] (by simp) hrest word
  | case3 c hc => cases h
  | case4 c d cs hc hd ih =>
    have hsecond : (machine env).step ⟨.quote, out⟩ d = .on ⟨.text, out ++ [d]⟩ := by
      simp [machine_step, step, isDoubleQuote, hd]
    rw [escape_cons, escape_cons, if_neg (Bool.eq_false_iff.mp (not_isEscapable hc)),
      if_neg (Bool.eq_false_iff.mp (not_isEscapable hd))]
    show (machine env).run _ (c :: d :: (escape cs ++ rest)) ≠ _
    rw [Machine.run_on (step_typographic hc), Machine.run_on hsecond]
    exact ih (Option.map_eq_none_iff.mp h) _
  | case5 c d cs hc hd =>
    rw [escape_cons, if_neg (Bool.eq_false_iff.mp (not_isEscapable hc))]
    exact run_typographic hc (d :: cs) (by simpa using hd) hrest word
  | case6 c d cs hc ih =>
    rw [escape_cons, List.append_assoc, run_escaped (by simpa using hc)]
    exact ih (Option.map_eq_none_iff.mp h) _

theorem isVariableChar_of_nameChar (hc : isNameChar c = true) : isVariableChar c = true := by
  simp [isVariableChar, hc]

/-- A variable of the environment in front of a character that its name cannot go on with. -/
theorem run_variable {name : List Char} (hname : IsIdentifier name)
    (hc : isVariableChar c = false) :
    (machine env).run ⟨.text, out⟩ ('$' :: 'e' :: 'n' :: 'v' :: ':' :: (name ++ c :: rest)) =
      (machine env).run ⟨.text, out ++ env.text name⟩ (c :: rest) := by
  have hdrive : (machine env).run ⟨.text, out⟩
      ('$' :: 'e' :: 'n' :: 'v' :: ':' :: (name ++ c :: rest)) =
        (machine env).run ⟨.name [], out⟩ (name ++ c :: rest) := rfl
  have hnames := Machine.run_names (machine env) (fun c => isNameChar c)
    (fun acc => ⟨.name acc, out⟩)
    (fun acc c hc => by simp only [machine_step, step, if_pos (isVariableChar_of_nameChar hc)])
    hname.nameChar [] (c :: rest)
  have hne : name ≠ [] := by
    rintro rfl
    exact hname
  have hend : (machine env).step ⟨.name name, out⟩ c =
      (machine env).step ⟨.text, out ++ env.text name⟩ c := by
    rw [machine_step, step, step]
    simp only [hc, Bool.false_eq_true, if_false, if_neg hne]
  rw [hdrive]
  refine hnames.trans ?_
  rw [Machine.run, Machine.run, List.nil_append, hend]

/-- The quotation mark that ends the word. -/
theorem run_quote (hrest : ∀ c ∈ rest.head?, isDoubleQuote c = false) (out : List Char) :
    (machine env).run ⟨.text, out⟩ ('"' :: rest) = some (out, rest) := by
  have hquote : (machine env).step ⟨.text, out⟩ '"' = .on ⟨.quote, out⟩ := rfl
  rw [Machine.run_on hquote]
  cases rest with
  | nil => rfl
  | cons c rest =>
    have hc : isDoubleQuote c = false := hrest c rfl
    exact Machine.run_back (by simp [machine_step, step, hc])

end Reading

section Undouble

variable {cs word : List Char}

/-- A text without typographic quotation marks reads as itself. -/
theorem undouble_of_plain (h : ∀ c ∈ cs, isTypographic c = false) : undouble cs = some cs := by
  fun_induction undouble cs with
  | case1 => rfl
  | case2 c hc => exact absurd hc (by simpa using h c List.mem_cons_self)
  | case3 c hc => rfl
  | case4 c d cs hc => exact absurd hc (by simpa using h c List.mem_cons_self)
  | case5 c d cs hc => exact absurd hc (by simpa using h c List.mem_cons_self)
  | case6 c d cs hc ih => rw [ih fun e he => h e (List.mem_cons_of_mem c he), Option.map_some]

/-- With marks in front of a text that were lost, what is read of it never catches up. -/
theorem undouble_append_ne (h : undouble cs = some word) {sep : Char}
    (hsep : isTypographic sep = false) (tail after : List Char) (lost : List Char)
    (hlost : lost ≠ []) (hmarks : ∀ c ∈ lost, isTypographic c = true) :
    word ++ sep :: tail ≠ lost ++ cs ++ after := by
  obtain ⟨mark, lost, rfl⟩ := List.exists_cons_of_ne_nil hlost
  have hmark := hmarks mark List.mem_cons_self
  fun_induction undouble cs generalizing word mark lost with
  | case1 =>
    cases h
    rintro heq
    cases heq
    exact Bool.false_ne_true (hsep.symm.trans hmark)
  | case2 c hc => cases h
  | case3 c hc =>
    cases h
    intro heq
    have hfirst : c = mark := (List.cons.inj heq).1
    exact hc (hfirst ▸ hmark)
  | case4 c d cs hc hd ih =>
    obtain ⟨word, hword, rfl⟩ := Option.map_eq_some_iff.mp h
    intro heq
    obtain ⟨rfl, heq⟩ : d = mark ∧ word ++ sep :: tail = lost ++ c :: d :: cs ++ after := by
      simpa using heq
    cases lost with
    | nil =>
      refine ih hword c [d] (by simp) (fun e he => ?_) hc (by simpa using heq)
      rcases List.mem_cons.mp he with rfl | he
      · exact hc
      · exact List.mem_singleton.mp he ▸ hd
    | cons e lost =>
      refine ih hword e (lost ++ [c, d]) (by simp) (fun f hf => ?_)
        (hmarks e (by simp)) (by simpa using heq)
      rcases List.mem_cons.mp hf with rfl | hf
      · exact hmarks f (by simp)
      · rcases List.mem_append.mp hf with hf | hf
        · exact hmarks f (by simp [hf])
        · rcases List.mem_cons.mp hf with rfl | hf
          · exact hc
          · exact List.mem_singleton.mp hf ▸ hd
  | case5 c d cs hc hd => cases h
  | case6 c d cs hc ih =>
    obtain ⟨word, hword, rfl⟩ := Option.map_eq_some_iff.mp h
    intro heq
    have hfirst : c = mark := (List.cons.inj heq).1
    exact hc (hfirst ▸ hmark)

/-- What is read of a text goes on like the text only when it has no typographic quotation
marks. -/
theorem plain_of_append_eq (h : undouble cs = some word) {sep : Char}
    (hsep : isTypographic sep = false) {tail after : List Char}
    (heq : word ++ sep :: tail = cs ++ after) : ∀ c ∈ cs, isTypographic c = false := by
  fun_induction undouble cs generalizing word with
  | case1 => simp
  | case2 c hc => cases h
  | case3 c hc => simpa using hc
  | case4 c d cs hc hd ih =>
    obtain ⟨word, hword, rfl⟩ := Option.map_eq_some_iff.mp h
    obtain ⟨-, heq⟩ := List.cons.inj heq
    exact absurd heq (undouble_append_ne hword hsep tail after [d] (by simp) (by simpa))
  | case5 c d cs hc hd => cases h
  | case6 c d cs hc ih =>
    obtain ⟨word, hword, rfl⟩ := Option.map_eq_some_iff.mp h
    exact List.forall_mem_cons.mpr ⟨by simpa using hc, ih hword (List.cons.inj heq).2⟩

end Undouble

end Pwsh

/-! ## Statements -/

/-- How a shell writes the assignment of a double-quoted word, and how it reads the word. -/
structure Dialect where
  lead : List Char
  /-- Between the name and the word, with the opening quotation mark. -/
  opening : List Char
  quoted : Environment → List Char → Option (List Char × List Char)

def bash : Dialect where
  lead := "export ".toList
  opening := "=\"".toList
  quoted env := (Bash.machine env).run (Bash.machine env).start

def pwsh : Dialect where
  lead := "$env:".toList
  opening := " = \"".toList
  quoted env := (Pwsh.machine env).run (Pwsh.machine env).start

namespace Dialect

variable (d : Dialect)

/-- The environment after the statement at the head of a text, and the text behind it. -/
def assignment (env : Environment) (text : List Char) : Option (Environment × List Char) :=
  (text.dropPrefix? d.lead).bind fun named =>
    ((named.dropWhile isNameChar).dropPrefix? d.opening).bind fun body =>
      (d.quoted env body).map fun (word, rest) =>
        (Function.update env (String.ofList (named.takeWhile isNameChar))
          (some (String.ofList word)), rest)

/-- A text of statements, each on lines of its own, from one environment to another. -/
inductive Runs : Environment → List Char → Environment → Prop
  | done (env : Environment) : Runs env [] env
  | statement {env env' final : Environment} {text rest : List Char} :
    d.assignment env text = some (env', '\n' :: rest) → Runs env' rest final →
      Runs env text final

variable {d} {env : Environment} {name body : List Char}

/-- A statement assigns its word. -/
theorem assignment_eq {c : Char} {tail : List Char} (hopening : d.opening = c :: tail)
    (hc : isNameChar c = false) (hname : IsIdentifier name) :
    d.assignment env (d.lead ++ (name ++ (d.opening ++ body))) =
      (d.quoted env body).map fun (word, rest) =>
        (Function.update env (String.ofList name) (some (String.ofList word)), rest) := by
  have htake : (name ++ (d.opening ++ body)).takeWhile isNameChar = name := by
    rw [List.takeWhile_append_of_pos hname.nameChar, hopening, List.cons_append,
      List.takeWhile_cons_of_neg (by simp [hc]), List.append_nil]
  have hdrop : (name ++ (d.opening ++ body)).dropWhile isNameChar = d.opening ++ body := by
    rw [List.dropWhile_append_of_pos hname.nameChar, hopening, List.cons_append,
      List.dropWhile_cons_of_neg (by simp [hc])]
  rw [assignment, List.dropPrefix?_append_of_beq _ BEq.rfl, Option.bind_some, hdrop,
    List.dropPrefix?_append_of_beq _ BEq.rfl, Option.bind_some, htake]

end Dialect

end ShellQuote
