import Mathlib.Data.List.Basic

/-!
# Comma-separated records

A reader of comma-separated records in the form of RFC 4180: a field is written plainly, or between
quotation marks with each quotation mark doubled, and a record ends with a line end.

## Main definitions

* `parse`: the records of a text, each as its fields
* `quote`: a field between quotation marks

## Main results

* `parse_lines`: records that are written line by line are read back
-/

namespace Csv

/-- Where the reader stands. -/
inductive State where
  /-- In front of a field. -/
  | start
  /-- Inside a field that is written plainly. -/
  | plain
  /-- Inside a quoted field. -/
  | quoted
  /-- Behind the closing quotation mark, or the first of two inside the field. -/
  | closed
deriving DecidableEq

/-- Reads on, with the field, the record and the records that were read so far. -/
def run : State → List Char → List (List Char) → List (List (List Char)) → List Char →
    Option (List (List (List Char)))
  | state, field, record, records, [] =>
    if state = .quoted then none
    else if state = .start ∧ record = [] then some records
    else some (records ++ [record ++ [field]])
  | state, field, record, records, c :: rest =>
    if state = .quoted then
      if c = '"' then run .closed field record records rest
      else run .quoted (field ++ [c]) record records rest
    else if c = ',' then run .start [] (record ++ [field]) records rest
    else if c = '\n' then run .start [] [] (records ++ [record ++ [field]]) rest
    else if c = '\r' then
      match rest with
      | [] => none
      | d :: rest =>
        if d = '\n' then run .start [] [] (records ++ [record ++ [field]]) rest else none
    else if c = '"' then
      if state = .start then run .quoted [] record records rest
      else if state = .closed then run .quoted (field ++ ['"']) record records rest
      else none
    else if state = .closed then none
    else run .plain (field ++ [c]) record records rest

/-- The records of a text. -/
def parse (text : List Char) : Option (List (List (List Char))) := run .start [] [] [] text

/-- The characters for which a field is quoted. -/
def isSpecial (c : Char) : Bool := c == ',' || c == '"' || c == '\n' || c == '\r'

/-- A field with each quotation mark doubled. -/
def escape (field : List Char) : List Char :=
  field.flatMap fun c => if c = '"' then ['"', '"'] else [c]

/-- A field between quotation marks. -/
def quote (field : List Char) : List Char := '"' :: (escape field ++ ['"'])

section Reading

variable {field : List Char} {record : List (List Char)} {records : List (List (List Char))}
  {state : State} {c : Char} {v rest : List Char}

/-- What the next character does. -/
theorem run_cons : run state field record records (c :: rest) =
    if state = .quoted then
      if c = '"' then run .closed field record records rest
      else run .quoted (field ++ [c]) record records rest
    else if c = ',' then run .start [] (record ++ [field]) records rest
    else if c = '\n' then run .start [] [] (records ++ [record ++ [field]]) rest
    else if c = '\r' then
      match rest with
      | [] => none
      | d :: rest =>
        if d = '\n' then run .start [] [] (records ++ [record ++ [field]]) rest else none
    else if c = '"' then
      if state = .start then run .quoted [] record records rest
      else if state = .closed then run .quoted (field ++ ['"']) record records rest
      else none
    else if state = .closed then none
    else run .plain (field ++ [c]) record records rest := by
  rw [run.eq_def]

theorem run_plain_cons (hstate : state = .start ∧ field = [] ∨ state = .plain)
    (hc : isSpecial c = false) :
    run state field record records (c :: rest) = run .plain (field ++ [c]) record records rest := by
  simp only [isSpecial, Bool.or_eq_false_iff, beq_eq_false_iff_ne] at hc
  obtain ⟨⟨⟨hcomma, hquote⟩, hline⟩, hreturn⟩ := hc
  rw [run_cons]
  rcases hstate with ⟨rfl, -⟩ | rfl
  · simp [hcomma, hquote, hline, hreturn]
  · simp [hcomma, hquote, hline, hreturn]

/-- A plain field is read to its end. -/
theorem run_plain (hv : ∀ c ∈ v, isSpecial c = false) :
    run .plain field record records (v ++ rest) = run .plain (field ++ v) record records rest := by
  induction v generalizing field with
  | nil => rw [List.append_nil]; rfl
  | cons c v ih =>
    rw [List.cons_append, run_plain_cons (Or.inr rfl) (hv c List.mem_cons_self),
      ih fun d hd => hv d (List.mem_cons_of_mem c hd), List.append_assoc]
    rfl

/-- A quoted field is read to its closing quotation mark. -/
theorem run_quoted : run .quoted field record records (escape v ++ '"' :: rest) =
    run .closed (field ++ v) record records rest := by
  induction v generalizing field with
  | nil =>
    rw [List.append_nil]
    show run .quoted field record records ('"' :: rest) = _
    rw [run_cons]
    simp
  | cons c v ih =>
    have hescape : escape (c :: v) = (if c = '"' then ['"', '"'] else [c]) ++ escape v := rfl
    rw [hescape, List.append_assoc]
    have hone : run .quoted field record records
        ((if c = '"' then ['"', '"'] else [c]) ++ (escape v ++ '"' :: rest)) =
          run .quoted (field ++ [c]) record records (escape v ++ '"' :: rest) := by
      by_cases hc : c = '"'
      · -- the first of two is taken for the closing one until the second is seen
        rw [if_pos hc, hc]
        show run .quoted field record records ('"' :: '"' :: (escape v ++ '"' :: rest)) = _
        rw [run_cons]
        simp only [if_true]
        rw [run_cons]
        simp
      · rw [if_neg hc]
        show run .quoted field record records (c :: (escape v ++ '"' :: rest)) = _
        rw [run_cons]
        simp [hc]
    rw [hone, ih, List.append_assoc]
    rfl

/-- What a comma or a line end behind a field does. -/
theorem run_comma (hstate : state ≠ .quoted) : run state field record records (',' :: rest) =
    run .start [] (record ++ [field]) records rest := by
  rw [run_cons]
  simp [hstate]

theorem run_line (hstate : state ≠ .quoted) : run state field record records ('\n' :: rest) =
    run .start [] [] (records ++ [record ++ [field]]) rest := by
  rw [run_cons]
  simp [hstate]

/-- The field as it is written: quoted when a character demands it. -/
def written (v : List Char) : List Char := if v.any isSpecial then quote v else v

/-- A written field is read back, up to what follows it. -/
theorem exists_run_written (record : List (List Char)) (records : List (List (List Char)))
    (v rest : List Char) : ∃ state, state ≠ .quoted ∧
    run .start [] record records (written v ++ rest) = run state v record records rest := by
  by_cases hspecial : v.any isSpecial
  · refine ⟨.closed, by decide, ?_⟩
    rw [written, if_pos hspecial, quote]
    show run .start [] record records ('"' :: (escape v ++ ['"'] ++ rest)) = _
    rw [run_cons, List.append_assoc]
    simp only [reduceCtorEq, if_false, if_true, List.singleton_append]
    exact run_quoted
  · have hplain : ∀ c ∈ v, isSpecial c = false := fun c hc => by
      simpa using fun h => hspecial (List.any_eq_true.mpr ⟨c, hc, h⟩)
    rw [written, if_neg hspecial]
    cases v with
    | nil => exact ⟨.start, by decide, rfl⟩
    | cons c v =>
      refine ⟨.plain, by decide, ?_⟩
      rw [List.cons_append, run_plain_cons (Or.inl ⟨rfl, rfl⟩) (hplain c List.mem_cons_self),
        run_plain fun d hd => hplain d (List.mem_cons_of_mem c hd)]
      rfl

/-- A field in front of a comma. -/
theorem run_written_comma (v rest : List Char) :
    run .start [] record records (written v ++ ',' :: rest) =
      run .start [] (record ++ [v]) records rest := by
  obtain ⟨state, hstate, hrun⟩ := exists_run_written record records v
    (',' :: rest)
  rw [hrun, run_comma hstate]

/-- The last field of a record. -/
theorem run_written_line (v rest : List Char) :
    run .start [] record records (written v ++ '\n' :: rest) =
      run .start [] [] (records ++ [record ++ [v]]) rest := by
  obtain ⟨state, hstate, hrun⟩ := exists_run_written record records v
    ('\n' :: rest)
  rw [hrun, run_line hstate]

/-- A record: its fields with commas between them, and a line end. -/
def line : List (List Char) → List Char
  | [] => ['\n']
  | [v] => written v ++ ['\n']
  | v :: w :: vs => written v ++ ',' :: line (w :: vs)

/-- A record is read back. -/
theorem run_line_append (v : List Char) (vs : List (List Char)) (rest : List Char) :
    run .start [] record records (line (v :: vs) ++ rest) =
      run .start [] [] (records ++ [record ++ v :: vs]) rest := by
  induction vs generalizing v record with
  | nil =>
    show run .start [] record records ((written v ++ ['\n']) ++ rest) = _
    rw [List.append_assoc]
    exact run_written_line v rest
  | cons w vs ih =>
    show run .start [] record records ((written v ++ ',' :: line (w :: vs)) ++ rest) = _
    rw [List.append_assoc, List.cons_append, run_written_comma, ih, List.append_assoc]
    rfl

/-- Records that are written line by line are read back. -/
theorem parse_lines {table : List (List (List Char))} (h : ∀ r ∈ table, r ≠ []) :
    parse (table.flatMap line) = some table := by
  suffices hrun : ∀ records, run .start [] [] records (table.flatMap line) =
      some (records ++ table) from hrun []
  induction table with
  | nil =>
    intro records
    rw [List.append_nil]
    rfl
  | cons r table ih =>
    intro records
    obtain ⟨v, vs, rfl⟩ := List.exists_cons_of_ne_nil (h r List.mem_cons_self)
    rw [List.flatMap_cons, run_line_append, List.nil_append,
      ih (fun r hr => h r (List.mem_cons_of_mem _ hr)), List.append_assoc]
    rfl

end Reading

end Csv
