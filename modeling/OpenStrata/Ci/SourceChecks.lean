import OpenStrata.Ci.Values
import OpenStrata.Core.Ascii
import OpenStrata.Lib.Yaml

/-!
# Repository checks in the documents

The step of a check, read back from the document. Its name always comes back. Its script does
when its first line that is not empty does not start with a space, which would give the block
another indentation, and when it has none of the three characters that validation admits and a
document cannot contain.

## Main definitions

* `checkStep`: the step of one check
* `Document.scriptsEnd`: every script of a document is followed by a line that ends it
* `CheckReadBack`: the step of a check gives back its name and script, and nothing else
* `IsEmbeddable`: the scripts that a block gives back

## Main results

* `scriptsEnd_of_mem`: in every workflow, scripts are followed by lines that end them
* `checkReadBack_iff`: the steps of the embeddable checks are the ones that are read back
-/

namespace OpenStrata

/-! ## The lines of a script -/

section Lines

theorem Text.stripReturn_of_not_mem {line : List Char} (h : '\x0d' ∉ line) :
    Text.stripReturn line = line := by
  rw [Text.stripReturn, if_neg fun hlast => h (List.mem_of_getLast? hlast)]

/-- The lines of a text, each ended by a line break, are the text up to trailing breaks. -/
theorem Text.literal_lineList {parts : List (List Char)} (hne : parts ≠ [])
    (hreturn : ∀ line ∈ parts, '\x0d' ∉ line) :
    ∃ tail, (∀ c ∈ tail, Yaml.isBreak c) ∧
      Yaml.literal (Text.lineList parts) = ['\n'].intercalate parts ++ tail := by
  induction parts with
  | nil => exact absurd rfl hne
  | cons line rest ih =>
    cases rest with
    | nil =>
      cases line with
      | nil => exact ⟨[], by simp, rfl⟩
      | cons c line => exact ⟨['\n'], by simp [Yaml.isBreak], by simp [Text.lineList, Yaml.literal]⟩
    | cons next rest =>
      obtain ⟨tail, htail, hrest⟩ := ih (by simp) fun l hl => hreturn l (List.mem_cons_of_mem _ hl)
      refine ⟨tail, htail, ?_⟩
      rw [Text.lineList, Text.stripReturn_of_not_mem (hreturn line List.mem_cons_self),
        Yaml.literal_cons, hrest, List.intercalate_cons_cons]
      · simp
      · simp

theorem Text.mem_of_mem_lineList {parts : List (List Char)} {line : List Char}
    (hreturn : ∀ line ∈ parts, '\x0d' ∉ line) (h : line ∈ Text.lineList parts) :
    line ∈ parts := by
  induction parts with
  | nil => cases h
  | cons first rest ih =>
    cases rest with
    | nil =>
      rw [Text.lineList] at h
      split at h
      · cases h
      · exact h
    | cons next rest =>
      rw [Text.lineList, Text.stripReturn_of_not_mem (hreturn first List.mem_cons_self)] at h
      · rcases List.mem_cons.mp h with rfl | h
        · exact List.mem_cons_self
        · exact List.mem_cons_of_mem _ (ih (fun l hl => hreturn l (List.mem_cons_of_mem _ hl)) h)
      · simp

theorem mem_intercalate {α : Type} {sep part : List α} {parts : List (List α)} {a : α}
    (hpart : part ∈ parts) (ha : a ∈ part) : a ∈ sep.intercalate parts := by
  induction parts with
  | nil => cases hpart
  | cons first rest ih =>
    cases rest with
    | nil =>
      obtain rfl := List.mem_singleton.mp hpart
      simpa using ha
    | cons next rest =>
      rw [List.intercalate_cons_cons, List.mem_append, List.mem_append]
      rcases List.mem_cons.mp hpart with rfl | hpart
      · exact .inl (.inl ha)
      · exact .inr (ih hpart)

end Lines

namespace Ci

variable {catalog : Catalog} {m : SupportMatrix} {check : SourceCheck} {condition post : Document}

/-- The lines of a script. -/
def runLines (run : String) : List Yaml.Line :=
  Text.lineList (run.toList.splitOnP (· == '\n'))

section RunLines

variable {run : String}

theorem lines_eq_runLines : Text.lines run = (runLines run).map String.ofList := rfl

theorem splitOnP_intercalate (run : String) :
    ['\n'].intercalate (run.toList.splitOnP (· == '\n')) = run.toList :=
  List.intercalate_splitOn '\n'

variable (hreturn : '\x0d' ∉ run.toList)

include hreturn

theorem return_not_mem_parts : ∀ line ∈ run.toList.splitOnP (· == '\n'), '\x0d' ∉ line := by
  intro line hline hmem
  rw [← splitOnP_intercalate run] at hreturn
  exact hreturn (mem_intercalate hline hmem)

theorem not_isBreak_of_mem_runLines : ∀ line ∈ runLines run, ∀ c ∈ line,
    Yaml.isBreak c = false :=
  fun _ hline =>
    Text.not_mem_of_mem_splitOnP (Text.mem_of_mem_lineList (return_not_mem_parts hreturn) hline)

theorem literal_runLines : ∃ tail, (∀ c ∈ tail, Yaml.isBreak c) ∧
    Yaml.literal (runLines run) = run.toList ++ tail := by
  obtain ⟨tail, htail, hlines⟩ :=
    Text.literal_lineList (List.splitOnP_ne_nil _ run.toList) (return_not_mem_parts hreturn)
  exact ⟨tail, htail, by rw [runLines, hlines, splitOnP_intercalate]⟩

theorem rdropWhile_literal_runLines :
    (Yaml.literal (runLines run)).rdropWhile Yaml.isBreak =
      run.toList.rdropWhile Yaml.isBreak := by
  obtain ⟨tail, htail, hlines⟩ := literal_runLines hreturn
  rw [hlines, Yaml.rdropWhile_append_of_all htail]

theorem mem_of_mem_runLines : ∀ line ∈ runLines run, ∀ c ∈ line, c ∈ run.toList := by
  intro line hline c hc
  rw [← splitOnP_intercalate run]
  exact mem_intercalate (Text.mem_of_mem_lineList (return_not_mem_parts hreturn) hline) hc

end RunLines

/-! ## Steps of checks -/

/-- The step of one check up to its script. -/
def checkHead (condition : Document) (check : SourceCheck) : Document :=
  lines [["      - name: \"", .value check.name, "\""]] ++
  (if condition.isEmpty then [] else lines [[.text "        if: "] ++ condition]) ++
  lines [["        shell: bash"], ["        run: |"]]

/-- The step of one check. -/
def checkStep (condition : Document) (check : SourceCheck) : Document :=
  checkHead condition check ++ [.script check.run]

theorem sourceCheckSteps_eq (checks : List SourceCheck) (condition : Document) :
    sourceCheckSteps checks condition = checks.flatMap (checkStep condition) := rfl

/-! ### Lines that end a script -/

/-- A line at which a block scalar under `run:` ends. -/
def opensLine (s : String) : Bool :=
  let indent := Yaml.indentation s.toList
  indent < 8 && (s.toList.drop indent).head?.any fun c => c != '\t' && c != '\n' && c != '#'

/-- A document that starts with such a line. -/
def Document.opens : Document → Bool
  | .text s :: _ => opensLine s
  | _ => false

/-- Every script of a document is followed by a line that ends it. -/
def Document.scriptsEnd : Document → Bool
  | [] => true
  | .script _ :: rest => Document.opens rest && Document.scriptsEnd rest
  | _ :: rest => Document.scriptsEnd rest

section ScriptsEnd

variable {d e : Document}

theorem opens_append (h : Document.opens d) : Document.opens (d ++ e) := by
  match d, h with
  | .text _ :: _, h => exact h

theorem scriptsEnd_append (hd : Document.scriptsEnd d) (he : Document.scriptsEnd e) :
    Document.scriptsEnd (d ++ e) := by
  induction d with
  | nil => exact he
  | cons piece d ih =>
    cases piece with
    | script run =>
      obtain ⟨hopens, hrest⟩ := (Bool.and_eq_true _ _).mp hd
      exact (Bool.and_eq_true _ _).mpr ⟨opens_append hopens, ih hrest⟩
    | text s => exact ih hd
    | ref key => exact ih hd
    | key key => exact ih hd
    | value s => exact ih hd

theorem scriptsEnd_flatMap {α : Type} {l : List α} {f : α → Document}
    (h : ∀ a ∈ l, Document.scriptsEnd (f a)) : Document.scriptsEnd (l.flatMap f) := by
  induction l with
  | nil => rfl
  | cons a l ih =>
    rw [List.flatMap_cons]
    exact scriptsEnd_append (h a List.mem_cons_self) (ih fun b hb => h b (List.mem_cons_of_mem _ hb))

/-- A piece that is no script. -/
def NotScript (piece : Piece) : Prop := ∀ run, piece ≠ .script run

theorem scriptsEnd_of_carries (h : Document.Carries NotScript d) : Document.scriptsEnd d := by
  induction d with
  | nil => rfl
  | cons piece d ih =>
    have hrest : Document.scriptsEnd d := ih fun p hp => h p (List.mem_cons_of_mem _ hp)
    cases piece with
    | script run => exact absurd rfl (h (.script run) List.mem_cons_self rfl run)
    | text s => exact hrest
    | ref key => exact hrest
    | key key => exact hrest
    | value s => exact hrest

theorem opens_of_split {pre : Document} {run : String} (h : Document.scriptsEnd d)
    (hd : d = pre ++ .script run :: e) : Document.opens e := by
  induction pre generalizing d with
  | nil =>
    rw [hd] at h
    exact ((Bool.and_eq_true _ _).mp h).1
  | cons piece pre ih =>
    rw [hd, List.cons_append] at h
    refine ih ?_ rfl
    cases piece with
    | script other => exact ((Bool.and_eq_true _ _).mp h).2
    | text s => exact h
    | ref key => exact h
    | key key => exact h
    | value s => exact h

/-- The steps of checks end where the document goes on with another line. -/
theorem sourceCheckSteps_append {checks : List SourceCheck}
    (hcondition : Document.Carries NotScript condition) (hopens : Document.opens e)
    (he : Document.scriptsEnd e) :
    Document.opens (sourceCheckSteps checks condition ++ e) ∧
      Document.scriptsEnd (sourceCheckSteps checks condition ++ e) := by
  rw [sourceCheckSteps_eq]
  induction checks with
  | nil => exact ⟨hopens, he⟩
  | cons check checks ih =>
    have hhead : Document.Carries NotScript (checkHead condition check) := by
      simp only [checkHead, Document.Carries.append_iff, and_assoc]
      refine ⟨.of_carried [.value check.name] rfl (by simp [NotScript]),
        .ite (fun _ => .nil) fun _ => ?_, .of_none rfl⟩
      exact .lines_cons (.append (.of_none rfl) hcondition) (.of_none rfl)
    rw [List.flatMap_cons, List.append_assoc, checkStep, List.append_assoc]
    refine ⟨rfl, scriptsEnd_append (scriptsEnd_of_carries hhead) ?_⟩
    exact (Bool.and_eq_true _ _).mpr ih

/-! ### Scripts in the workflows -/

theorem notScript_shared (m : SupportMatrix) : SharedValues NotScript m := by
  constructor <;> intros <;> simp [NotScript]

theorem notScript_entry (entry : Entry) : Document.Carries NotScript entry.pieces :=
  entry_carries fun _ _ _ _ _ h => by cases h

theorem scriptsEnd_steps (m : SupportMatrix) (shape : JobShape) :
    Document.scriptsEnd (shape.steps m) := by
  cases shape with
  | bundle =>
    show Document.scriptsEnd (sourceSteps m)
    unfold sourceSteps
    rw [List.append_assoc]
    refine scriptsEnd_append (scriptsEnd_of_carries ?_) (sourceCheckSteps_append .nil rfl rfl).2
    exact .append (sourcePreamble_carries (notScript_shared m)) (.of_none rfl)
  | workspace =>
    show Document.scriptsEnd (workspaceSteps m)
    unfold workspaceSteps
    rw [List.append_assoc]
    refine scriptsEnd_append (scriptsEnd_of_carries ?_)
      (sourceCheckSteps_append (.of_none rfl) rfl rfl).2
    exact .append (sourcePreamble_carries (notScript_shared m)) (.of_none rfl)
  | workspaceRuntimeFree =>
    exact scriptsEnd_of_carries (steps_carries (notScript_shared m) nofun)
  | workspaceGraph =>
    exact scriptsEnd_of_carries (steps_carries (notScript_shared m) nofun)

theorem scriptsEnd_supportSteps (m : SupportMatrix) : Document.scriptsEnd (supportSteps m) := by
  have hpolicy : Document.Carries NotScript (policyFlag m) :=
    policyFlag_carries (notScript_shared m)
  refine scriptsEnd_of_carries ?_
  simp only [supportSteps, Document.Carries.append_iff, and_assoc]
  refine ⟨.of_none rfl, .of_none rfl, .elim fun _ _ => .of_none rfl, ?_⟩
  -- both verifications end in the policy flag
  repeat' refine .lines_cons (.of_none rfl) ?_
  refine .lines_cons (.append (.of_none rfl) hpolicy) ?_
  exact .lines_cons (.append (.of_none rfl) hpolicy) (.of_none rfl)

theorem scriptsEnd_releaseSteps (m : SupportMatrix) (release : ReleaseLane) (policy : String) :
    Document.scriptsEnd (releaseCandidateSteps m release policy) := by
  have hshared := notScript_shared m
  have hoptional : ∀ (b : Bool) (d : Document), Document.scriptsEnd d →
      Document.scriptsEnd (if b then d else []) := by
    intro b d hd
    split
    · exact hd
    · rfl
  unfold releaseCandidateSteps
  simp only [List.append_assoc]
  refine scriptsEnd_append rfl (scriptsEnd_append rfl ?_)
  refine scriptsEnd_append (scriptsEnd_of_carries (bootstrapSteps_carries hshared true)) ?_
  refine scriptsEnd_append (scriptsEnd_of_carries (ostVersionStep_carries hshared)) ?_
  refine scriptsEnd_append rfl ?_
  refine scriptsEnd_append (scriptsEnd_of_carries (runtimeFetchSteps_carries hshared)) ?_
  refine scriptsEnd_append rfl ?_
  refine scriptsEnd_append (scriptsEnd_of_carries (prebuildSteps_carries m)) ?_
  refine scriptsEnd_append rfl ?_
  -- the checks of the release follow those of the source lanes
  refine (fun h : Document.opens _ ∧ Document.scriptsEnd _ =>
    (sourceCheckSteps_append .nil h.1 h.2).2) (sourceCheckSteps_append .nil rfl ?_)
  refine scriptsEnd_append rfl ?_
  refine scriptsEnd_append (hoptional _ _ rfl) (scriptsEnd_append (hoptional _ _ rfl) ?_)
  exact scriptsEnd_append (hoptional _ _ rfl) rfl

theorem scriptsEnd_job {job : Job} (hheader : Document.Carries NotScript job.header)
    (hsteps : Document.scriptsEnd job.steps) : Document.scriptsEnd job.pieces := by
  refine scriptsEnd_append (scriptsEnd_append (scriptsEnd_of_carries hheader) ?_) hsteps
  exact scriptsEnd_flatMap fun entry _ => scriptsEnd_of_carries (notScript_entry entry)

/-- A document whose pieces are in view is checked piece by piece. -/
theorem notScript_of_check
    (h : d.all (fun piece => match piece with | .script _ => false | _ => true) = true) :
    Document.Carries NotScript d := by
  rintro piece hpiece - run rfl
  exact absurd (List.all_eq_true.mp h _ hpiece) (by simp)

theorem notScript_labels (labels : List String) :
    Document.Carries NotScript (labelPieces labels) :=
  labelPieces_carries fun _ _ _ h => by cases h

theorem scriptsEnd_publisher (m : SupportMatrix) (release : ReleaseLane) (policy : String) :
    Document.scriptsEnd (releasePublisherJob m release policy) := by
  unfold releasePublisherJob
  split
  · next runnerName destination _ _ _ =>
    cases m.profile runnerName with
    | none => rfl
    | some runner =>
      refine scriptsEnd_of_carries ?_
      show Document.Carries NotScript (publishJob m release policy runnerName runner destination)
      simp only [publishJob, Document.Carries.append_iff, and_assoc]
      refine ⟨.of_none rfl, .elim fun _ _ => notScript_of_check rfl, ?_,
        bootstrapSteps_carries (notScript_shared m) true,
        ostVersionStep_carries (notScript_shared m), .of_none rfl, notScript_of_check rfl⟩
      -- the labels of the runner stand on one line
      repeat' refine .lines_cons (notScript_of_check rfl) ?_
      refine .lines_cons (.append (.append (.of_none rfl) (notScript_labels _)) (.of_none rfl)) ?_
      exact .of_none rfl
  · rfl

theorem scriptsEnd_generateSupport (h : generateSupport m = some d) : Document.scriptsEnd d := by
  unfold generateSupport at h
  split_ifs at h
  obtain rfl := Option.some.inj h
  refine scriptsEnd_append (scriptsEnd_append (scriptsEnd_append rfl ?_) rfl) ?_
  · unfold supportTriggers
    refine scriptsEnd_append ?_ ?_ <;> split <;> rfl
  · refine scriptsEnd_flatMap fun job hjob => ?_
    obtain ⟨lane, id, event, rfl, -⟩ := mem_supportJobs hjob
    exact scriptsEnd_job (supportJob_header_carries _ _ _) (scriptsEnd_supportSteps m)

theorem scriptsEnd_generateSource {mode : SourceWorkflowMode}
    (h : generateSourceWithMode m mode = some d) : Document.scriptsEnd d := by
  obtain ⟨first, -, rfl⟩ := Option.map_eq_some_iff.mp h
  refine scriptsEnd_append (scriptsEnd_append (scriptsEnd_append (scriptsEnd_append ?_ ?_) rfl) ?_)
    ?_
  · cases mode <;> rfl
  · unfold sourceTriggers
    split
    · rfl
    · refine scriptsEnd_append ?_ ?_ <;> split <;> rfl
  · refine scriptsEnd_flatMap fun job hjob => ?_
    obtain ⟨lane, id, triggers, shape, rfl, -⟩ := mem_sourceJobs hjob
    exact scriptsEnd_job (sourceJob_header_carries _ _ _ _) (scriptsEnd_steps m shape)
  · split
    · refine scriptsEnd_of_carries ?_
      refine .lines_cons (.of_none rfl) (.lines_cons (.of_none rfl) (.lines_cons ?_ (.of_none rfl)))
      exact .append (.append (.of_none rfl) (notScript_labels _)) (.of_none rfl)
    · rfl

theorem scriptsEnd_generateRelease (h : generateRelease m = some d) : Document.scriptsEnd d := by
  unfold generateRelease at h
  simp only [Option.bind_eq_bind, Option.bind_eq_some_iff, Option.pure_def, Option.some.injEq] at h
  obtain ⟨release, -, policy, -, rfl⟩ := h
  refine scriptsEnd_append (scriptsEnd_append rfl ?_) (scriptsEnd_publisher m release policy)
  exact scriptsEnd_job (candidateJob_header_carries _ _) (scriptsEnd_releaseSteps m release policy)

/-- In every workflow, a script is followed by a line that ends it. -/
theorem scriptsEnd_of_mem {mode : SourceWorkflowMode} {w : GeneratedWorkflow}
    (h : w ∈ generateGithubWithSourceMode m mode) : Document.scriptsEnd w.document := by
  rw [generateGithubWithSourceMode, List.mem_append, List.mem_append] at h
  rcases h with (h | h) | h
  all_goals
    rw [Option.mem_toList, Option.map_eq_some_iff] at h
    obtain ⟨d, hd, rfl⟩ := h
  · exact scriptsEnd_generateSupport hd
  · exact scriptsEnd_generateSource hd
  · exact scriptsEnd_generateRelease hd

end ScriptsEnd

/-! ## Reading the step of a check -/

section Reading

/-- The fields of the step of a check whose script is read as `run`. -/
def checkFields (condition : Document) (check : SourceCheck) (run : List Char) :
    List (Yaml.Line × Yaml.Node) :=
  [("name".toList, .quoted check.name.toList)] ++
    (if condition.isEmpty then []
      else [("if".toList, .plain (Document.render condition).toList)]) ++
    [("shell".toList, .plain "bash".toList), ("run".toList, .block run)]

/-- The step of a check, read where the document goes on with `post`, has the name of the check
and, up to trailing line breaks, its script; nothing else is read before `post`. -/
def CheckReadBack (condition : Document) (check : SourceCheck) (post : Document) : Prop :=
  ∃ run, Yaml.readItem 6 (Yaml.lines (Document.render (checkStep condition check ++ post)).toList) =
      some (checkFields condition check run,
        Yaml.skip (Yaml.lines (Document.render post).toList)) ∧
    run.rdropWhile Yaml.isBreak = check.run.toList.rdropWhile Yaml.isBreak

/-- The scripts that a block scalar gives back: the first line that is not empty does not start
with a space, and none of the characters that a document cannot contain occurs. -/
def IsEmbeddable (run : String) : Prop :=
  Yaml.isAligned run.toList ∧ '\ufeff' ∉ run.toList ∧ '\ufffe' ∉ run.toList ∧ '\uffff' ∉ run.toList

/-- The lines of a step up to its script. -/
def checkLines (condition : Document) : List Yaml.Line :=
  (if condition.isEmpty then []
    else [Yaml.field 8 "if".toList (Document.render condition).toList]) ++
  [Yaml.field 8 "shell".toList "bash".toList, Yaml.field 8 "run".toList ['|']]

theorem toList_render_append (d e : Document) :
    (Document.render (d ++ e)).toList =
      (Document.render d).toList ++ (Document.render e).toList := by
  simp [Document.render, String.toList_join]

theorem toList_render_cons (piece : Piece) (d : Document) :
    (Document.render (piece :: d)).toList =
      piece.render.toList ++ (Document.render d).toList := by
  simp [Document.render, String.toList_join]

theorem toList_scriptLine (line : List Char) :
    (scriptLine (String.ofList line)).toList = Yaml.indentLine 10 line ++ ['\n'] := by
  cases line with
  | nil => rfl
  | cons c line =>
    have hne : (String.ofList (c :: line)).isEmpty = false := by simp
    rw [scriptLine, hne, Yaml.indentLine]
    simp

theorem toList_scriptText (run : String) :
    (scriptText run).toList = Yaml.literal ((runLines run).map (Yaml.indentLine 10)) := by
  rw [scriptText, lines_eq_runLines, String.toList_join, List.map_map, List.flatMap_map,
    Yaml.literal, List.map_map, ← List.flatMap_def]
  exact List.flatMap_congr fun line _ => toList_scriptLine line

theorem render_checkStep (condition post : Document) (check : SourceCheck) :
    (Document.render (checkStep condition check ++ post)).toList =
      Yaml.literal (Yaml.field 6 "- name".toList ('"' :: check.name.toList ++ ['"']) ::
          (checkLines condition ++ (runLines check.run).map (Yaml.indentLine 10))) ++
        (Document.render post).toList := by
  rw [checkStep, checkHead, checkLines]
  split <;> simp [lines, Piece.render, toList_scriptText, Yaml.literal, Yaml.field, Document.render]

/-- The step is read up to its script, which is a block scalar. -/
theorem readItem_checkLines {rest : List Yaml.Line} (hname : Yaml.isQuotable check.name.toList)
    (hcondition : condition.isEmpty ∨ Yaml.isPlain (Document.render condition).toList) :
    Yaml.readItem 6 (Yaml.field 6 "- name".toList ('"' :: check.name.toList ++ ['"']) ::
        (checkLines condition ++ rest)) =
      ((Yaml.readBlock 8 rest).bind fun (run, rest') =>
        (Yaml.readMapping (rest.length + 1) 8 rest').map fun (fields, rest') =>
          (checkFields condition check run ++ fields, rest')).filter
        fun (fields, _) => (fields.map Prod.fst).Nodup := by
  have hkey : "- name".toList = '-' :: ' ' :: "name".toList := rfl
  have hblock : ∀ rest, Yaml.readValue 8 [' ', '|'] rest =
      (Yaml.readBlock 8 rest).map fun (run, rest) => (.block run, rest) := fun _ => rfl
  have hshell : ∀ rest, Yaml.readValue 8 (' ' :: "bash".toList) rest =
      some (.plain "bash".toList, rest) := fun rest => Yaml.readValue_plain (by decide)
  have hhead : ∀ fuel rest, Yaml.readMapping (fuel + 1) 8
      (Yaml.field (6 + 2) "name".toList ('"' :: check.name.toList ++ ['"']) :: rest) =
        (Yaml.readMapping fuel 8 rest).map
          (Yaml.consField "name".toList (.quoted check.name.toList)) :=
    fun fuel rest => Yaml.readMapping_field_some (by decide) (Yaml.readValue_quoted hname)
  have htail : ∀ fuel, Yaml.readMapping (fuel + 2) 8
      (Yaml.field 8 "shell".toList "bash".toList :: Yaml.field 8 "run".toList ['|'] :: rest) =
        (Yaml.readBlock 8 rest).bind fun (run, rest) =>
          (Yaml.readMapping fuel 8 rest).map fun (fields, rest) =>
            (("shell".toList, .plain "bash".toList) :: ("run".toList, .block run) :: fields, rest)
      := by
    intro fuel
    rw [Yaml.readMapping_field_some (by decide) (hshell _), Yaml.readMapping_field (by decide),
      hblock]
    cases Yaml.readBlock 8 rest with
    | none => rfl
    | some read => simp [Function.comp_def, Yaml.consField]
  rw [hkey, Yaml.readItem_field, checkLines]
  congr 1
  split
  · next hnil =>
    show Yaml.readMapping (rest.length + 1 + 2 + 1) 8 _ = _
    rw [hhead]
    simp only [List.nil_append, List.cons_append, htail, checkFields, hnil, if_true]
    cases Yaml.readBlock 8 rest with
    | none => rfl
    | some read => simp [Function.comp_def, Yaml.consField]
  · next hne =>
    have hplain := hcondition.resolve_left hne
    show Yaml.readMapping (rest.length + 1 + 2 + 1 + 1) 8 _ = _
    rw [hhead]
    simp only [List.cons_append, List.nil_append]
    rw [Yaml.readMapping_field_some (by decide) (Yaml.readValue_plain hplain), htail]
    simp only [checkFields, if_neg hne]
    cases Yaml.readBlock 8 rest with
    | none => rfl
    | some read => simp [Function.comp_def, Yaml.consField]

theorem ends_of_opens (h : Document.opens post) :
    Yaml.Ends 8 (Yaml.lines (Document.render post).toList) := by
  match post, h with
  | .text s :: rest, h =>
    obtain ⟨hindent, hhead⟩ := (Bool.and_eq_true _ _).mp h
    obtain ⟨c, hc, hmark⟩ := Option.any_eq_true _ _ |>.mp hhead
    have hdrop : s.toList.drop (Yaml.indentation s.toList) =
        c :: (s.toList.drop (Yaml.indentation s.toList)).tail := List.eq_cons_of_mem_head? hc
    have hsplit : s.toList = List.replicate (Yaml.indentation s.toList) ' ' ++
        c :: (s.toList.drop (Yaml.indentation s.toList)).tail := by
      rw [← hdrop]
      exact Yaml.replicate_indentation.symm
    have hspace : c ≠ ' ' := Yaml.ne_space_of_drop hdrop
    simp only [Bool.and_eq_true, bne_iff_ne] at hmark
    obtain ⟨⟨htab, hbreak⟩, hcomment⟩ := hmark
    rw [toList_render_cons, Piece.render, hsplit, List.append_assoc, List.cons_append]
    exact Yaml.ends_of_head (by simpa using hindent) hspace htab hcomment (by simpa [Yaml.isBreak])

/-! ### Accepted checks -/

theorem isAscii_isCheckNameChar : Ascii.IsAscii isCheckNameChar :=
  Ascii.isAscii_or Ascii.isAscii_isAlphanum
    (Ascii.isAscii_contains (Ascii.forall_mem_of_all (by decide)))

/-- A check that passed each of its checks. -/
structure CheckAccepted (check : SourceCheck) : Prop where
  name : ∀ c ∈ check.name.toList, isCheckNameChar c
  runNonempty : Text.trim check.run ≠ ""
  runControl : ∀ c ∈ check.run.toList, Text.isControl c → c = '\n' ∨ c = '\t'

theorem checkAccepted_of_validate {group : String} {index : Nat}
    (h : validateNamedCheck group index check = .ok ()) : CheckAccepted check := by
  simp only [validateNamedCheck, Result.bind_ok, Result.failIf_ok, not_not] at h
  obtain ⟨⟨⟩, -, ⟨⟩, hname, ⟨⟩, hrun, ⟨⟩, hcontrol, -⟩ := h
  refine ⟨List.all_eq_true.mp hname, fun h => hrun (by rw [h]; rfl), fun c hc hctrl => ?_⟩
  by_contra hne
  rw [not_or] at hne
  exact hcontrol (List.any_eq_true.mpr ⟨c, hc, by simp [hctrl, hne.1, hne.2]⟩)

namespace CheckAccepted

variable (h : CheckAccepted check)

include h

theorem isQuotable_name : Yaml.isQuotable check.name.toList :=
  List.all_eq_true.mpr fun c hc =>
    Ascii.imp (q := fun c => Yaml.isContentChar c && c != '"' && c != '\\')
      isAscii_isCheckNameChar (by decide) (h.name c hc)

theorem not_isBreak_name : ∀ c ∈ check.name.toList, Yaml.isBreak c = false := by
  intro c hc
  have : !Yaml.isBreak c :=
    Ascii.imp (q := fun c => !Yaml.isBreak c) isAscii_isCheckNameChar (by decide) (h.name c hc)
  simpa using this

theorem return_not_mem : '\x0d' ∉ check.run.toList := by
  intro hmem
  rcases h.runControl _ hmem (by decide) with h | h <;> cases h

theorem exists_line : ∃ l ∈ runLines check.run, l ≠ [] := by
  by_contra hnone
  have hempty : ∀ l ∈ runLines check.run, l = [] := by
    intro l hl
    by_contra hne
    exact hnone ⟨l, hl, hne⟩
  obtain ⟨tail, -, hlines⟩ := literal_runLines h.return_not_mem
  -- the script would consist of line breaks, which are white space
  have hbreaks : ∀ c ∈ check.run.toList, c = '\n' := by
    intro c hc
    have hmem : c ∈ Yaml.literal (runLines check.run) := by
      rw [hlines]
      exact List.mem_append_left _ hc
    rcases Yaml.mem_literal hmem with hc | ⟨l, hl, hc⟩
    · exact hc
    · rw [hempty l hl] at hc
      cases hc
  refine h.runNonempty ?_
  have hwhite : check.run.toList.dropWhile Text.isWhitespace = [] :=
    List.dropWhile_eq_nil_iff.mpr fun c hc => by rw [hbreaks c hc]; rfl
  rw [Text.trim, hwhite]
  rfl

theorem isContentChar_iff {c : Char} (hc : c ∈ check.run.toList) :
    (c = '\n' ∨ Yaml.isContentChar c) ↔ c ≠ '\ufeff' ∧ c ≠ '\ufffe' ∧ c ≠ '\uffff' := by
  constructor
  · rintro (rfl | hcontent)
    · decide
    · refine ⟨?_, ?_, ?_⟩ <;> (rintro rfl; exact absurd hcontent (by decide))
  · rintro ⟨hmark, hfffe, hffff⟩
    have hcontrol := h.runControl c hc
    have hne : ∀ d : Char, c ≠ d → c.toNat ≠ d.toNat := fun d hd heq => hd (Char.toNat_inj.mp heq)
    have h1 : c.toNat ≠ 0xfeff := hne _ hmark
    have h2 : c.toNat ≠ 0xfffe := hne _ hfffe
    have h3 : c.toNat ≠ 0xffff := hne _ hffff
    by_cases hbreak : c = '\n'
    · exact .inl hbreak
    · right
      by_cases htab : c = '\t'
      · subst htab
        rfl
      · have hctrl : ¬ Text.isControl c := fun hctrl => (hcontrol hctrl).elim hbreak htab
        simp only [Text.isControl, Bool.or_eq_true, Bool.and_eq_true, decide_eq_true_eq] at hctrl
        simp only [Yaml.isContentChar, Bool.or_eq_true, Bool.and_eq_true, decide_eq_true_eq,
          beq_iff_eq, bne_iff_ne]
        omega

end CheckAccepted

theorem checkFields_injective {run run' : List Char} {fields : List (Yaml.Line × Yaml.Node)}
    (h : checkFields condition check run ++ fields = checkFields condition check run') :
    run = run' := by
  rw [← List.append_nil (checkFields condition check run')] at h
  have hlength : (checkFields condition check run).length =
      (checkFields condition check run').length := by simp [checkFields]
  have := (List.append_inj h hlength).1
  simpa [checkFields] using this

theorem nodup_checkFields {run : List Char} (hcondition : condition = [] ∨ condition = pyramidCondition) :
    ((checkFields condition check run).map Prod.fst).Nodup := by
  rcases hcondition with rfl | rfl
  · show ["name".toList, "shell".toList, "run".toList].Nodup
    decide
  · show ["name".toList, "if".toList, "shell".toList, "run".toList].Nodup
    decide

theorem not_isBreak_checkLines (hcondition : condition = [] ∨ condition = pyramidCondition) :
    ∀ l ∈ checkLines condition, ∀ c ∈ l, Yaml.isBreak c = false := by
  have hall : (checkLines condition).all fun l => l.all fun c => !Yaml.isBreak c := by
    rcases hcondition with rfl | rfl <;> decide
  intro l hl c hc
  simpa using List.all_eq_true.mp (List.all_eq_true.mp hall l hl) c hc

theorem lines_checkStep (h : CheckAccepted check)
    (hcondition : condition = [] ∨ condition = pyramidCondition) :
    Yaml.lines (Document.render (checkStep condition check ++ post)).toList =
      Yaml.field 6 "- name".toList ('"' :: check.name.toList ++ ['"']) :: (checkLines condition ++
        ((runLines check.run).map (Yaml.indentLine 10) ++
          Yaml.lines (Document.render post).toList)) := by
  rw [render_checkStep, Yaml.lines_literal_append]
  · simp
  · intro l hl
    rcases List.mem_cons.mp hl with rfl | hl
    · refine Yaml.not_isBreak_field (Ascii.forall_mem_of_all (by decide)) fun c hc => ?_
      rcases List.mem_append.mp hc with hc | hc
      · rcases List.mem_cons.mp hc with rfl | hc
        · rfl
        · exact h.not_isBreak_name c hc
      · rw [List.mem_singleton.mp hc]
        rfl
    · rcases List.mem_append.mp hl with hl | hl
      · exact not_isBreak_checkLines hcondition l hl
      · obtain ⟨line, hline, rfl⟩ := List.mem_map.mp hl
        exact Yaml.not_isBreak_indentLine
          (not_isBreak_of_mem_runLines h.return_not_mem line hline)

theorem mem_rdropWhile_or {p : Char → Bool} {s : List Char} {c : Char} (h : c ∈ s) :
    c ∈ s.rdropWhile p ∨ p c := by
  by_cases hp : p c
  · exact .inr hp
  · left
    obtain ⟨before, after, rfl⟩ := List.append_of_mem h
    rw [Yaml.rdropWhile_append_cons (by simpa using hp)]
    simp

/-- The step of an accepted check is read back exactly when its script is embeddable. -/
theorem checkReadBack_of_accepted (h : CheckAccepted check)
    (hcondition : condition = [] ∨ condition = pyramidCondition) (hopens : Document.opens post) :
    CheckReadBack condition check post ↔ IsEmbeddable check.run := by
  have hreturn := h.return_not_mem
  have hends := ends_of_opens hopens
  have hplain : condition.isEmpty ∨ Yaml.isPlain (Document.render condition).toList := by
    rcases hcondition with rfl | rfl
    · exact .inl rfl
    · exact .inr (by decide)
  rw [CheckReadBack, lines_checkStep h hcondition]
  simp only [readItem_checkLines h.isQuotable_name hplain]
  constructor
  · rintro ⟨run, hread, hrun⟩
    obtain ⟨hread, -⟩ := Option.filter_eq_some_iff.mp hread
    obtain ⟨⟨run', rest⟩, hblock, hfields⟩ := Option.bind_eq_some_iff.mp hread
    obtain ⟨⟨fields, rest'⟩, -, heq⟩ := Option.map_eq_some_iff.mp hfields
    obtain rfl : run' = run := checkFields_injective (Prod.mk.inj heq).1
    obtain ⟨haligned, hchars⟩ := Yaml.isAligned_of_readBlock hblock
    refine ⟨?_, ?_⟩
    · rw [← Yaml.isAligned_rdropWhile, ← hrun, Yaml.isAligned_rdropWhile]
      exact haligned
    · have hmem : ∀ c ∈ check.run.toList, c ≠ '\ufeff' ∧ c ≠ '\ufffe' ∧ c ≠ '\uffff' := by
        intro c hc
        refine (h.isContentChar_iff hc).mp ?_
        rcases mem_rdropWhile_or (p := Yaml.isBreak) hc with hin | hbreak
        · rw [← hrun] at hin
          exact hchars c ((List.rdropWhile_prefix _ _).subset hin)
        · exact .inl (by simpa [Yaml.isBreak] using hbreak)
      exact ⟨fun hin => (hmem _ hin).1 rfl, fun hin => (hmem _ hin).2.1 rfl,
        fun hin => (hmem _ hin).2.2 rfl⟩
  · rintro ⟨haligned, hmark, hfffe, hffff⟩
    have hcontent : ∀ l ∈ runLines check.run, ∀ c ∈ l, Yaml.isContentChar c := by
      intro l hl c hc
      have hin := mem_of_mem_runLines hreturn l hl c hc
      refine ((h.isContentChar_iff hin).mpr ⟨?_, ?_, ?_⟩).resolve_left fun hbreak => ?_
      · exact fun heq => hmark (heq ▸ hin)
      · exact fun heq => hfffe (heq ▸ hin)
      · exact fun heq => hffff (heq ▸ hin)
      · have := not_isBreak_of_mem_runLines hreturn l hl c hc
        rw [hbreak] at this
        cases this
    have hliteral : Yaml.isAligned (Yaml.literal (runLines check.run)) := by
      rw [← Yaml.isAligned_rdropWhile, rdropWhile_literal_runLines hreturn,
        Yaml.isAligned_rdropWhile]
      exact haligned
    obtain ⟨rest, hblock, hskip⟩ :=
      Yaml.readBlock_indent (k := 10) (by decide) h.exists_line hcontent hliteral hends
    have hstop : ∀ fuel, Yaml.readMapping (fuel + 1) 8 rest =
        some ([], Yaml.skip (Yaml.lines (Document.render post).toList)) := by
      intro fuel
      rw [← Yaml.readMapping_skip, hskip, Yaml.readMapping_skip, Yaml.readMapping_stop hends]
    refine ⟨Yaml.clip (Yaml.literal (runLines check.run)), ?_, ?_⟩
    · rw [hblock, Option.bind_some]
      dsimp only
      rw [hstop, Option.map_some, Option.filter_some, List.append_nil, if_pos]
      exact decide_eq_true (nodup_checkFields hcondition)
    · rw [Yaml.rdropWhile_clip, rdropWhile_literal_runLines hreturn]

/-- In every workflow, the step of a check is followed by a line that ends its script. -/
theorem opens_of_checkStep {mode : SourceWorkflowMode} {w : GeneratedWorkflow} {pre : Document}
    (hw : w ∈ generateGithubWithSourceMode m mode)
    (hdoc : w.document = pre ++ checkStep condition check ++ post) : Document.opens post := by
  have hsplit : w.document = (pre ++ checkHead condition check) ++ .script check.run :: post := by
    rw [hdoc, checkStep]
    simp only [List.append_assoc, List.singleton_append]
  exact opens_of_split (scriptsEnd_of_mem hw) hsplit

/-- In every workflow of an accepted matrix, the step of a repository check is read back exactly
when its script is embeddable. -/
theorem checkReadBack_iff (h : m.validate catalog = .ok ()) {mode : SourceWorkflowMode}
    {w : GeneratedWorkflow} (hw : w ∈ generateGithubWithSourceMode m mode)
    (hcheck : check ∈ m.sourceChecks ∨ ∃ release, m.release = some release ∧ check ∈ release.checks)
    (hcondition : condition = [] ∨ condition = pyramidCondition) {pre : Document}
    (hdoc : w.document = pre ++ checkStep condition check ++ post) :
    CheckReadBack condition check post ↔ IsEmbeddable check.run := by
  have haccepted := SupportMatrix.accepted_of_validate h
  have hvalid : CheckAccepted check := by
    rcases hcheck with hcheck | ⟨release, hrelease, hcheck⟩
    · obtain ⟨index, hindex⟩ := haccepted.sourceChecks check hcheck
      exact checkAccepted_of_validate hindex
    · obtain ⟨index, hindex⟩ := (haccepted.release release hrelease).2.1 check hcheck
      exact checkAccepted_of_validate hindex
  exact checkReadBack_of_accepted hvalid hcondition (opens_of_checkStep hw hdoc)

/-! ### Where checks are rendered -/

/-- The steps of a shape that runs the checks have a step for each. -/
theorem infix_steps {shape : JobShape} (hruns : shape.runsChecks) (hcheck : check ∈ m.sourceChecks) :
    ∃ condition, (condition = [] ∨ condition = pyramidCondition) ∧
      checkStep condition check <:+: shape.steps m := by
  cases shape with
  | bundle =>
    refine ⟨[], .inl rfl, (infix_flatMap hcheck (checkStep [])).trans ?_⟩
    exact List.infix_append _ _ _
  | workspace =>
    refine ⟨pyramidCondition, .inr rfl,
      (infix_flatMap hcheck (checkStep pyramidCondition)).trans ?_⟩
    exact List.infix_append _ _ _
  | workspaceRuntimeFree => cases hruns
  | workspaceGraph => cases hruns

/-- A source cell whose job runs the checks brings each of them into the source workflow. -/
theorem infix_checkStep {cell : SupportCell} (hcell : cell ∈ m.sourceCells)
    (hruns : (jobShape cell).runsChecks) (hcheck : check ∈ m.sourceChecks)
    (mode : SourceWorkflowMode) :
    ∃ d condition, generateSourceWithMode m mode = some d ∧
      (condition = [] ∨ condition = pyramidCondition) ∧ checkStep condition check <:+: d := by
  obtain ⟨d, hdoc, id, gate, hjob⟩ := infix_generateSource hcell mode
  obtain ⟨condition, hcondition, hstep⟩ := infix_steps hruns hcheck
  refine ⟨d, condition, hdoc, hcondition, (hstep.trans ?_).trans hjob⟩
  exact List.infix_append_right

/-! ### An indented script -/

/-- A bundle cell of the pull-request lane on self-hosted runners. -/
def bundleCell (name bundle : String) : SupportCell :=
  { graphCell name (some zeroDigest) with kind := .bundle, bundle := some bundle, verify := none }

/-- A check of the given script. -/
def smokeCheck (run : String) : SourceCheck := ⟨"Smoke (usdview)", run⟩

/-- A matrix of one bundle cell and one check. -/
def checkedMatrix (run : String) : SupportMatrix :=
  { bareMatrix [bundleCell "plugin" "."] with sourceChecks := [smokeCheck run] }

/-- The check of the matrix has a step in its source workflow. -/
theorem exists_smokeStep (run : String) : ∃ w ∈ generateGithubWithSourceMode (checkedMatrix run)
    .direct, ∃ condition before post, (condition = [] ∨ condition = pyramidCondition) ∧
      w.document = before ++ checkStep condition (smokeCheck run) ++ post := by
  have hcell : bundleCell "plugin" "." ∈ (checkedMatrix run).sourceCells := List.mem_cons_self
  have hcheck : smokeCheck run ∈ (checkedMatrix run).sourceChecks := List.mem_cons_self
  obtain ⟨d, condition, hdoc, hcondition, before, post, hd⟩ :=
    infix_checkStep hcell rfl hcheck .direct
  refine ⟨⟨SOURCE_WORKFLOW_PATH, d⟩, ?_, condition, before, post, hcondition, hd.symm⟩
  rw [generateGithubWithSourceMode, hdoc]
  simp

/-- An accepted script of two lines, the first of them indented, is not read back. -/
theorem checkReadBack_fails : ¬ ∀ (catalog : Catalog) (m : SupportMatrix)
    (mode : SourceWorkflowMode) (w : GeneratedWorkflow) (check : SourceCheck)
    (condition pre post : Document), m.validate catalog = .ok () →
      w ∈ generateGithubWithSourceMode m mode → check ∈ m.sourceChecks →
      condition = [] ∨ condition = pyramidCondition →
      w.document = pre ++ checkStep condition check ++ post →
        CheckReadBack condition check post := by
  intro hall
  have hvalid : (checkedMatrix "  echo a\necho b").validate (.ok []) = .ok () := by decide
  obtain ⟨w, hw, condition, before, post, hcondition, hd⟩ := exists_smokeStep "  echo a\necho b"
  have hread := hall _ _ _ w _ condition before post hvalid hw List.mem_cons_self hcondition hd
  have hchecks := (SupportMatrix.accepted_of_validate hvalid).sourceChecks _ List.mem_cons_self
  obtain ⟨index, hindex⟩ := hchecks
  have hembeddable := (checkReadBack_of_accepted (checkAccepted_of_validate hindex) hcondition
    (opens_of_checkStep hw hd)).mp hread
  exact absurd hembeddable.1 (by decide)

theorem checkReadBack_smoke : ∃ w ∈ generateGithubWithSourceMode
    (checkedMatrix "set -e\n\n  # tools\nusdview --version\n") .direct, ∃ condition before post,
      w.document = before ++
        checkStep condition (smokeCheck "set -e\n\n  # tools\nusdview --version\n") ++ post ∧
      CheckReadBack condition (smokeCheck "set -e\n\n  # tools\nusdview --version\n") post := by
  obtain ⟨w, hw, condition, before, post, hcondition, hd⟩ :=
    exists_smokeStep "set -e\n\n  # tools\nusdview --version\n"
  have hvalid : (checkedMatrix "set -e\n\n  # tools\nusdview --version\n").validate (.ok []) =
    .ok () := by decide
  refine ⟨w, hw, condition, before, post, hd, ?_⟩
  exact (checkReadBack_iff hvalid hw (.inl List.mem_cons_self) hcondition hd).mpr
    ⟨by decide, by decide, by decide, by decide⟩

end Reading

end Ci

end OpenStrata
