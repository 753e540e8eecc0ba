import OpenStrata.Artifact.Reference
import OpenStrata.Core.Ascii
import OpenStrata.Core.Find
import OpenStrata.Core.Parts
import OpenStrata.Lib.TreeMap

/-!
# Authentication challenges

A registry that refuses a request says in its `WWW-Authenticate` header where a token is issued,
for which service and for which scope: `key="value"` parameters, separated by commas. The reader
splits at every comma, also at those inside a quoted value, so that what stands behind a comma of
a value is read as a parameter of its own. A value is read as it was quoted when it has no comma
and no later value is read in its place.

## Main definitions

* `parseChallenge`: the parameters read from a header
* `TokenRequest`, `tokenRequest`: what the token exchange asks for
* `ChallengeParam`, `Challenge`: a header made of quoted parameters
* `Challenge.Protected`: the parameter of a name has no comma, and no value is read in its place

## Main results

* `Challenge.parseChallenge_iff`: the realm, the service and the scope are read as quoted, and the
  token is requested for that scope, exactly when the three are protected
-/

namespace OpenStrata

open Std TreeMap

/-! ## The reader -/

/-- `trim_start`: the text without the white space at its start. -/
def Text.trimStart (s : String) : String := String.ofList (s.toList.dropWhile Text.isWhitespace)

/-- The key and the value of a part of a challenge, unless it has no `=`. -/
def readParam (part : String) : Option (String × String) :=
  (Text.splitOnce "=" part).map fun (key, value) =>
    (Text.toAsciiLowercase (Text.trim key), Text.trimMatches '"' (Text.trim value))

/-- The parameters of a challenge. -/
def parseChallenge (header : String) : ExtTreeMap String String :=
  let body := ((Text.splitOnce " " (Text.trimStart header)).map (·.2)).getD ""
  (Text.split (· == ',') body).foldl
    (fun params part => match readParam part with
      | some param => params.insert param.1 param.2
      | none => params) ∅

/-- What a token exchange asks of the realm it is sent to. -/
structure TokenRequest where
  realm : String
  service : Option String
  scope : String
  deriving DecidableEq, Repr

def ENV_TOKEN : String := "OST_REGISTRY_TOKEN"

def ENV_USER : String := "OST_REGISTRY_USER"

def ENV_PASSWORD : String := "OST_REGISTRY_PASSWORD"

def authDenied (reference : OciReference) (detail : String) : Error :=
  (Error.ofCode "ARTIFACT_AUTH_DENIED" .precondition
    (reference.registry ++ " requires authentication for '" ++ reference.locator ++ "': " ++
      detail)).withHint
    ("for a private registry set " ++ ENV_TOKEN ++ ", or " ++ ENV_USER ++ " + " ++ ENV_PASSWORD ++
      " for the token exchange")

/-- The request of a token exchange, as the challenge of a refused request directs it. -/
def tokenRequest (reference : OciReference) (challenge defaultScope : String) :
    Result TokenRequest := do
  let params := parseChallenge challenge
  Result.failIf
    (¬ Text.startsWith "bearer" (Text.toAsciiLowercase (Text.trimStart challenge)))
    (authDenied reference ("unsupported challenge '" ++ challenge ++
      "' (only Bearer token exchange is supported)"))
  let realm ← Result.okOr (authDenied reference "challenge names no realm") params["realm"]?
  return { realm, service := params["service"]?, scope := params["scope"]?.getD defaultScope }

theorem scope_of_tokenRequest {reference : OciReference} {challenge defaultScope : String}
    {request : TokenRequest} (h : tokenRequest reference challenge defaultScope = .ok request) :
    request.scope = (parseChallenge challenge)["scope"]?.getD defaultScope := by
  simp only [tokenRequest, Result.bind_ok] at h
  obtain ⟨-, -, realm, -, h⟩ := h
  have hrequest := Except.ok.inj h
  rw [← hrequest]

/-- The part names a parameter: what stands before its first `=` is the name, and what stands
behind it the value, in quotes or without them. -/
def Names (part name value : String) : Prop :=
  ∃ key quoted, part = key ++ "=" ++ quoted ∧ '=' ∉ key.toList ∧
    Text.toAsciiLowercase (Text.trim key) = name ∧ Text.trimMatches '"' (Text.trim quoted) = value

theorem readParam_eq_some {part name value : String} :
    readParam part = some (name, value) ↔ Names part name value := by
  rw [readParam, Option.map_eq_some_iff]
  constructor
  · rintro ⟨⟨key, quoted⟩, hsplit, heq⟩
    obtain ⟨hname, hvalue⟩ := Prod.mk.inj heq
    exact ⟨key, quoted, Text.splitOnce_eq (by simp) hsplit, Text.not_mem_of_splitOnce rfl hsplit,
      hname, hvalue⟩
  · rintro ⟨key, quoted, rfl, hkey, rfl, rfl⟩
    exact ⟨(key, quoted), Text.splitOnce_append rfl hkey, rfl⟩

/-- The value of a part has no character but those of the part. -/
theorem Names.mem {part name value : String} {c : Char} (h : Names part name value)
    (hc : c ∈ value.toList) : c ∈ part.toList := by
  obtain ⟨key, quoted, rfl, -, -, rfl⟩ := h
  simp [Text.mem_of_mem_trim (Text.mem_of_mem_trimMatches hc)]

/-- The last value of a parameter read from the parts. -/
theorem lastValue_readParam {parts : List String} {name value : String} :
    lastValue (parts.filterMap readParam) name = some value ↔
      ∃ before part after, parts = before ++ part :: after ∧ Names part name value ∧
        ∀ other ∈ after, ∀ v, ¬ Names other name v := by
  induction parts using List.reverseRecOn with
  | nil => simp [lastValue]
  | append_singleton parts last ih =>
    rw [List.filterMap_append, lastValue_append]
    by_cases hlast : ∃ v, Names last name v
    · -- the last part is read
      obtain ⟨v, hv⟩ := hlast
      have hread : lastValue ([last].filterMap readParam) name = some v := by
        simp [lastValue, readParam_eq_some.mpr hv]
      rw [hread, Option.some_or, Option.some_inj]
      constructor
      · rintro rfl
        exact ⟨parts, last, [], rfl, hv, by simp⟩
      · rintro ⟨before, part, after, hparts, hnames, hafter⟩
        rcases List.eq_nil_or_concat after with rfl | ⟨init, other, rfl⟩
        · obtain ⟨-, hpart⟩ := List.append_inj' hparts rfl
          obtain rfl : last = part := List.head_eq_of_cons_eq hpart
          have hboth := (readParam_eq_some.mpr hv).symm.trans (readParam_eq_some.mpr hnames)
          exact (Prod.mk.inj (Option.some_inj.mp hboth)).2
        · rw [List.concat_eq_append, ← List.cons_append, ← List.append_assoc] at hparts
          obtain rfl : last = other :=
            List.head_eq_of_cons_eq (List.append_inj' hparts rfl).2
          exact absurd hv (hafter last (by simp) v)
    · -- it is not, and the last value is among the others
      have hread : lastValue ([last].filterMap readParam) name = none := by
        cases hr : readParam last with
        | none => simp [lastValue, hr]
        | some entry =>
          obtain ⟨key, v⟩ := entry
          have hkey : key ≠ name := by
            rintro rfl
            exact hlast ⟨v, readParam_eq_some.mp hr⟩
          simp [lastValue, hr, hkey]
      rw [hread, Option.none_or, ih]
      constructor
      · rintro ⟨before, part, after, rfl, hnames, hafter⟩
        refine ⟨before, part, after ++ [last], by simp, hnames, fun other hother v hv => ?_⟩
        rcases List.mem_append.mp hother with hother | hother
        · exact hafter other hother v hv
        · obtain rfl := List.mem_singleton.mp hother
          exact hlast ⟨v, hv⟩
      · rintro ⟨before, part, after, hparts, hnames, hafter⟩
        rcases List.eq_nil_or_concat after with rfl | ⟨init, other, rfl⟩
        · obtain rfl : last = part :=
            List.head_eq_of_cons_eq (List.append_inj' hparts rfl).2
          exact absurd ⟨value, hnames⟩ hlast
        · rw [List.concat_eq_append, ← List.cons_append, ← List.append_assoc] at hparts
          exact ⟨before, part, init, (List.append_inj' hparts rfl).1, hnames,
            fun other hother => hafter other (by simp [hother])⟩

theorem foldl_readParam (parts : List String) (params : ExtTreeMap String String) :
    parts.foldl (fun params part => match readParam part with
      | some param => params.insert param.1 param.2
      | none => params) params =
      (parts.filterMap readParam).foldl (fun params param => params.insert param.1 param.2)
        params := by
  induction parts generalizing params with
  | nil => rfl
  | cons part parts ih =>
    rw [List.foldl_cons, ih]
    cases hread : readParam part with
    | none => rw [List.filterMap_cons_none hread]
    | some param => rw [List.filterMap_cons_some hread, List.foldl_cons]

/-- Parameters are split on their own. -/
theorem filterMap_split_join (texts : List String) :
    (Text.split (· == ',') (Text.join "," texts)).filterMap readParam =
      (texts.flatMap fun text => Text.split (· == ',') text).filterMap readParam := by
  induction texts with
  | nil => rfl
  | cons text rest ih =>
    cases rest with
    | nil => simp [Text.join]
    | cons next rest =>
      have hjoin : Text.join "," (text :: next :: rest) =
          text ++ "," ++ Text.join "," (next :: rest) := rfl
      rw [hjoin, Text.split_append_char (c := ',') rfl rfl, List.filterMap_append, ih,
        List.flatMap_cons (x := text), List.filterMap_append]

/-! ## Headers of quoted parameters -/

/-- A `key="value"` parameter, between white space. -/
structure ChallengeParam where
  before : String
  key : String
  value : String
  after : String
  blank : ∀ c ∈ before.toList ++ after.toList, Text.isWhitespace c
  token : ∀ c ∈ key.toList, ¬ Text.isWhitespace c ∧ c ≠ '=' ∧ c ≠ ',' ∧ c ≠ '"'
  unquoted : '"' ∉ value.toList

namespace ChallengeParam

variable {p : ChallengeParam}

/-- Parameter names are compared without case. -/
def name (p : ChallengeParam) : String := Text.toAsciiLowercase p.key

/-- What stands behind the opening quote. -/
def quoted (p : ChallengeParam) : String := p.value ++ "\"" ++ p.after

/-- The parameter as the header has it. -/
def text (p : ChallengeParam) : String := p.before ++ p.key ++ "=" ++ "\"" ++ p.quoted

/-- The parts of the parameter that a comma of its value separates from its key. -/
def tails (p : ChallengeParam) : List String := (Text.split (· == ',') p.quoted).tail

theorem not_mem_lead {c : Char} (hc : Text.isWhitespace c = false) (hkey : c ∉ p.key.toList) :
    c ∉ (p.before ++ p.key).toList := by
  rw [String.toList_append, List.mem_append]
  rintro (h | h)
  · have := p.blank c (List.mem_append_left _ h)
    simp [hc] at this
  · exact hkey h

theorem trim_lead (p : ChallengeParam) : Text.trim (p.before ++ p.key) = p.key := by
  have htrimmed : Text.IsTrimmed p.key.toList :=
    ⟨fun c hc => by simpa using (p.token c (List.mem_of_head? hc)).1,
      fun c hc => by simpa using (p.token c (List.mem_of_getLast? hc)).1⟩
  rw [@Text.trim_eq p.before.toList p.key.toList [] _ (by simp)
    (fun c hc => p.blank c (List.mem_append_left _ hc)) (by simp) htrimmed, String.ofList_toList]

/-- The first part of a parameter, and its tails. -/
theorem split_text (p : ChallengeParam) : ∃ first,
    Text.split (· == ',') p.quoted = first :: p.tails ∧
      Text.split (· == ',') p.text = (p.before ++ p.key ++ "=" ++ ("\"" ++ first)) :: p.tails := by
  obtain ⟨first, others, hsplit⟩ : ∃ first others,
      Text.split (· == ',') p.quoted = first :: others :=
    List.exists_cons_of_ne_nil (by simp [Text.split, List.splitOnP_ne_nil])
  have hlead : ',' ∉ (p.before ++ p.key).toList :=
    not_mem_lead rfl fun h => (p.token _ h).2.2.1 rfl
  refine ⟨first, by rw [tails, hsplit, List.tail_cons], ?_⟩
  rw [text, Text.split_append_of_not_mem, hsplit, List.modifyHead_cons, tails, hsplit,
    List.tail_cons, @String.append_assoc _ _ first]
  intro c hc
  rw [String.toList_append, String.toList_append, List.append_assoc, List.mem_append] at hc
  rcases hc with hc | hc
  · rw [beq_eq_false_iff_ne]
    rintro rfl
    exact hlead hc
  · rcases List.mem_pair.mp hc with rfl | rfl <;> rfl

/-- The first part of a parameter names it, with what follows the opening quote. -/
theorem names_first (p : ChallengeParam) (first : String) :
    Names (p.before ++ p.key ++ "=" ++ ("\"" ++ first)) p.name
      (Text.trimMatches '"' (Text.trim ("\"" ++ first))) := by
  refine ⟨p.before ++ p.key, "\"" ++ first, rfl, ?_, by rw [trim_lead, name], rfl⟩
  exact not_mem_lead rfl fun h => (p.token _ h).2.1 rfl

/-- The whole value is read between its quotes. -/
theorem trimMatches_quoted (p : ChallengeParam) :
    Text.trimMatches '"' (Text.trim ("\"" ++ p.quoted)) = p.value := by
  have htrim : Text.trim ("\"" ++ p.quoted) =
      String.ofList ('"' :: (p.value.toList ++ ['"'])) := by
    refine @Text.trim_eq [] _ p.after.toList _ ?_ (by simp)
      (fun c hc => p.blank c (List.mem_append_right _ hc)) ⟨?_, ?_⟩
    · simp [quoted]
    · rintro c hc
      cases hc
      rfl
    · intro c hc
      rw [← List.cons_append, List.getLast?_concat] at hc
      cases hc
      rfl
  rw [htrim, Text.trimMatches_eq p.unquoted, String.ofList_toList]

theorem comma_not_mem_quoted (h : ',' ∉ p.value.toList) : ',' ∉ p.quoted.toList := by
  rw [quoted, String.toList_append, String.toList_append, List.append_assoc, List.mem_append,
    List.mem_append]
  rintro (hc | hc | hc)
  · exact h hc
  · cases List.mem_singleton.mp hc
  · have := p.blank _ (List.mem_append_right _ hc)
    cases this

theorem comma_not_mem_of_mem_split {s part : String} (h : part ∈ Text.split (· == ',') s) :
    ',' ∉ part.toList := by
  intro hc
  simpa using Text.not_mem_of_mem_split h _ hc

/-- The value of a tail has no comma. -/
theorem comma_not_mem_of_tail {part name v : String} (h : part ∈ p.tails) (hv : Names part name v) :
    ',' ∉ v.toList :=
  fun hc => comma_not_mem_of_mem_split (List.mem_of_mem_tail h) (hv.mem hc)

/-- The value read for a name from the parts of a parameter. -/
def read (p : ChallengeParam) (name : String) : Option String :=
  lastValue ((Text.split (· == ',') p.text).filterMap readParam) name

theorem read_of_ne {name : String} (h : p.name ≠ name) :
    p.read name = lastValue (p.tails.filterMap readParam) name := by
  obtain ⟨first, -, htext⟩ := p.split_text
  rw [read, htext, List.filterMap_cons_some (readParam_eq_some.mpr (p.names_first first)),
    lastValue, List.filter_cons_of_neg (by simpa using h)]
  rfl

/-- A value without a comma is read as it was quoted. -/
theorem read_of_whole (h : ',' ∉ p.value.toList) : p.read p.name = some p.value := by
  have hquoted : Text.split (· == ',') p.quoted = [p.quoted] := by
    refine Text.split_of_not_mem fun c hc => ?_
    rw [beq_eq_false_iff_ne]
    rintro rfl
    exact comma_not_mem_quoted h hc
  obtain ⟨first, hfirst, htext⟩ := p.split_text
  obtain ⟨rfl, htails⟩ := List.cons.inj (hquoted.symm.trans hfirst)
  rw [read, htext, List.filterMap_cons_some (readParam_eq_some.mpr (p.names_first p.quoted)),
    ← htails, trimMatches_quoted]
  simp [lastValue]

end ChallengeParam

/-! ## Lists of parameters -/

section Params

variable {params : List ChallengeParam} {p : ChallengeParam} {name v : String}

/-- The value quoted under a name. -/
def quotedValue (params : List ChallengeParam) (name : String) : Option String :=
  (params.find? (·.name == name)).map (·.value)

/-- The parts that commas cut off the values behind the parameter of a name, or off all values when
no parameter has the name. -/
def tailsBehind (params : List ChallengeParam) (name : String) : List String :=
  (params.rtakeWhile (·.name != name)).flatMap ChallengeParam.tails

theorem quotedValue_of_mem (hdistinct : (params.map ChallengeParam.name).Nodup) (hp : p ∈ params) :
    quotedValue params p.name = some p.value := by
  induction params with
  | nil => cases hp
  | cons q params ih =>
    obtain ⟨hfirst, hrest⟩ := List.nodup_cons.mp hdistinct
    rcases List.mem_cons.mp hp with rfl | hp
    · simp [quotedValue]
    · have hne : q.name ≠ p.name := fun heq => hfirst (heq ▸ List.mem_map_of_mem hp)
      rw [quotedValue, List.find?_cons_of_neg (by simpa using hne)]
      exact ih hrest hp

theorem quotedValue_append_of_ne (hne : p.name ≠ name) :
    quotedValue (params ++ [p]) name = quotedValue params name := by
  rw [quotedValue, List.find?_append, List.find?_cons_of_neg (by simpa using hne), List.find?_nil,
    Option.or_none, quotedValue]

theorem tailsBehind_append_self : tailsBehind (params ++ [p]) p.name = [] := by
  rw [tailsBehind, List.rtakeWhile_concat_neg _ _ _ (by simp), List.flatMap_nil]

theorem tailsBehind_append_of_ne (hne : p.name ≠ name) :
    tailsBehind (params ++ [p]) name = tailsBehind params name ++ p.tails := by
  rw [tailsBehind, List.rtakeWhile_concat_pos _ _ _ (by simpa using hne), List.flatMap_append,
    List.flatMap_singleton, tailsBehind]

/-- The parts that the reader splits the parameters into. -/
def paramParts (params : List ChallengeParam) : List String :=
  params.flatMap fun p => Text.split (· == ',') p.text

/-- A value that is read has no comma. -/
theorem comma_not_mem_of_read
    (h : lastValue ((paramParts params).filterMap readParam) name = some v) : ',' ∉ v.toList := by
  obtain ⟨before, part, after, hparts, hnames, -⟩ := lastValue_readParam.mp h
  have hpart : part ∈ paramParts params := by
    rw [hparts]
    simp
  obtain ⟨p, -, hpart⟩ := List.mem_flatMap.mp hpart
  exact fun hc => ChallengeParam.comma_not_mem_of_mem_split hpart (hnames.mem hc)

/-- What is read for a name is what is quoted when its value has no comma and what is read behind
it, if anything is, is that value. -/
theorem read_eq_quoted_iff (hdistinct : (params.map ChallengeParam.name).Nodup) :
    lastValue ((paramParts params).filterMap readParam) name = quotedValue params name ↔
      (∀ p ∈ params, p.name = name → ',' ∉ p.value.toList) ∧
        ∀ v, lastValue ((tailsBehind params name).filterMap readParam) name = some v →
          quotedValue params name = some v := by
  induction params using List.reverseRecOn with
  | nil => simp [paramParts, tailsBehind, quotedValue, lastValue]
  | append_singleton params p ih =>
    have hread : lastValue ((paramParts (params ++ [p])).filterMap readParam) name =
        (p.read name).or (lastValue ((paramParts params).filterMap readParam) name) := by
      rw [paramParts, List.flatMap_append, List.flatMap_singleton, List.filterMap_append,
        lastValue_append, ChallengeParam.read, paramParts]
    have hmem : p ∈ params ++ [p] := by simp
    have hfirst : (params.map ChallengeParam.name).Nodup := by
      rw [List.map_append] at hdistinct
      exact hdistinct.of_append_left
    by_cases hname : p.name = name
    · subst hname
      have hquoted := quotedValue_of_mem hdistinct hmem
      rw [tailsBehind_append_self, hquoted]
      constructor
      · intro h
        refine ⟨fun q hq hqname => ?_, by simp [lastValue]⟩
        rw [← hqname, quotedValue_of_mem hdistinct hq] at hquoted
        rw [Option.some_inj.mp hquoted]
        exact comma_not_mem_of_read h
      · rintro ⟨hwhole, -⟩
        rw [hread, ChallengeParam.read_of_whole (hwhole p hmem rfl), Option.some_or]
    · rw [hread, ChallengeParam.read_of_ne hname, quotedValue_append_of_ne hname,
        tailsBehind_append_of_ne hname, List.filterMap_append, lastValue_append]
      have hothers : (∀ q ∈ params ++ [p], q.name = name → ',' ∉ q.value.toList) ↔
          ∀ q ∈ params, q.name = name → ',' ∉ q.value.toList := by
        simp [or_imp, forall_and, hname]
      rw [hothers]
      cases hlast : lastValue (p.tails.filterMap readParam) name with
      | none => rw [Option.none_or, Option.none_or, ih hfirst]
      | some v =>
        -- a tail of this parameter is read for the name
        rw [Option.some_or, Option.some_or]
        constructor
        · intro h
          refine ⟨fun q hq hqname => ?_, fun w hw => h.symm.trans hw⟩
          subst hqname
          rw [quotedValue_of_mem hfirst hq, Option.some_inj] at h
          subst h
          obtain ⟨before, part, after, hparts, hnames, -⟩ := lastValue_readParam.mp hlast
          refine @ChallengeParam.comma_not_mem_of_tail p part _ _ ?_ hnames
          rw [hparts]
          simp
        · rintro ⟨-, h⟩
          exact (h v rfl).symm

end Params

/-! ## Challenges -/

/-- A Bearer challenge: quoted parameters, no two of one name. -/
structure Challenge where
  params : List ChallengeParam
  distinct : (params.map ChallengeParam.name).Nodup

namespace Challenge

variable {c : Challenge} {name : String}

/-- The header of a challenge. -/
def header (c : Challenge) : String :=
  "Bearer" ++ " " ++ Text.join "," (c.params.map ChallengeParam.text)

/-- The value that the challenge quotes under a name. -/
def quoted (c : Challenge) (name : String) : Option String := quotedValue c.params name

/-- The value of a name is cut by no comma, and no part cut off a later value is read in its
place: the last of these that names it has the same value. -/
structure Protected (c : Challenge) (name : String) : Prop where
  whole : ∀ p ∈ c.params, p.name = name → ',' ∉ p.value.toList
  unshadowed : ∀ before part after v, tailsBehind c.params name = before ++ part :: after →
    Names part name v → (∀ other ∈ after, ∀ w, ¬ Names other name w) → c.quoted name = some v

theorem getElem?_parseChallenge (c : Challenge) (name : String) :
    (parseChallenge c.header)[name]? =
      lastValue ((paramParts c.params).filterMap readParam) name := by
  have hbody : Text.splitOnce " " (Text.trimStart c.header) =
      some ("Bearer", Text.join "," (c.params.map ChallengeParam.text)) := by
    have htrim : Text.trimStart c.header = c.header := by
      have hlist : c.header.toList.dropWhile Text.isWhitespace = c.header.toList := by
        rw [header, String.toList_append, String.toList_append]
        rfl
      rw [Text.trimStart, hlist, String.ofList_toList]
    rw [htrim, header]
    exact Text.splitOnce_append (c := ' ') rfl (by decide)
  rw [parseChallenge, hbody, Option.map_some, Option.getD_some, foldl_readParam,
    TreeMap.getElem?_foldl_insert, filterMap_split_join, paramParts, List.flatMap_map]

theorem getElem?_parseChallenge_iff :
    (parseChallenge c.header)[name]? = c.quoted name ↔ c.Protected name := by
  rw [getElem?_parseChallenge, quoted, read_eq_quoted_iff c.distinct]
  constructor
  · rintro ⟨hwhole, hlast⟩
    refine ⟨hwhole, fun before part after v hparts hnames hafter => hlast v ?_⟩
    exact lastValue_readParam.mpr ⟨before, part, after, hparts, hnames, hafter⟩
  · rintro ⟨hwhole, hunshadowed⟩
    refine ⟨hwhole, fun v hv => ?_⟩
    obtain ⟨before, part, after, hparts, hnames, hafter⟩ := lastValue_readParam.mp hv
    exact hunshadowed before part after v hparts hnames hafter

/-- The realm, the service and the scope are read as they are quoted, and the token is requested
for the quoted scope, exactly when the three are protected. -/
theorem parseChallenge_iff (c : Challenge) (reference : OciReference) (defaultScope : String) :
    ((∀ name ∈ ["realm", "service", "scope"], (parseChallenge c.header)[name]? = c.quoted name) ∧
      ∀ request, tokenRequest reference c.header defaultScope = .ok request →
        request.scope = (c.quoted "scope").getD defaultScope) ↔
      ∀ name ∈ ["realm", "service", "scope"], c.Protected name := by
  constructor
  · rintro ⟨hread, -⟩ name hname
    exact getElem?_parseChallenge_iff.mp (hread name hname)
  · intro hprotected
    have hread : ∀ name ∈ ["realm", "service", "scope"],
        (parseChallenge c.header)[name]? = c.quoted name :=
      fun name hname => getElem?_parseChallenge_iff.mpr (hprotected name hname)
    refine ⟨hread, fun request hrequest => ?_⟩
    rw [scope_of_tokenRequest hrequest, hread "scope" (by simp)]

end Challenge

namespace Challenge.Sample

def parameter (key value : String) (token : ∀ c ∈ key.toList,
    ¬ Text.isWhitespace c ∧ c ≠ '=' ∧ c ≠ ',' ∧ c ≠ '"') (unquoted : '"' ∉ value.toList) :
    ChallengeParam :=
  { before := "", key, value, after := "", blank := by simp, token, unquoted }

/-- What a registry answers to a push: the scope has two actions. -/
def push : Challenge where
  params := [parameter "realm" "r" (Ascii.forall_mem_of_all (by decide)) (by decide),
    parameter "scope" "a:pull,push" (Ascii.forall_mem_of_all (by decide)) (by decide)]
  distinct := by decide

def reference : OciReference := ⟨"r", "a", some "v1", none⟩

end Challenge.Sample

/-- The token for a push is requested for pulling only. -/
theorem push_scope_cut : Challenge.Sample.push.quoted "scope" = some "a:pull,push" ∧
    (tokenRequest Challenge.Sample.reference Challenge.Sample.push.header
      "repository:a:pull,push").toOption.map (·.scope) = some "a:pull" := by
  decide

end OpenStrata
