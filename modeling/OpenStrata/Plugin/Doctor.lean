import OpenStrata.Lib.Overlay
import OpenStrata.Platform.OpenUsd
import OpenStrata.Plugin.Version
import OpenStrata.Plugin.Workspace

/-!
# Bundle diagnostics

The checks of a bundle against a runtime: the diagnostics of level 1 compare what the bundle's
manifest declares with what the runtime records. A fact that the runtime does not record is
skipped, never failed.

## Main definitions

* `LoadedBundle`: what the checks read of a bundle
* `RuntimeContext`: what they read of a runtime
* `level1`: the diagnostics
* `Compatible`: what the bundle asks of the runtime

## Main results

* `firstFailure_eq_none`: no check fails exactly when the runtime has what the bundle asks for
-/

namespace OpenStrata.Plugin

/-! ## Bundles and runtimes -/

/-- The C++ ABI of a bundle: one tag for every target, or a tag for each operating system. -/
inductive CxxAbi
  | scalar (tag : String)
  | perOs (tags : List (String × String))
  deriving DecidableEq, Repr

namespace CxxAbi

/-- The tag that defers to the runtime. -/
def INHERIT : String := "inherit"

def isInherit : CxxAbi → Bool
  | .scalar tag => tag == INHERIT
  | .perOs _ => false

/-- The tag for an operating system, if the bundle declares one. -/
def tagFor (abi : CxxAbi) (os : Option Os) : Option String :=
  match abi with
  | .scalar tag => if tag = INHERIT then none else some tag
  | .perOs tags => os.bind fun os => tags.lookup os.asStr

end CxxAbi

structure RuntimeReq where
  /-- The range of OpenUSD versions that the bundle tolerates. -/
  openusd : String
  cxxAbi : Option CxxAbi
  pythonAbi : Option String
  deriving DecidableEq, Repr

/-- What the checks read of a loaded bundle. -/
structure LoadedBundle where
  plugin : PluginIdentity
  runtime : RuntimeReq
  /-- `requires.capabilities`. -/
  capabilities : List String
  /-- `requires.components` with their ranges, in the order they are declared. -/
  components : List (String × String)

def LoadedBundle.needsImaging (bundle : LoadedBundle) : Bool := bundle.plugin.kind == .usdImaging

/-- The facts of a runtime that level 1 checks against. -/
structure RuntimeContext where
  targetOs : Option Os
  pulled : Bool
  source : Option String
  real : Bool
  reproducible : Bool
  openusdVersion : Option String
  cxxAbi : Option String
  pythonAbi : Option String
  /-- Component ids with their versions. -/
  components : List (String × String)
  imaging : Bool

/-! ## Diagnostics -/

inductive Status
  | pass
  | fail
  | skip
  deriving DecidableEq, Repr

/-- One diagnostic. Its suggested actions are left out: nothing here reads them. -/
structure Diagnostic where
  id : String
  level : Nat
  status : Status
  observed : String
  deriving DecidableEq, Repr

/-- The diagnostic of a version against a range. -/
def rangeDiagnostic (id range version : String) (satisfied unsatisfied : String) : Diagnostic :=
  match Version.satisfies version range with
  | .ok true => ⟨id, 1, .pass, satisfied⟩
  | .ok false => ⟨id, 1, .fail, unsatisfied⟩
  | .error e => ⟨id, 1, .fail, "cannot evaluate range '" ++ range ++ "': " ++ e.render⟩

def imagingDiagnostics (bundle : LoadedBundle) (ctx : RuntimeContext) : List Diagnostic :=
  if bundle.needsImaging then
    [if ctx.imaging && ctx.real then
      ⟨"runtime.usd_imaging", 1, .pass, "runtime has the usdImaging SDK"⟩
    else ⟨"runtime.usd_imaging", 1, .fail, "usd-imaging requires an imaging runtime with " ++
      "usdImaging; a core runtime cannot build or load adapters"⟩]
  else []

def sourceDiagnostics (ctx : RuntimeContext) : List Diagnostic :=
  ctx.source.toList.map fun source =>
    ⟨"runtime.source", 1, .pass, "runtime source is '" ++ source ++ "' " ++
      if !ctx.real then "(mock — no real OpenUSD)"
      else if ctx.reproducible then "(reproducible)"
      else "(real but not reproducible/certified)"⟩

def openusdDiagnostic (bundle : LoadedBundle) (ctx : RuntimeContext) : Diagnostic :=
  match ctx.openusdVersion with
  | some have_ => rangeDiagnostic "runtime.openusd.version" bundle.runtime.openusd have_
      ("runtime OpenUSD " ++ have_ ++ " satisfies '" ++ bundle.runtime.openusd ++ "'")
      ("runtime OpenUSD " ++ have_ ++ " does not satisfy '" ++ bundle.runtime.openusd ++ "'")
  | none => ⟨"runtime.openusd.version", 1, .skip, "runtime does not record an OpenUSD version"⟩

def matchCxxAbi (declared : String) (ctx : RuntimeContext) : Diagnostic :=
  match ctx.cxxAbi with
  | some runtime =>
    if declared = runtime then
      ⟨"runtime.cxx_abi", 1, .pass, "C++ ABI " ++ declared ++ " matches runtime"⟩
    else ⟨"runtime.cxx_abi", 1, .fail, "plugin C++ ABI '" ++ declared ++ "' != runtime '" ++
      runtime ++ "'" ++ ctx.targetOs.elim "" fun os => " for target " ++ os.asStr⟩
  | none => ⟨"runtime.cxx_abi", 1, .skip, "runtime records no C++ ABI"⟩

def cxxAbiDiagnostic (bundle : LoadedBundle) (ctx : RuntimeContext) : Diagnostic :=
  match bundle.runtime.cxxAbi with
  | none => ⟨"runtime.cxx_abi", 1, .skip, "plugin declares no C++ ABI"⟩
  | some abi =>
    if abi.isInherit then
      ⟨"runtime.cxx_abi", 1, .skip, "plugin defers its C++ ABI to the runtime (inherit)"⟩
    else match abi.tagFor ctx.targetOs with
      | some declared => matchCxxAbi declared ctx
      | none => ⟨"runtime.cxx_abi", 1, .skip,
          "plugin declares no C++ ABI for the resolved target OS"⟩

/-- A tag that a bundle declares against the runtime's; either may be missing. -/
def matchTag (id : String) (declared runtime : Option String) (label : String) : Diagnostic :=
  match declared, runtime with
  | some d, some r =>
    if d = r then ⟨id, 1, .pass, label ++ " " ++ d ++ " matches runtime"⟩
    else ⟨id, 1, .fail, "plugin " ++ label ++ " '" ++ d ++ "' != runtime '" ++ r ++ "'"⟩
  | none, _ => ⟨id, 1, .skip, "plugin declares no " ++ label⟩
  | some _, none => ⟨id, 1, .skip, "runtime records no " ++ label⟩

def componentDiagnostic (ctx : RuntimeContext) (component range : String) : Diagnostic :=
  match ctx.components.lookup component with
  | some have_ => rangeDiagnostic ("dependency." ++ component) range have_
      ("runtime provides " ++ component ++ " " ++ have_ ++ " (satisfies '" ++ range ++ "')")
      ("runtime provides " ++ component ++ " " ++ have_ ++ ", which does not satisfy '" ++
        range ++ "'")
  | none => ⟨"dependency." ++ component, 1, .fail,
      "runtime does not provide required component '" ++ component ++ "'"⟩

/-- The placeholders of a runtime that has not been pulled. -/
def unpulled (bundle : LoadedBundle) : List Diagnostic :=
  let reason := "runtime not pulled (run `ost runtime pull <platform> --profile <profile>`)"
  [⟨"runtime.openusd.version", 1, .skip, reason⟩, ⟨"runtime.cxx_abi", 1, .skip, reason⟩,
    ⟨"runtime.python_abi", 1, .skip, reason⟩] ++
  (if bundle.needsImaging then [⟨"runtime.usd_imaging", 1, .skip, reason⟩] else []) ++
  bundle.components.map fun component => ⟨"dependency." ++ component.1, 1, .skip, reason⟩

/-- The diagnostics of level 1. -/
def level1 (bundle : LoadedBundle) (ctx : RuntimeContext) : List Diagnostic :=
  if !ctx.pulled then unpulled bundle
  else imagingDiagnostics bundle ctx ++ sourceDiagnostics ctx ++
    [openusdDiagnostic bundle ctx, cxxAbiDiagnostic bundle ctx,
      matchTag "runtime.python_abi" bundle.runtime.pythonAbi ctx.pythonAbi "Python ABI"] ++
    bundle.components.map fun component => componentDiagnostic ctx component.1 component.2

/-- The first failed check of level 1. The checks of level 0 look at the files of the bundle; who
asks for this failure passes over them. -/
def firstFailure (bundle : LoadedBundle) (ctx : RuntimeContext) : Option Diagnostic :=
  (level1 bundle ctx).find? fun diagnostic => diagnostic.level == 1 && diagnostic.status == .fail

/-! ## What the checks establish -/

/-- A version that lies in a range. -/
def InRange (version range : String) : Prop := Version.satisfies version range = .ok true

/-- A pulled runtime has what a bundle asks for, where it records it. -/
structure Compatible (bundle : LoadedBundle) (ctx : RuntimeContext) : Prop where
  imaging : bundle.needsImaging → ctx.imaging && ctx.real
  openusd : ∀ version, ctx.openusdVersion = some version → InRange version bundle.runtime.openusd
  cxxAbi : ∀ abi declared tag, bundle.runtime.cxxAbi = some abi →
    abi.tagFor ctx.targetOs = some declared → ctx.cxxAbi = some tag → declared = tag
  pythonAbi : ∀ declared tag, bundle.runtime.pythonAbi = some declared →
    ctx.pythonAbi = some tag → declared = tag
  components : ∀ component ∈ bundle.components, ∃ version,
    ctx.components.lookup component.1 = some version ∧ InRange version component.2

section Failures

variable {bundle : LoadedBundle} {ctx : RuntimeContext}

theorem rangeDiagnostic_fails {id range version satisfied unsatisfied : String} :
    (rangeDiagnostic id range version satisfied unsatisfied).status = .fail ↔
      ¬ InRange version range := by
  unfold rangeDiagnostic InRange
  split <;> simp_all

theorem level_rangeDiagnostic (id range version satisfied unsatisfied : String) :
    (rangeDiagnostic id range version satisfied unsatisfied).level = 1 := by
  unfold rangeDiagnostic
  split <;> rfl

theorem openusdDiagnostic_fails : (openusdDiagnostic bundle ctx).status ≠ .fail ↔
    ∀ version, ctx.openusdVersion = some version → InRange version bundle.runtime.openusd := by
  unfold openusdDiagnostic
  cases ctx.openusdVersion with
  | none => simp
  | some version => simp [rangeDiagnostic_fails]

theorem matchTag_fails {id label : String} {declared runtime : Option String} :
    (matchTag id declared runtime label).status ≠ .fail ↔
      ∀ d r, declared = some d → runtime = some r → d = r := by
  unfold matchTag
  cases declared with
  | none => simp
  | some d =>
    cases runtime with
    | none => simp
    | some r =>
      by_cases h : d = r
      · simp [h]
      · simp [h]

theorem isInherit_tagFor {abi : CxxAbi} (h : abi.isInherit) (os : Option Os) :
    abi.tagFor os = none := by
  cases abi with
  | scalar tag => simp_all [CxxAbi.isInherit, CxxAbi.tagFor]
  | perOs tags => cases h

theorem matchCxxAbi_fails {declared : String} : (matchCxxAbi declared ctx).status ≠ .fail ↔
    ∀ tag, ctx.cxxAbi = some tag → declared = tag := by
  unfold matchCxxAbi
  cases ctx.cxxAbi with
  | none => simp
  | some tag =>
    by_cases h : declared = tag
    · simp [h]
    · simp [h]

theorem cxxAbiDiagnostic_fails : (cxxAbiDiagnostic bundle ctx).status ≠ .fail ↔
    ∀ abi declared tag, bundle.runtime.cxxAbi = some abi →
      abi.tagFor ctx.targetOs = some declared → ctx.cxxAbi = some tag → declared = tag := by
  unfold cxxAbiDiagnostic
  cases bundle.runtime.cxxAbi with
  | none => simp
  | some abi =>
    have hnone (h : abi.tagFor ctx.targetOs = none) : ∀ abi' declared tag, some abi = some abi' →
        abi'.tagFor ctx.targetOs = some declared → ctx.cxxAbi = some tag → declared = tag := by
      intro abi' declared tag heq htag
      obtain rfl := Option.some.inj heq
      rw [h] at htag
      cases htag
    by_cases hinherit : abi.isInherit
    · simp only [hinherit]
      exact ⟨fun _ => hnone (isInherit_tagFor hinherit _), fun _ => nofun⟩
    · simp only [hinherit]
      cases htag : abi.tagFor ctx.targetOs with
      | none => exact ⟨fun _ => hnone htag, fun _ => nofun⟩
      | some declared =>
        refine matchCxxAbi_fails.trans ⟨?_, fun h tag hctx => h abi declared tag rfl htag hctx⟩
        rintro h abi' declared' tag heq htag' hctx
        obtain rfl := Option.some.inj heq
        rw [htag] at htag'
        obtain rfl := Option.some.inj htag'
        exact h tag hctx

theorem componentDiagnostic_fails {component range : String} :
    (componentDiagnostic ctx component range).status ≠ .fail ↔
      ∃ version, ctx.components.lookup component = some version ∧ InRange version range := by
  unfold componentDiagnostic
  cases ctx.components.lookup component with
  | none => simp
  | some version => simp [rangeDiagnostic_fails]

theorem level_of_mem_level1 {diagnostic : Diagnostic} (h : diagnostic ∈ level1 bundle ctx) :
    diagnostic.level = 1 := by
  unfold level1 at h
  split at h
  · simp only [unpulled, List.mem_append, List.mem_cons, List.not_mem_nil, or_false,
      List.mem_map] at h
    rcases h with ((rfl | rfl | rfl) | h) | ⟨component, -, rfl⟩
    · rfl
    · rfl
    · rfl
    · split at h
      · obtain rfl := List.mem_singleton.mp h
        rfl
      · cases h
    · rfl
  · simp only [List.mem_append, List.mem_cons, List.not_mem_nil, or_false, List.mem_map,
      imagingDiagnostics, sourceDiagnostics] at h
    rcases h with ((h | ⟨source, -, rfl⟩) | rfl | rfl | rfl) | ⟨component, -, rfl⟩
    · split at h
      · obtain rfl := List.mem_singleton.mp h
        split <;> rfl
      · cases h
    · rfl
    · unfold openusdDiagnostic
      split
      · exact level_rangeDiagnostic ..
      · rfl
    · unfold cxxAbiDiagnostic matchCxxAbi
      repeat' split
      all_goals rfl
    · unfold matchTag
      repeat' split
      all_goals rfl
    · unfold componentDiagnostic
      split
      · exact level_rangeDiagnostic ..
      · rfl

/-- No check of a pulled runtime fails exactly when it has what the bundle asks for. -/
theorem firstFailure_eq_none (hpulled : ctx.pulled) :
    firstFailure bundle ctx = none ↔ Compatible bundle ctx := by
  have hfail : firstFailure bundle ctx = none ↔
      ∀ diagnostic ∈ level1 bundle ctx, diagnostic.status ≠ .fail := by
    rw [firstFailure, List.find?_eq_none]
    refine forall₂_congr fun diagnostic hdiagnostic => ?_
    simp [level_of_mem_level1 hdiagnostic]
  have himaging : (∀ diagnostic ∈ imagingDiagnostics bundle ctx, diagnostic.status ≠ .fail) ↔
      (bundle.needsImaging → ctx.imaging && ctx.real) := by
    unfold imagingDiagnostics
    by_cases hneeds : bundle.needsImaging
    · by_cases hhas : ctx.imaging && ctx.real
      · simp [hneeds, hhas]
      · simp [hneeds, hhas]
    · simp [hneeds]
  have hsource : ∀ diagnostic ∈ sourceDiagnostics ctx, diagnostic.status ≠ .fail := by
    intro diagnostic hdiagnostic
    obtain ⟨source, -, rfl⟩ := List.mem_map.mp hdiagnostic
    exact nofun
  rw [hfail, level1, if_neg (by simp [hpulled])]
  simp only [List.forall_mem_append, List.forall_mem_cons, List.forall_mem_map, himaging,
    openusdDiagnostic_fails, cxxAbiDiagnostic_fails, matchTag_fails, componentDiagnostic_fails]
  constructor
  · rintro ⟨⟨⟨h1, -⟩, h2, h3, h4, -⟩, h5⟩
    exact ⟨h1, h2, h3, h4, h5⟩
  · rintro ⟨h1, h2, h3, h4, h5⟩
    exact ⟨⟨⟨h1, hsource⟩, h2, h3, h4, nofun⟩, h5⟩

end Failures

end OpenStrata.Plugin
