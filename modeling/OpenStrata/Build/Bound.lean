import OpenStrata.Build.Completion
import OpenStrata.Core.Unambiguous

/-!
# What completion records are bound to

A build record is compared with the lock field by field; a test record is compared with the build
through the digest of what was configured. Where the hash has no collisions the digest stands for
the fields it covers, so the two comparisons agree on them. What the digest does not cover, and what
a test record repeats beside it, is not compared.

## Main definitions

* `TestCompletion.Records`: a test record repeats the identity of a build
* `TestCompletion.Bound`: what an accepted test record says about the build

## Main results

* `fingerprint_eq_iff`: the same fingerprint, the same configuration
* `completions_bind`: what the two validations accept
* `substituted_runtime_accepted`: an accepted test record of another runtime
-/

namespace OpenStrata

namespace BuildCompletion

variable {codec : Codec} {c c' : BuildCompletion}

/-! ## The material of a fingerprint -/

theorem optionalText_exact (text : Option String) : (optionalText text).Exact := by
  cases text <;> trivial

theorem optionalText_inj {a b : Option String} (h : optionalText a = optionalText b) : a = b := by
  cases a <;> cases b <;> cases h <;> rfl

theorem exact_toValue_entry (entry : CMakeCacheEntry) : entry.toValue.Exact := by
  refine Json.exact_object fun f hf value hvalue => ?_
  simp only [List.mem_cons, List.not_mem_nil, or_false] at hf
  rcases hf with rfl | rfl | rfl
  · cases hvalue
    trivial
  · cases hvalue
    trivial
  · obtain ⟨portability, -, rfl⟩ := Option.map_eq_some_iff.mp hvalue
    trivial

theorem exact_toValue_intent (intent : BuildIntent) : intent.toValue.Exact := by
  refine Json.exact_object fun f hf value hvalue => ?_
  simp only [List.mem_cons, List.not_mem_nil, or_false] at hf
  rcases hf with rfl | rfl
  · cases hvalue
    trivial
  · simp only [Serde.skipIf] at hvalue
    split_ifs at hvalue
    cases hvalue
    refine Json.exactFields_iff.mpr fun field hfield => ?_
    obtain ⟨entry, -, rfl⟩ := List.mem_map.mp hfield
    exact exact_toValue_entry entry.2

theorem exact_material (c : BuildCompletion) : c.material.Exact := by
  refine Json.exact_object fun f hf value hvalue => ?_
  simp only [List.mem_cons, List.not_mem_nil, or_false] at hf
  rcases hf with rfl | rfl | rfl | rfl | rfl | rfl | rfl
  · cases hvalue
    trivial
  · cases hvalue
    refine Json.exact_object fun f hf value hvalue => ?_
    simp only [List.mem_cons, List.not_mem_nil, or_false] at hf
    rcases hf with rfl | rfl <;> cases hvalue <;> trivial
  · cases hvalue
    refine Json.exact_object fun f hf value hvalue => ?_
    simp only [List.mem_cons, List.not_mem_nil, or_false] at hf
    rcases hf with rfl | rfl <;> cases hvalue <;> trivial
  · cases hvalue
    exact ⟨trivial, optionalText_exact _, optionalText_exact _, trivial⟩
  · cases hvalue
    trivial
  · cases hvalue
    trivial
  · cases hvalue
    exact exact_toValue_intent c.intent

theorem cmakeName_inj {a b : CMakeCacheType} (h : a.cmakeName = b.cmakeName) : a = b := by
  cases a <;> cases b <;> first | rfl | simp [CMakeCacheType.cmakeName] at h

theorem portability_inj {a b : CachePathPortability} (h : a.asStr = b.asStr) : a = b := by
  cases a <;> cases b <;> first | rfl | simp [CachePathPortability.asStr] at h

theorem toValue_entry_inj {a b : CMakeCacheEntry} (h : a.toValue = b.toValue) : a = b := by
  have hlookup := Json.lookup_of_object_eq (by rfl) (by rfl) h
  have hkind : some (Json.str a.kind.cmakeName) = some (.str b.kind.cmakeName) := hlookup "type"
  have hvalue : some (Json.str a.value) = some (.str b.value) := hlookup "value"
  have hportability : a.portability.map (fun p => Json.str p.asStr) =
      b.portability.map fun p => .str p.asStr := by
    have hjoin := hlookup "portability"
    simpa [List.lookup_cons] using hjoin
  have hinjective : Function.Injective fun p : CachePathPortability => Json.str p.asStr :=
    fun _ _ hp => portability_inj (Json.str.inj hp)
  cases a
  cases b
  simp only [CMakeCacheEntry.mk.injEq]
  exact ⟨cmakeName_inj (Json.str.inj (Option.some.inj hkind)),
    Json.str.inj (Option.some.inj hvalue), Option.map_injective hinjective hportability⟩

theorem toValue_intent_inj {a b : BuildIntent} (h : a.toValue = b.toValue) : a = b := by
  have hlookup := Json.lookup_of_object_eq (by rfl) (by rfl) h
  have hname : some (Json.str a.name) = some (.str b.name) := hlookup "name"
  have hcache : Serde.skipIf a.cache.isEmpty
        (.obj (a.cache.map fun entry => (entry.1, entry.2.toValue))) =
      Serde.skipIf b.cache.isEmpty
        (.obj (b.cache.map fun entry => (entry.1, entry.2.toValue))) := by
    have hjoin := hlookup "cache"
    simpa [List.lookup_cons] using hjoin
  have hinjective : Function.Injective fun entry : String × CMakeCacheEntry =>
      (entry.1, entry.2.toValue) := by
    rintro ⟨key, entry⟩ ⟨key', entry'⟩ hentry
    rw [Prod.mk.injEq] at hentry ⊢
    exact ⟨hentry.1, toValue_entry_inj hentry.2⟩
  have heq : a.cache = b.cache := by
    unfold Serde.skipIf at hcache
    split_ifs at hcache with ha hb
    · rw [List.isEmpty_iff.mp ha, List.isEmpty_iff.mp hb]
    · exact List.map_injective_iff.mpr hinjective (Json.obj.inj (Option.some.inj hcache))
  cases a
  cases b
  rw [BuildIntent.mk.injEq]
  exact ⟨Json.str.inj (Option.some.inj hname), heq⟩

theorem projectIdentity_ext {a b : BuildProjectIdentity} (hname : a.name = b.name)
    (hversion : a.version = b.version) : a = b := by
  cases a
  cases b
  rw [BuildProjectIdentity.mk.injEq]
  exact ⟨hname, hversion⟩

theorem lockRuntime_ext {a b : LockRuntime} (hid : a.id = b.id) (hdigest : a.digest = b.digest) :
    a = b := by
  cases a
  cases b
  rw [LockRuntime.mk.injEq]
  exact ⟨hid, hdigest⟩

/-- What decides what is built. -/
structure SameConfiguration (c c' : BuildCompletion) : Prop where
  target : c.target = c'.target
  project : c.project = c'.project
  runtime : c.runtime = c'.runtime
  compiler : c.compiler.fingerprint = c'.compiler.fingerprint
  generator : c.generator = c'.generator
  buildDir : c.buildDir = c'.buildDir
  intent : c.intent = c'.intent

theorem material_eq_iff : c.material = c'.material ↔ SameConfiguration c c' := by
  constructor
  · intro h
    have hlookup := Json.lookup_of_object_eq (by rfl) (by rfl) h
    have htarget : some (Json.str c.target) = some (.str c'.target) := hlookup "target"
    have hproject : some (Serde.object [("name", some (.str c.project.name)),
          ("version", some (.str c.project.version))]) =
        some (Serde.object [("name", some (.str c'.project.name)),
          ("version", some (.str c'.project.version))]) := hlookup "project"
    have hruntime : some (Serde.object [("id", some (.str c.runtime.id)),
          ("digest", some (.str c.runtime.digest))]) =
        some (Serde.object [("id", some (.str c'.runtime.id)),
          ("digest", some (.str c'.runtime.digest))]) := hlookup "runtime"
    have hcompiler : some (Json.arr [.str c.compiler.policy, optionalText c.compiler.cc,
          optionalText c.compiler.cxx]) =
        some (Json.arr [.str c'.compiler.policy, optionalText c'.compiler.cc,
          optionalText c'.compiler.cxx]) := hlookup "compiler"
    have hgenerator : some (Json.str c.generator) = some (.str c'.generator) :=
      hlookup "generator"
    have hbuildDir : some (Json.str c.buildDir) = some (.str c'.buildDir) := hlookup "build_dir"
    have hintent : some c.intent.toValue = some c'.intent.toValue := hlookup "intent"
    have hprojects := Json.lookup_of_object_eq (by rfl) (by rfl) (Option.some.inj hproject)
    have hname : some (Json.str c.project.name) = some (.str c'.project.name) := hprojects "name"
    have hversion : some (Json.str c.project.version) = some (.str c'.project.version) :=
      hprojects "version"
    have hruntimes := Json.lookup_of_object_eq (by rfl) (by rfl) (Option.some.inj hruntime)
    have hid : some (Json.str c.runtime.id) = some (.str c'.runtime.id) := hruntimes "id"
    have hdigest : some (Json.str c.runtime.digest) = some (.str c'.runtime.digest) :=
      hruntimes "digest"
    have hcompilers := Json.arr.inj (Option.some.inj hcompiler)
    simp only [List.cons.injEq, Json.str.injEq, and_true] at hcompilers
    simp only [Option.some_inj, Json.str.injEq] at htarget hgenerator hbuildDir
    simp only [Option.some_inj, Json.str.injEq] at hname hversion hid hdigest
    exact {
      target := htarget
      project := projectIdentity_ext hname hversion
      runtime := lockRuntime_ext hid hdigest
      compiler := by
        rw [LockCompiler.fingerprint, LockCompiler.fingerprint, hcompilers.1,
          optionalText_inj hcompilers.2.1, optionalText_inj hcompilers.2.2]
      generator := hgenerator
      buildDir := hbuildDir
      intent := toValue_intent_inj (Option.some.inj hintent) }
  · intro h
    have hcompiler := h.compiler
    simp only [LockCompiler.fingerprint, Prod.mk.injEq] at hcompiler
    rw [material, material, h.target, h.project, h.runtime, h.generator, h.buildDir, h.intent,
      hcompiler.1, hcompiler.2.1, hcompiler.2.2]

/-- Where the hash has no collisions, the same fingerprint means the same configuration. -/
theorem fingerprint_eq_iff (hsha : Function.Injective codec.sha256) :
    c.fingerprint codec = c'.fingerprint codec ↔ SameConfiguration c c' := by
  rw [← material_eq_iff]
  constructor
  · exact sha256Hex_jsonBytes_inj hsha (exact_material c) (exact_material c')
  · intro h
    rw [fingerprint, fingerprint, h]

/-! ## Comparison with a lock -/

variable {lock : TargetLock} {project : BuildProjectIdentity} {buildDir : String}

/-- A record with well-formed outputs is accepted when it is of the schema, names its intent, has
well-formed reports and is configured as the lock, the project and the directory say. -/
theorem validateAgainst_iff (houtputs : validateOutputs [] c.outputs = .ok ())
    (completedUnix : Nat) :
    c.validateAgainst lock project.name project.version buildDir = .ok () ↔
      c.schema = BUILD_COMPLETION_SCHEMA ∧ Text.trim c.intent.name ≠ "" ∧
        validateRendererBindings [] c.rendererReports = .ok () ∧
        SameConfiguration c (fromLock lock project buildDir c.intent completedUnix) := by
  simp only [validateAgainst, except_bind_ok, refuseIf_ok, not_not, houtputs, true_and,
    exists_const, not_or]
  constructor
  · rintro ⟨hschema, htarget, ⟨hname, hversion⟩, -, hruntime, hcompiler, hgenerator, hbuildDir,
      hintent, hbindings⟩
    exact ⟨hschema, hintent, hbindings, {
      target := htarget
      project := projectIdentity_ext hname hversion
      runtime := hruntime
      compiler := hcompiler
      generator := hgenerator
      buildDir := hbuildDir
      intent := rfl }⟩
  · rintro ⟨hschema, hintent, hbindings, h⟩
    have hproject : c.project = project := h.project
    exact ⟨hschema, h.target, ⟨by rw [hproject], by rw [hproject]⟩, fun hdiffers =>
      hdiffers.1 h.runtime, h.runtime, h.compiler, h.generator, h.buildDir, hintent, hbindings⟩

end BuildCompletion

/-! ## Test records -/

/-- The counts of the members add up within 32 bits. -/
theorem attributedTests_ok {sum attributed : Nat} {members : List (String × Nat)}
    (hsum : sum < 2 ^ 32) (h : attributedTests sum members = .ok attributed) :
    attributed = sum + (members.map (·.2)).sum ∧ attributed < 2 ^ 32 := by
  induction members generalizing sum with
  | nil =>
    cases h
    exact ⟨rfl, hsum⟩
  | cons member rest ih =>
    obtain ⟨key, count⟩ := member
    unfold attributedTests at h
    split_ifs at h with hfits
    obtain ⟨heq, hlt⟩ := ih hfits h
    refine ⟨?_, hlt⟩
    rw [heq, List.map_cons, List.sum_cons, Nat.add_assoc]

namespace TestCompletion

/-- The identity a test record repeats is that of a build, and so is the fingerprint it binds. -/
structure Records (codec : Codec) (t : TestCompletion) (b : BuildCompletion) : Prop where
  target : t.target = b.target
  project : t.project = b.project
  runtime : t.runtime = b.runtime
  compiler : t.compiler = b.compiler
  generator : t.generator = b.generator
  buildDir : t.buildDir = b.buildDir
  buildFingerprint : t.buildFingerprint = b.fingerprint codec

/-- What an accepted test record says about the build. -/
structure Bound (codec : Codec) (t : TestCompletion) (b : BuildCompletion) : Prop where
  target : t.target = b.target
  fingerprint : t.buildFingerprint = b.fingerprint codec
  /-- Made for some build, it repeats the identity of this one. -/
  recorded : ∀ b', t.Records codec b' → t.project = b.project ∧ t.runtime = b.runtime ∧
    t.compiler.fingerprint = b.compiler.fingerprint ∧ t.generator = b.generator ∧
    t.buildDir = b.buildDir
  total : 0 < t.totals.total
  failed : t.totals.failed = 0
  /-- The counts of the members add up to no more than the total, in 32 bits. -/
  members : (t.members.map (·.2)).sum ≤ t.totals.total
  fits : (t.members.map (·.2)).sum < 2 ^ 32

theorem bound_of_accepted {codec : Codec} (hsha : Function.Injective codec.sha256)
    {t : TestCompletion} {b : BuildCompletion} (h : t.validateAgainst codec b = .ok ()) :
    t.Bound codec b := by
  simp only [validateAgainst, validateMemberTestCounts, except_bind_ok, refuseIf_ok, not_not,
    not_lt] at h
  obtain ⟨⟨⟩, -, ⟨⟩, htarget, ⟨⟩, hfingerprint, ⟨⟩, ⟨attributed, hattributed, ⟨⟩, hbound, -⟩, ⟨⟩,
    hfailed, ⟨⟩, htotal, -⟩ := h
  obtain ⟨hsum, hfits⟩ := attributedTests_ok (by decide) hattributed
  rw [Nat.zero_add] at hsum
  exact {
    target := htarget
    fingerprint := hfingerprint
    recorded := by
      intro b' hrecords
      have hsame := (BuildCompletion.fingerprint_eq_iff hsha).mp
        (hrecords.buildFingerprint.symm.trans hfingerprint)
      refine ⟨hrecords.project.trans hsame.project, hrecords.runtime.trans hsame.runtime, ?_,
        hrecords.generator.trans hsame.generator, hrecords.buildDir.trans hsame.buildDir⟩
      rw [hrecords.compiler]
      exact hsame.compiler
    total := Nat.pos_of_ne_zero htotal
    failed := Nat.le_zero.mp hfailed
    members := hsum ▸ hbound
    fits := hsum ▸ hfits }

end TestCompletion

/-- An accepted test record is bound to the build; a build record with well-formed outputs is
accepted when its schema, intent and reports are, and it has the fingerprint of the lock, the
project, the directory and its own intent. -/
theorem completions_bind {codec : Codec} (hsha : Function.Injective codec.sha256) :
    (∀ (t : TestCompletion) (b : BuildCompletion), t.validateAgainst codec b = .ok () →
      t.Bound codec b) ∧
    ∀ (lock : TargetLock) (project : BuildProjectIdentity) (buildDir : String)
      (completedUnix : Nat) (c : BuildCompletion), validateOutputs [] c.outputs = .ok () →
      (c.validateAgainst lock project.name project.version buildDir = .ok () ↔
        c.schema = BUILD_COMPLETION_SCHEMA ∧ Text.trim c.intent.name ≠ "" ∧
          validateRendererBindings [] c.rendererReports = .ok () ∧
          c.fingerprint codec =
            (BuildCompletion.fromLock lock project buildDir c.intent completedUnix).fingerprint
              codec) := by
  refine ⟨fun t b => TestCompletion.bound_of_accepted hsha, ?_⟩
  intro lock project buildDir completedUnix c houtputs
  rw [BuildCompletion.validateAgainst_iff houtputs completedUnix,
    BuildCompletion.fingerprint_eq_iff hsha]

/-! ## A substituted runtime -/

namespace Bound.Sample

def project : BuildProjectIdentity := ⟨"toy", "1.0.0"⟩

def lock : TargetLock where
  target := "linux"
  runtime := ⟨"rt", "sha256:feed"⟩
  generator := "Ninja"
  compiler := ⟨"auto", none, none, none, none⟩

def build : BuildCompletion := .fromLock lock project "build/linux" ⟨"default", []⟩ 10

/-- SHA-256 on the material of the sample, without collisions elsewhere. -/
def codec : Codec where
  sha256 := Equiv.swap (jsonBytes build.material) (bytesOfHex
    "902f6a7621cc11b9f1cb081cedfe0463c6343cd92c127d3e2d9d54098eb61de0".toList)
  parse _ := none

theorem injective_sha256 : Function.Injective codec.sha256 := Equiv.injective _

def tested : TestCompletion := .new codec build "Release" ⟨3, 3, 0⟩ 20

/-- The record of the same run with the runtime of another build. -/
def substituted : TestCompletion :=
  { tested with runtime := ⟨"other", "sha256:beef"⟩, totals := ⟨3, 4, 0⟩ }

/-- The same configuration under another schema. -/
def foreign : BuildCompletion := { build with schema := "openstrata.build-completion/v2" }

/-- A record without members and reports is accepted by its schema, target, fingerprint and
totals. -/
theorem accepted {t : TestCompletion} {b : BuildCompletion}
    (hschema : t.schema = TEST_COMPLETION_SCHEMA) (htarget : t.target = b.target)
    (hfingerprint : t.buildFingerprint = b.fingerprint codec) (hmembers : t.members = [])
    (hreports : t.rendererReports = []) (hfailed : t.totals.failed = 0)
    (htotal : t.totals.total ≠ 0) : t.validateAgainst codec b = .ok () := by
  simp only [TestCompletion.validateAgainst, validateMemberTestCounts, except_bind_ok, refuseIf_ok,
    not_not, not_lt, hmembers, hreports]
  exact ⟨(), hschema, (), htarget, (), hfingerprint, (), ⟨0, rfl, (), Nat.zero_le _, rfl⟩, (),
    by rw [hfailed], (), htotal, rfl⟩

end Bound.Sample

open Bound.Sample in
theorem completions_bind_sample :
    tested.validateAgainst codec build = .ok () ∧ tested.Bound codec build ∧
      build.validateAgainst lock "toy" "1.0.0" "build/linux" = .ok () := by
  have hbind := completions_bind injective_sha256
  have haccepted : tested.validateAgainst codec build = .ok () :=
    accepted rfl rfl rfl rfl rfl rfl (by decide)
  exact ⟨haccepted, hbind.1 tested build haccepted,
    (hbind.2 lock project "build/linux" 10 build rfl).mpr ⟨rfl, by decide +kernel, rfl, rfl⟩⟩

open Bound.Sample in
/-- A test record with the fingerprint of the build is accepted though it names another runtime and
more passed tests than it ran; a build record of another schema has the fingerprint of the lock and
is refused. -/
theorem substituted_runtime_accepted :
    (substituted.validateAgainst codec build = .ok () ∧ substituted.runtime ≠ build.runtime ∧
      substituted.totals.total < substituted.totals.passed) ∧
    (validateOutputs [] foreign.outputs = .ok () ∧
      foreign.fingerprint codec =
        (BuildCompletion.fromLock lock project "build/linux" foreign.intent 10).fingerprint codec ∧
      foreign.validateAgainst lock "toy" "1.0.0" "build/linux" ≠ .ok ()) := by
  refine ⟨⟨accepted rfl rfl rfl rfl rfl rfl (by decide), by decide, by decide⟩, rfl, rfl, ?_⟩
  intro h
  have hschema := ((@BuildCompletion.validateAgainst_iff foreign lock project "build/linux" rfl
    10).mp h).1
  revert hschema
  decide

end OpenStrata
