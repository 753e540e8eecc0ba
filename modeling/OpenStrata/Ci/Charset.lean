import OpenStrata.Ci.Values
import OpenStrata.Core.Ascii
import OpenStrata.Core.Find
import OpenStrata.Core.Parts

/-!
# Characters of the values of accepted matrices

Validation holds every value that reaches a workflow to letters, digits and a few punctuation
marks, except for the names and the scripts of repository checks and for the bundle paths.

## Main definitions

* `IsValue`: a text of these characters

## Main results

* `isValue_includeEntry`: the values of an accepted cell's entry
* `generateSource_isSourceValue`: the values of the source workflow
-/

namespace OpenStrata.Ci

/-- A character of the values that reach a workflow. -/
def isValueChar (c : Char) : Bool := c.isAlphanum || " ._-/:@+".toList.contains c

/-- A text of the characters of values. -/
def IsValue (s : String) : Prop := ∀ c ∈ s.toList, isValueChar c

instance (s : String) : Decidable (IsValue s) :=
  List.decidableBAll (fun c : Char => isValueChar c = true) s.toList

variable {catalog : Catalog} {m : SupportMatrix} {cell : SupportCell} {s t : String}

/-! ## Character sets -/

section Charset

theorem isValue_append (hs : IsValue s) (ht : IsValue t) : IsValue (s ++ t) := by
  intro c hc
  rw [String.toList_append, List.mem_append] at hc
  exact hc.elim (hs c) (ht c)

theorem isValue_empty : IsValue "" := fun c hc => by cases hc

theorem isValue_join {parts : List String} {sep : String} (hsep : IsValue sep)
    (h : ∀ part ∈ parts, IsValue part) : IsValue (Text.join sep parts) := by
  induction parts with
  | nil => exact isValue_empty
  | cons part rest ih =>
    cases rest with
    | nil => exact h part List.mem_cons_self
    | cons next rest =>
      refine isValue_append (isValue_append (h part List.mem_cons_self) hsep) (ih ?_)
      exact fun part hpart => h part (List.mem_cons_of_mem _ hpart)

/-- A text of an ASCII character set whose members are characters of values. -/
theorem isValue_of_all {p : Char → Bool} (hp : Ascii.IsAscii p)
    (hin : ∀ n < 128, p (Char.ofNat n) → isValueChar (Char.ofNat n)) (h : Text.all p s) :
    IsValue s :=
  fun c hc => Ascii.imp hp hin (List.all_eq_true.mp h c hc)

theorem isAscii_isCiAtomChar : Ascii.IsAscii isCiAtomChar :=
  Ascii.isAscii_or (Ascii.isAscii_or (Ascii.isAscii_or Ascii.isAscii_isAlphanum
    (Ascii.isAscii_beq (by decide))) (Ascii.isAscii_beq (by decide))) (Ascii.isAscii_beq (by decide))

theorem isAscii_of_alphanum {p : Char → Bool} (cs : List Char) (hcs : ∀ c ∈ cs, c.toNat < 128)
    (h : ∀ c, p c → c.isAlphanum ∨ c ∈ cs) : Ascii.IsAscii p := by
  intro c hc
  rcases h c hc with h | h
  · exact Ascii.isAscii_isAlphanum c h
  · exact hcs c h

theorem isValue_ciAtomChars (h : Text.all isCiAtomChar s) : IsValue s :=
  isValue_of_all isAscii_isCiAtomChar (by decide) h

theorem isValue_ciAtom (h : isCiAtom s) : IsValue s :=
  isValue_ciAtomChars ((Bool.and_eq_true _ _).mp h).2

theorem isAlphanum_of_isDigit {c : Char} (h : c.isDigit) : c.isAlphanum := by
  rw [Char.isAlphanum, h, Bool.or_true]

theorem isAlphanum_of_isLower {c : Char} (h : c.isLower) : c.isAlphanum := by
  rw [Char.isAlphanum, Ascii.isAlpha_eq, h, Bool.or_true, Bool.true_or]

theorem isValue_kebab (h : isKebab s) : IsValue s := by
  refine isValue_of_all (isAscii_of_alphanum ['-']
    (Ascii.forall_mem_of_all (by decide)) ?_) (by decide)
    ((Bool.and_eq_true _ _).mp h).2
  intro c hc
  simp only [isKebabChar, Bool.or_eq_true, beq_iff_eq] at hc
  rcases hc with (hc | hc) | hc
  · exact .inl (isAlphanum_of_isLower hc)
  · exact .inl (isAlphanum_of_isDigit hc)
  · exact .inr (by simp [hc])

theorem isValue_digits (h : Text.all Char.isDigit s) : IsValue s :=
  isValue_of_all (isAscii_of_alphanum [] (Ascii.forall_mem_of_all (by decide))
    fun _ hc => .inl (isAlphanum_of_isDigit hc)) (by decide) h

theorem isAscii_isHexDigit : Ascii.IsAscii Text.isHexDigit := by
  intro c hc
  have hval : c.toNat = c.val.toNat := rfl
  have hf : ('f' : Char).val.toNat = 102 := rfl
  have hF : ('F' : Char).val.toNat = 70 := rfl
  have h9 : ('9' : Char).val.toNat = 57 := rfl
  simp only [Text.isHexDigit, Char.isDigit, Bool.or_eq_true, Bool.and_eq_true, decide_eq_true_eq,
    Char.le_def, UInt32.le_iff_toNat_le, ge_iff_le] at hc
  omega

theorem isValue_sha256Ref (h : isSha256Ref s) : IsValue s := by
  unfold isSha256Ref at h
  split at h
  · next hex hpfx =>
    rw [Text.stripPrefix_eq_some.mp hpfx]
    refine isValue_append (by decide) (isValue_of_all isAscii_isHexDigit (by decide) ?_)
    exact ((Bool.and_eq_true _ _).mp h).2
  · cases h

theorem isValue_majorMinor (h : isMajorMinor s) : IsValue s := by
  unfold isMajorMinor at h
  split at h
  · next major minor hsplit =>
    simp only [Bool.and_eq_true] at h
    rw [Text.splitOnce_eq (by decide) hsplit]
    exact isValue_append (isValue_append (isValue_digits h.1.2) (by decide)) (isValue_digits h.2)
  · cases h

theorem isValue_barePackage (h : isBarePackage s) : IsValue s := by
  refine isValue_of_all (isAscii_of_alphanum ['.', '_', '+', '-']
    (Ascii.forall_mem_of_all (by decide)) ?_) (by decide)
    ((Bool.and_eq_true _ _).mp h).2
  intro c hc
  simp only [isPackageChar, Bool.or_eq_true, beq_iff_eq, or_assoc] at hc
  rcases hc with hc | hc
  · exact .inl hc
  · exact .inr (by simpa using hc)

theorem isValue_package {manager : HostPackageManager} (h : manager.acceptsName s) : IsValue s := by
  cases manager with
  | apt => exact isValue_barePackage h
  | brew =>
    simp only [HostPackageManager.acceptsName] at h
    split at h
    · next formula version hsplit =>
      simp only [Bool.and_eq_true] at h
      rw [Text.splitOnce_eq (by decide) hsplit]
      exact isValue_append (isValue_append (isValue_barePackage h.1.1) (by decide))
        (isValue_barePackage h.1.2)
    · exact isValue_barePackage h

theorem isValue_registry (h : Text.all isRegistryChar s) : IsValue s := by
  refine isValue_of_all (isAscii_of_alphanum ['.', '-', ':']
    (Ascii.forall_mem_of_all (by decide)) ?_) (by decide) h
  intro c hc
  simp only [isRegistryChar, Bool.or_eq_true, beq_iff_eq, or_assoc] at hc
  rcases hc with hc | hc
  · exact .inl hc
  · exact .inr (by simpa using hc)

theorem isValue_repository (h : Text.all isRepositoryChar s) : IsValue s := by
  refine isValue_of_all (isAscii_of_alphanum ['.', '_', '-', '/']
    (Ascii.forall_mem_of_all (by decide)) ?_) (by decide) h
  intro c hc
  simp only [isRepositoryChar, Bool.or_eq_true, beq_iff_eq, or_assoc] at hc
  rcases hc with hc | hc | hc
  · exact .inl (isAlphanum_of_isLower hc)
  · exact .inl (isAlphanum_of_isDigit hc)
  · exact .inr (by simpa using hc)

theorem isValue_tag (h : isValidOciTag s) : IsValue s := by
  have hchars : ∀ c ∈ s.toList, c.isAlphanum ∨ c ∈ ['.', '_', '-'] := by
    unfold isValidOciTag at h
    split at h
    · cases h
    · next first rest hs =>
      simp only [Bool.and_eq_true, Bool.or_eq_true, List.all_eq_true, beq_iff_eq, or_assoc] at h
      intro c hc
      rw [hs] at hc
      rcases List.mem_cons.mp hc with rfl | hc
      · rcases h.1.2 with h | h
        · exact .inl h
        · exact .inr (by simp [h])
      · rcases h.2 c hc with h | h
        · exact .inl h
        · exact .inr (by simpa using h)
  intro c hc
  rcases hchars c hc with h | h
  · rw [isValueChar, h, Bool.true_or]
  · have hmarks : ∀ c ∈ ['.', '_', '-'], isValueChar c := Ascii.forall_mem_of_all (by decide)
    exact hmarks c h

/-- The parts of a reference to a registry, put together again. -/
theorem OciReference.isValue_of_parseRest {input rest : String} {reference : OciReference}
    (h : OciReference.parseRest input rest = .ok reference) : IsValue rest := by
  simp only [OciReference.parseRest, Result.bind_ok, Result.failIf_ok, Result.okOr_ok] at h
  obtain ⟨⟨head, digest⟩, hdigest, ⟨registry, repoAndTag⟩, hsplit, ⟨⟩, -, ⟨⟩, hregistry, ⟨⟩, -, ⟨⟩,
    hrepository, ⟨⟩, htag, -⟩ := h
  dsimp only at hsplit hregistry hrepository htag
  have hpath : IsValue repoAndTag := by
    unfold OciReference.splitTag at hrepository htag
    split at hrepository
    · next repo tag hrsplit =>
      rw [hrsplit] at htag
      dsimp only at htag
      split_ifs at hrepository htag
      · rw [Text.rsplitOnce_eq hrsplit]
        exact isValue_append (isValue_append (isValue_repository (by simpa using hrepository))
          (by decide)) (isValue_tag (by simpa using htag))
      · exact isValue_repository (by simpa using hrepository)
    · exact isValue_repository (by simpa using hrepository)
  have hhead : IsValue head := by
    rw [Text.splitOnce_eq (by decide) hsplit]
    exact isValue_append (isValue_append (isValue_registry (by simpa using hregistry)) (by decide))
      hpath
  unfold OciReference.parseDigest at hdigest
  split at hdigest
  · next head' dg hat =>
    split_ifs at hdigest with hsha
    cases hdigest
    rw [Text.splitOnce_eq (by decide) hat]
    exact isValue_append (isValue_append hhead (by decide)) (isValue_sha256Ref hsha)
  · cases hdigest
    exact hhead

theorem isValue_remote {name : String} {remote : RuntimeRemote}
    (h : validateRuntimeRemote name remote = .ok ()) : IsValue remote.uri := by
  unfold validateRuntimeRemote at h
  split at h
  · cases h
  · cases h
  · next reference hparse =>
    unfold RemoteReference.parse at hparse
    split at hparse
    · next rest hpfx =>
      obtain ⟨parsed, hrest, -⟩ := Result.bind_ok.mp hparse
      rw [Text.stripPrefix_eq_some.mp hpfx]
      exact isValue_append (by decide) (OciReference.isValue_of_parseRest hrest)
    · split at hparse
      · obtain ⟨parsed, -, heq⟩ := Result.bind_ok.mp hparse
        cases heq
      · cases hparse

end Charset

/-! ## Values of accepted matrices -/

theorem isValue_selector {selector : String} {required : OpenUsdRequirement}
    (h : resolveOpenusdRequirement catalog selector = .ok required)
    (hplatform : IsValue required.platform) : IsValue selector := by
  obtain ⟨os, arch, variant, rfl, hos, harch, hvariant⟩ := resolveOpenusdRequirement_ok h
  refine isValue_join (by decide) ?_
  intro part hpart
  simp only [List.mem_cons, List.not_mem_nil, or_false] at hpart
  rcases hpart with rfl | rfl | rfl | rfl
  · exact hplatform
  · have hwords : ∀ part ∈ ["linux", "macos", "windows"], IsValue part := by decide
    exact hwords _ hos
  · have hwords : ∀ part ∈ ["x86_64", "arm64"], IsValue part := by decide
    exact hwords _ harch
  · have hwords : ∀ part ∈ ["core", "headless", "gl", "standard", "vulkan", "metal"],
      IsValue part := by decide
    exact hwords _ hvariant

/-- Every name passed the installer's check when none was refused. -/
theorem accepts_of_firstRefused {manager : HostPackageManager} {names : List String}
    (h : ¬ (firstRefused manager names).isSome) : ∀ name ∈ names, manager.acceptsName name := by
  intro name hname
  by_contra hbad
  refine h (List.find?_isSome.mpr ⟨name, hname, by simpa using hbad⟩)

namespace CellAccepted

variable (h : CellAccepted catalog m cell)

include h

theorem runtimeRef : ∀ runtime, cell.runtimeArtifact = some runtime → isSha256Ref runtime := by
  intro runtime hsome
  have := h.runtime
  rw [validateRuntimeArtifact, hsome] at this
  simpa using Result.failIf_ok.mp this

theorem pluginRef : ∀ plugin, cell.pluginArtifact = some plugin → isSha256Ref plugin := by
  intro plugin hsome
  have := h.plugin
  rw [validatePluginArtifact, hsome] at this
  simpa using Result.failIf_ok.mp this

theorem atoms : isCiAtom cell.platform ∧ isCiAtom cell.profile ∧ cell.upToLevel ≤ MAX_LEVEL := by
  have := h.target
  simp only [validateTarget, Result.bind_ok, Result.failIf_ok, not_or, not_not] at this
  obtain ⟨⟨⟩, hatoms, hlevel⟩ := this
  refine ⟨hatoms.1, hatoms.2, ?_⟩
  unfold SupportCell.upToLevel
  cases hup : cell.upTo with
  | none => decide
  | some n =>
    rw [hup] at hlevel
    simpa using hlevel

theorem isValue_requireOpenusd : IsValue (cell.requireOpenusd.getD "") := by
  cases hsome : cell.requireOpenusd with
  | none => exact isValue_empty
  | some selector =>
    obtain ⟨⟨⟩, hselector, -⟩ := Result.bind_ok.mp h.openusd
    rw [validateOpenusdSelector, hsome] at hselector
    dsimp only at hselector
    split at hselector
    · next required hresolve =>
      have hplatform := (Result.failIf_ok.mp (Result.bind_ok.mp hselector).choose_spec.1)
      refine isValue_selector hresolve ?_
      rw [not_not.mp hplatform]
      exact isValue_ciAtom h.atoms.1
    · cases hselector

theorem isValue_version : IsValue (cell.requireOpenusdVersion.getD "") := by
  cases hsome : cell.requireOpenusdVersion with
  | none => exact isValue_empty
  | some version =>
    obtain ⟨⟨⟩, -, hversion⟩ := Result.bind_ok.mp h.openusd
    rw [Result.failIf_ok, hsome] at hversion
    exact isValue_majorMinor (by simpa using hversion)

theorem isValue_openusdFlags : IsValue (openusdFlags cell) := by
  have hselector := h.isValue_requireOpenusd
  have hversion := h.isValue_version
  unfold openusdFlags
  cases hs : cell.requireOpenusd with
  | none => exact isValue_empty
  | some selector =>
    rw [hs] at hselector
    refine isValue_append (isValue_append (by decide) hselector) ?_
    cases hv : cell.requireOpenusdVersion with
    | none => exact isValue_empty
    | some version =>
      rw [hv] at hversion
      exact isValue_append (by decide) hversion

theorem isValue_intentFlags : IsValue (intentFlags cell) := by
  unfold intentFlags
  cases hsome : cell.intent with
  | none => exact isValue_empty
  | some intent =>
    refine isValue_append (by decide) ?_
    have hkind := h.kind
    unfold validateKind at hkind
    split at hkind
    · simp only [validateWorkspace, hsome, Option.elim_some, Result.bind_ok, Result.failIf_ok]
        at hkind
      obtain ⟨⟨⟩, -, ⟨⟩, -, ⟨⟩, -, ⟨⟩, -, ⟨⟩, -, ⟨⟩, -, ⟨⟩, -, hintent⟩ := hkind
      exact isValue_ciAtom ((Bool.and_eq_true _ _).mp (not_not.mp hintent)).2
    · simp [hsome, Result.bind_ok, Result.failIf_ok] at hkind

theorem isValue_hostPython : IsValue (cell.hostPython.getD "") := by
  cases hsome : cell.hostPython with
  | none => exact isValue_empty
  | some python =>
    have hpython := h.hostPython
    rw [validateHostPython, hsome] at hpython
    obtain ⟨⟨⟩, hversion, -⟩ := Result.bind_ok.mp hpython
    exact isValue_majorMinor (not_not.mp (Result.failIf_ok.mp hversion))

theorem isValue_remoteUri : IsValue (cell.runtimeRemote.elim "" RuntimeRemote.uri) := by
  cases hsome : cell.runtimeRemote with
  | none => exact isValue_empty
  | some remote => exact isValue_remote (h.remote remote hsome)

theorem isValue_hostPackages : IsValue (aptPackages cell) ∧ IsValue (brewPackages cell) := by
  unfold aptPackages brewPackages
  cases hsome : cell.hostPackages with
  | none => exact ⟨isValue_empty, isValue_empty⟩
  | some packages =>
    have hpackages := h.hostPackages
    rw [validateHostPackages, hsome] at hpackages
    simp only [Option.elim_some, Result.bind_ok, Result.failIf_ok] at hpackages
    obtain ⟨⟨⟩, -, ⟨⟩, hapt, ⟨⟩, hbrew, -⟩ := hpackages
    exact ⟨isValue_join (by decide) fun name hname =>
        isValue_package (accepts_of_firstRefused hapt name hname),
      isValue_join (by decide) fun name hname =>
        isValue_package (accepts_of_firstRefused hbrew name hname)⟩

end CellAccepted

/-- A runner profile that a cell names is declared, and its name is kebab-case. -/
theorem Accepted.runnerName (h : Accepted catalog m) (hcell : cell ∈ m.cells) :
    ∀ runner, cell.runner = some runner → isKebab runner := by
  intro runner hsome
  have hrunner := (h.cells cell hcell).runner
  rw [SupportMatrix.validateCellRunner, hsome] at hrunner
  obtain ⟨⟨⟩, hknown, -⟩ := Result.bind_ok.mp hrunner
  obtain ⟨profile, hprofile⟩ := Option.ne_none_iff_exists'.mp
    (by simpa using Result.failIf_ok.mp hknown)
  have hvalid := h.runners _ (mem_of_lookup hprofile)
  obtain ⟨⟨⟩, hname, -⟩ := Result.bind_ok.mp hvalid
  exact not_not.mp (Result.failIf_ok.mp hname)

theorem isValue_profileLabels {name : String} {profile : RunnerProfile}
    (h : validateRunner name profile = .ok ()) : ∀ label ∈ profile.runsOn, IsValue label := by
  obtain ⟨⟨⟩, -, hkind⟩ := Result.bind_ok.mp h
  unfold RunnerProfile.runsOn
  cases hk : profile.kind with
  | githubHosted =>
    rw [hk] at hkind
    obtain ⟨⟨⟩, himage, -⟩ := Result.bind_ok.mp hkind
    rw [Result.failIf_ok] at himage
    intro label hlabel
    obtain rfl := List.mem_singleton.mp hlabel
    cases hsome : profile.image with
    | none => exact isValue_empty
    | some image =>
      rw [hsome] at himage
      exact isValue_ciAtom (by simpa using himage)
  | selfHosted =>
    rw [hk] at hkind
    simp only [Result.bind_ok, Result.failIf_ok] at hkind
    obtain ⟨⟨⟩, -, ⟨⟩, -, hlabels⟩ := hkind
    intro label hlabel
    refine isValue_ciAtom ?_
    by_contra hbad
    exact hlabels (List.any_eq_true.mpr ⟨label, hlabel, by simpa using hbad⟩)

theorem Accepted.isValue_runsOn (h : Accepted catalog m) (hcell : cell ∈ m.cells) :
    ∀ label ∈ m.runsOn cell, IsValue label := by
  unfold SupportMatrix.runsOn SupportMatrix.cellProfile
  cases hprofile : cell.runner.bind m.profile with
  | none =>
    show ∀ label ∈ cell.host.runsOn, IsValue label
    unfold HostSpec.runsOn
    split
    · intro label hlabel
      obtain rfl := List.mem_singleton.mp hlabel
      cases cell.host.os <;> decide
    · exact fun label hlabel => isValue_ciAtom ((h.cells cell hcell).labels label hlabel)
  | some profile =>
    obtain ⟨runner, -, hlookup⟩ := Option.bind_eq_some_iff.mp hprofile
    exact isValue_profileLabels (h.runners _ (mem_of_lookup hlookup))

/-! ## Entries -/

/-- The values of a list of fields, bundle paths apart, are made of the characters of values. -/
def Entry.IsValue (entry : Entry) : Prop :=
  ∀ field ∈ entry, field.key ≠ .bundle → ∀ s ∈ field.value.texts, Ci.IsValue s

theorem Entry.isValue_nil : Entry.IsValue [] := fun _ hfield => by cases hfield

theorem Entry.isValue_append {e f : Entry} (he : Entry.IsValue e) (hf : Entry.IsValue f) :
    Entry.IsValue (e ++ f) :=
  List.forall_mem_append.mpr ⟨he, hf⟩

theorem Entry.isValue_cons {field : EntryField} {entry : Entry}
    (hfield : ∀ s ∈ field.value.texts, Ci.IsValue s) (hentry : Entry.IsValue entry) :
    Entry.IsValue (field :: entry) :=
  List.forall_mem_cons.mpr ⟨fun _ => hfield, hentry⟩

theorem isValue_trust (trust : TrustLevel) : IsValue trust.asStr := by
  cases trust <;> decide

theorem isValue_verifyRung (cell : SupportCell) : IsValue cell.verifyRung.asStr := by
  cases cell.verifyRung <;> decide

section Entries

variable (h : CellAccepted catalog m cell)

include h

theorem isValue_runtimeKeys : (runtimeKeys m cell).IsValue := by
  unfold runtimeKeys
  cases hsome : cell.runtimeArtifact with
  | none => exact Entry.isValue_nil
  | some runtime =>
    have hevidence : IsValue (m.cellEvidence cell).asStr ∧
        IsValue (m.cellEvidence cell).verifyFlags := by
      cases m.cellEvidence cell <;> decide
    refine Entry.isValue_cons ?_ (Entry.isValue_cons ?_ (Entry.isValue_cons ?_ (Entry.isValue_cons
      ?_ (Entry.isValue_cons ?_ (Entry.isValue_cons ?_ (Entry.isValue_cons ?_ (Entry.isValue_cons ?_
        Entry.isValue_nil)))))))
    all_goals simp only [EntryValue.texts, List.forall_mem_singleton]
    · exact isValue_sha256Ref (h.runtimeRef runtime hsome)
    · exact h.isValue_requireOpenusd
    · exact h.isValue_version
    · exact h.isValue_openusdFlags
    · exact isValue_trust _
    · exact isValue_trust _
    · exact hevidence.1
    · exact hevidence.2

theorem isValue_upToLevel : IsValue (toString cell.upToLevel) := by
  have hlevel : cell.upToLevel ≤ 6 := h.atoms.2.2
  generalize cell.upToLevel = level at hlevel
  interval_cases level <;> decide

theorem isValue_prerequisites : (prerequisiteIncludeKeys cell).IsValue := by
  refine Entry.isValue_cons ?_ (Entry.isValue_cons ?_ (Entry.isValue_cons ?_ (Entry.isValue_cons ?_
    Entry.isValue_nil)))
  all_goals simp only [EntryValue.texts, List.forall_mem_singleton]
  · exact h.isValue_remoteUri
  · exact h.isValue_hostPython
  · exact h.isValue_hostPackages.1
  · exact h.isValue_hostPackages.2

theorem isValue_includeKeys (shape : JobShape) : (shape.includeKeys cell).IsValue := by
  cases shape with
  | bundle =>
    exact Entry.isValue_append (fun field hfield hkey => absurd (by
      obtain rfl := List.mem_singleton.mp hfield
      rfl) hkey) (isValue_prerequisites h)
  | workspace =>
    refine Entry.isValue_append (Entry.isValue_cons ?_ (Entry.isValue_cons ?_ (Entry.isValue_cons
      ?_ Entry.isValue_nil))) (isValue_prerequisites h)
    all_goals simp only [EntryValue.texts, List.forall_mem_singleton]
    · exact isValue_verifyRung cell
    · exact h.isValue_intentFlags
    · exact isValue_upToLevel h
  | workspaceRuntimeFree =>
    refine Entry.isValue_cons ?_ (Entry.isValue_cons ?_ (Entry.isValue_cons ?_ (Entry.isValue_cons
      ?_ Entry.isValue_nil)))
    all_goals simp only [EntryValue.texts, List.forall_mem_singleton]
    · exact isValue_verifyRung cell
    · exact h.isValue_intentFlags
    · exact h.isValue_hostPackages.1
    · exact h.isValue_hostPackages.2
  | workspaceGraph =>
    refine Entry.isValue_cons ?_ Entry.isValue_nil
    simp only [EntryValue.texts, List.forall_mem_singleton]
    exact isValue_verifyRung cell

end Entries

/-- The values of an accepted cell's entry, its bundle path apart. -/
theorem isValue_includeEntry (h : Accepted catalog m) (hcell : cell ∈ m.cells) {extra : Entry}
    (hextra : extra.IsValue) : (includeEntry m cell extra).IsValue := by
  have hvalid := h.cells cell hcell
  have hlane : IsValue cell.lane.asStr := by cases cell.lane <;> decide
  have hhosted : IsValue (toString (m.isHosted cell)) := by cases m.isHosted cell <;> decide
  unfold includeEntry
  refine Entry.isValue_append (Entry.isValue_append (Entry.isValue_append (Entry.isValue_append
    (Entry.isValue_append ?_ (isValue_runtimeKeys hvalid)) ?_) ?_) ?_) hextra
  · refine Entry.isValue_cons ?_ (Entry.isValue_cons ?_ Entry.isValue_nil)
    all_goals simp only [EntryValue.texts, List.forall_mem_singleton]
    · exact isValue_kebab hvalid.name
    · exact hlane
  · refine Entry.isValue_cons ?_ (Entry.isValue_cons ?_ Entry.isValue_nil)
    all_goals simp only [EntryValue.texts, List.forall_mem_singleton]
    · exact isValue_ciAtom hvalid.atoms.1
    · exact isValue_ciAtom hvalid.atoms.2.1
  · split
    · exact Entry.isValue_nil
    · refine Entry.isValue_cons ?_ Entry.isValue_nil
      simp only [EntryValue.texts, List.forall_mem_singleton]
      exact isValue_upToLevel hvalid
  · refine Entry.isValue_cons ?_ (Entry.isValue_cons ?_ (Entry.isValue_cons ?_ Entry.isValue_nil))
    · exact h.isValue_runsOn hcell
    · simp only [EntryValue.texts, List.forall_mem_singleton]
      exact hhosted
    · show ∀ s ∈ (runnerProfileValue cell).texts, IsValue s
      unfold runnerProfileValue
      cases hrunner : cell.runner with
      | none => exact List.forall_mem_singleton.mpr isValue_empty
      | some runner =>
        exact List.forall_mem_singleton.mpr (isValue_kebab (h.runnerName hcell runner hrunner))

/-! ## The source workflow -/

theorem isValue_of_alphanum {l : List Char} (hl : ∀ c ∈ l, isValueChar c)
    (h : ∀ c ∈ s.toList, c.isAlphanum ∨ c ∈ l) : IsValue s := by
  intro c hc
  rcases h c hc with halphanum | hmark
  · rw [isValueChar, halphanum, Bool.true_or]
  · exact hl c hmark

theorem isValue_bootstrap {bootstrap : Bootstrap} (h : validateBootstrap bootstrap = .ok ()) :
    IsValue bootstrap.ost.version ∧ IsValue bootstrap.ost.repository ∧
      ∀ pin ∈ bootstrap.ost.sha256, IsValue pin.1 ∧ IsValue pin.2 := by
  simp only [validateBootstrap, Result.bind_ok, Result.failIf_ok, not_not, not_or,
    Bool.and_eq_true, Result.forAll_ok] at h
  obtain ⟨⟨⟩, ⟨⟨-, hversion⟩, -⟩, ⟨⟩, ⟨-, hrepository⟩, hpins⟩ := h
  refine ⟨isValue_ciAtomChars hversion, fun c hc => ?_, fun pin hpin => ?_⟩
  · rcases Text.mem_split_of_mem (p := (· == '/')) hc with hslash | ⟨part, hpart, hin⟩
    · rw [beq_iff_eq.mp hslash]
      decide
    · exact isValue_ciAtom (List.all_eq_true.mp hrepository part hpart) c hin
  · obtain ⟨⟨⟩, ⟨-, htriple⟩, -, hhex⟩ := hpins pin hpin
    refine ⟨isValue_of_alphanum (l := ['_', '-']) (Ascii.forall_mem_of_all (by decide))
      fun c hc => ?_, isValue_of_all isAscii_isHexDigit (by decide) hhex⟩
    have hchar := List.all_eq_true.mp htriple c hc
    simpa [isTripleChar, or_assoc] using hchar

theorem isValue_repoPath {label : String} (h : validateRepoPath label s = .ok ()) : IsValue s := by
  rw [validateRepoPath, Result.failIf_ok, not_or, not_not] at h
  refine isValue_of_alphanum (l := ['/', '.', '_', '-']) (Ascii.forall_mem_of_all (by decide))
    fun c hc => ?_
  simpa [isRepoPathChar, or_assoc] using List.all_eq_true.mp h.1 c hc

/-- The field of an entry with the bundle path of its cell. -/
theorem value_of_bundle {shape : JobShape} {field : EntryField}
    (hfield : field ∈ includeEntry m cell (shape.includeKeys cell)) (hkey : field.key = .bundle) :
    field.value = .plain (cell.bundle.getD ".") := by
  have hsplit : includeEntry m cell (shape.includeKeys cell) =
      includeEntry m cell [] ++ shape.includeKeys cell := by
    simp only [includeEntry, List.append_assoc, List.append_nil]
  have hkeyed {entry : Entry} (hmem : field ∈ entry) : MatrixKey.bundle ∈ entry.keys :=
    hkey ▸ List.mem_map_of_mem hmem
  rw [hsplit, List.mem_append] at hfield
  rcases hfield with hbase | hextra
  · -- no other field of an entry has the key
    have hin := hkeyed hbase
    rw [keys_includeEntry] at hin
    exfalso
    revert hin
    cases cell.isRuntimeFree <;> cases cell.isWorkspace <;> decide
  · cases shape with
    | bundle =>
      rcases List.mem_cons.mp hextra with rfl | hprerequisite
      · rfl
      · have hnames : (prerequisiteIncludeKeys cell).keys =
          [.runtimeRemote, .hostPython, .hostPackagesApt, .hostPackagesBrew] := rfl
        have hname : MatrixKey.bundle ∈ (prerequisiteIncludeKeys cell).keys :=
          hkeyed hprerequisite
        rw [hnames] at hname
        exact absurd hname (by decide)
    | workspace => exact absurd (hkeyed hextra) (by rw [keys_includeKeys]; decide)
    | workspaceRuntimeFree => exact absurd (hkeyed hextra) (by rw [keys_includeKeys]; decide)
    | workspaceGraph => exact absurd (hkeyed hextra) (by rw [keys_includeKeys]; decide)

/-- A value that cannot leave the place where it is spliced in, a name or a script of a
repository check, or the bundle path of a cell. -/
def IsSourceValue (m : SupportMatrix) (piece : Piece) : Prop :=
  (∃ s, piece = .value s ∧ IsValue s) ∨
  (∃ check ∈ m.sourceChecks, piece = .value check.name ∨ piece = .script check.run) ∨
  ∃ cell ∈ m.sourceCells, piece = .value (cell.bundle.getD ".")

theorem sharedValues_isSourceValue (h : Accepted catalog m) :
    SharedValues (IsSourceValue m) m where
  version bootstrap hsome := .inl ⟨_, rfl, (isValue_bootstrap (h.bootstrap bootstrap hsome)).1⟩
  repository bootstrap hsome :=
    .inl ⟨_, rfl, (isValue_bootstrap (h.bootstrap bootstrap hsome)).2.1⟩
  pins bootstrap hsome pin hpin := by
    have hvalues := (isValue_bootstrap (h.bootstrap bootstrap hsome)).2.2 pin hpin
    exact ⟨.inl ⟨_, rfl, hvalues.1⟩, .inl ⟨_, rfl, hvalues.2⟩⟩
  policy policy hsome := .inl ⟨_, rfl, isValue_repoPath (h.policy policy hsome)⟩

/-- Whatever reaches the source workflow of an accepted matrix, other than through its repository
checks and bundle paths, is made of the characters of values. -/
theorem generateSource_isSourceValue (h : m.validate catalog = .ok ()) {mode : SourceWorkflowMode}
    {d : Document} (hdoc : generateSourceWithMode m mode = some d) :
    d.Carries (IsSourceValue m) := by
  have haccepted := SupportMatrix.accepted_of_validate h
  refine generateSource_carries hdoc (sharedValues_isSourceValue haccepted) (fun _ check hcheck => ?_)
    fun cell hcell field hfield s hs => ?_
  · exact ⟨.inr (.inl ⟨check, hcheck, .inl rfl⟩), .inr (.inl ⟨check, hcheck, .inr rfl⟩)⟩
  · have hin : cell ∈ m.cells := (List.mem_filter.mp hcell).1
    by_cases hkey : field.key = .bundle
    · rw [value_of_bundle hfield hkey] at hs
      obtain rfl := List.mem_singleton.mp hs
      exact .inr (.inr ⟨cell, hcell, rfl⟩)
    · have hextra := isValue_includeKeys (haccepted.cells cell hin) (jobShape cell)
      exact .inl ⟨s, rfl, isValue_includeEntry haccepted hin hextra field hfield hkey s hs⟩

theorem generateSource_plainGraph : ∃ d, generateSourceWithMode plainGraph .direct = some d ∧
    d.Carries (IsSourceValue plainGraph) :=
  ⟨_, rfl, generateSource_isSourceValue (by decide : plainGraph.validate (.ok []) = .ok ()) rfl⟩

end OpenStrata.Ci
