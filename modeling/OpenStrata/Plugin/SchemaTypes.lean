import OpenStrata.Lib.KeyMap
import OpenStrata.Plugin.PlugInfo

/-!
# Merging generated schema types

A schema generator writes a `plugInfo.json` of its own. A plugin that carries a schema has one
already, with types that are written by hand, so the generated types are merged into it. A type
of an earlier merge is told apart by its `schemaKind` and dropped first. Merging again therefore
replaces what was merged before, and nothing else.

## Main definitions

* `mergeSchemaTypes`: the merge of two documents
* `typesOf`, `handWritten`: the types of the first plugin, and those without a `schemaKind`
* `Replaces`: a document is another one but for its merged types

## Main results

* `mergeTypes_mergeTypes`: a second merge forgets the first
* `mergeTypes_replaces`: what a merge changes
* `mergeSchemaTypes_replaces`: the same for the documents as they are written
-/

namespace OpenStrata.Plugin

open JsonText

/-! ## The merge -/

/-- Why documents cannot be merged. -/
inductive MergeError
  | parse (side : String)
  | noGeneratedTypes
  | noPlugins
  deriving DecidableEq

def MergeError.message : MergeError → String
  | .parse side => side ++ " plugInfo.json is not valid JSON"
  | .noGeneratedTypes => "usdGenSchema output declared no schema Types to merge"
  | .noPlugins => "target plugInfo.json has no Plugins entry to merge into"

/-- `Option::ok_or`. -/
def MergeError.okOr {α : Type} (error : MergeError) : Option α → Except MergeError α
  | some a => .ok a
  | none => .error error

@[simp] theorem MergeError.okOr_ok {α : Type} {error : MergeError} {o : Option α} {a : α} :
    error.okOr o = .ok a ↔ o = some a := by
  cases o <;> simp [okOr]

/-- `Value::as_object`. -/
def fields? : Json → Option (List (String × Json))
  | .obj fields => some fields
  | _ => none

/-- A value with another value for one of its fields. -/
def setField (key : String) (value : Json) : Json → Json
  | .obj fields => .obj (KeyMap.insert key value fields)
  | other => other

/-- The types of all plugins of a generated document. -/
def generatedTypes (generated : Json) : List (String × Json) :=
  let plugins := ((generated.get? "Plugins").bind Json.asArr?).getD []
  plugins.foldl (fun types plugin =>
    KeyMap.insertAll (((plugin.pointer? ["Info", "Types"]).bind fields?).getD []) types) []

/-- A type without the marker of generated types. -/
def isHandWritten (type : String × Json) : Bool := (type.2.get? "schemaKind").isNone

/-- The part of `merge_schema_types` between parsing and printing. -/
def mergeTypes (schemaTypes : List (String × Json)) (target : Json) : Except MergeError Json := do
  let plugins ← MergeError.noPlugins.okOr ((target.get? "Plugins").bind Json.asArr?)
  let first ← MergeError.noPlugins.okOr plugins.head?
  let entry ← MergeError.noPlugins.okOr (fields? first)
  let info ← MergeError.noPlugins.okOr (fields? ((entry.lookup "Info").getD (.obj [])))
  let types ← MergeError.noPlugins.okOr (fields? ((info.lookup "Types").getD (.obj [])))
  let types := KeyMap.insertAll schemaTypes (types.filter isHandWritten)
  let info := KeyMap.insert "Types" (.obj types) info
  let entry := KeyMap.insert "Info" (.obj info) entry
  return setField "Plugins" (.arr (.obj entry :: plugins.tail)) target

/-- `merge_schema_types`, over `serde_json::from_str`. -/
def mergeSchemaTypes (fromStr : String → Option Json) (targetSrc generatedSrc : String) :
    Except MergeError String := do
  let target ← (MergeError.parse "target").okOr (parsePlugInfo fromStr targetSrc)
  let generated ← (MergeError.parse "generated").okOr (parsePlugInfo fromStr generatedSrc)
  let schemaTypes := generatedTypes generated
  if schemaTypes.isEmpty then .error .noGeneratedTypes
  else do
    let merged ← mergeTypes schemaTypes target
    return merged.renderPretty 0

/-! ## What a merge changes -/

/-- The value under `Plugins`, as the first entry and the others. -/
def entriesOf (doc : Json) : List Json := ((doc.get? "Plugins").bind Json.asArr?).getD []

def entryOf (doc : Json) : List (String × Json) := ((entriesOf doc).head?.bind fields?).getD []

def infoOf (doc : Json) : List (String × Json) :=
  (fields? (((entryOf doc).lookup "Info").getD (.obj []))).getD []

/-- The types of the first plugin. -/
def typesOf (doc : Json) : List (String × Json) :=
  (fields? (((infoOf doc).lookup "Types").getD (.obj []))).getD []

/-- The types of the first plugin that no merge has put there. -/
def handWritten (doc : Json) : List (String × Json) := (typesOf doc).filter isHandWritten

/-- A document is another one with these types beside the hand-written ones, and nothing else has
changed. -/
structure Replaces (target merged : Json) (schemaTypes : List (String × Json)) : Prop where
  types : ∀ name, (typesOf merged).lookup name =
    (schemaTypes.lookup name).or ((handWritten target).lookup name)
  info : ∀ key, key ≠ "Types" → (infoOf merged).lookup key = (infoOf target).lookup key
  entry : ∀ key, key ≠ "Info" → (entryOf merged).lookup key = (entryOf target).lookup key
  others : (entriesOf merged).tail = (entriesOf target).tail
  top : ∀ key, key ≠ "Plugins" → merged.get? key = target.get? key

/-- The documents that have a type map to merge into, and their parts. -/
structure Mergeable (doc : Json) (top entry info types : List (String × Json))
    (others : List Json) : Prop where
  doc : doc = .obj top
  plugins : top.lookup "Plugins" = some (.arr (.obj entry :: others))
  hinfo : fields? ((entry.lookup "Info").getD (.obj [])) = some info
  htypes : fields? ((info.lookup "Types").getD (.obj [])) = some types

section Merge

variable {target merged : Json} {schemaTypes schemaTypes' top entry info types : List (String × Json)}
  {others : List Json}

theorem fields?_eq_some {v : Json} {fields : List (String × Json)} :
    fields? v = some fields ↔ v = .obj fields := by
  cases v <;> simp [fields?]

/-- The merge of a document with these parts. -/
def mergedWith (schemaTypes top entry info types : List (String × Json)) (others : List Json) :
    Json :=
  .obj (KeyMap.insert "Plugins" (.arr (.obj (KeyMap.insert "Info" (.obj (KeyMap.insert "Types"
    (.obj (KeyMap.insertAll schemaTypes (types.filter isHandWritten))) info)) entry) :: others)) top)

theorem MergeError.bind_ok {α β : Type} {x : Except MergeError α} {f : α → Except MergeError β} {b : β} :
    (x >>= f) = .ok b ↔ ∃ a, x = .ok a ∧ f a = .ok b := by
  cases x with
  | error e => simp [bind, Except.bind]
  | ok a => simp [bind, Except.bind]

theorem mergeTypes_ok : mergeTypes schemaTypes target = .ok merged ↔
    ∃ top entry info types others, Mergeable target top entry info types others ∧
      merged = mergedWith schemaTypes top entry info types others := by
  simp only [mergeTypes, MergeError.bind_ok, MergeError.okOr_ok, fields?_eq_some]
  constructor
  · rintro ⟨plugins, hplugins, first, hfirst, entry, rfl, info, hinfo, types, htypes, hmerged⟩
    cases target with
    | obj top =>
      obtain ⟨plugins', hlookup, harr⟩ := Option.bind_eq_some_iff.mp hplugins
      obtain ⟨others, rfl⟩ : ∃ others, plugins = .obj entry :: others := by
        cases plugins with
        | nil => cases hfirst
        | cons first others => exact ⟨others, by rw [Option.some.inj hfirst]⟩
      cases plugins' <;> cases harr
      exact ⟨top, entry, info, types, others, ⟨rfl, hlookup, fields?_eq_some.mpr hinfo,
        fields?_eq_some.mpr htypes⟩, (Except.ok.inj hmerged).symm⟩
    | _ => cases hplugins
  · rintro ⟨top, entry, info, types, others, ⟨rfl, hplugins, hinfo, htypes⟩, rfl⟩
    refine ⟨.obj entry :: others, ?_, .obj entry, rfl, entry, rfl, info, fields?_eq_some.mp hinfo,
      types, fields?_eq_some.mp htypes, rfl⟩
    rw [Json.get?, hplugins]
    rfl

theorem Mergeable.mergeTypes (h : Mergeable target top entry info types others) :
    mergeTypes schemaTypes target = .ok (mergedWith schemaTypes top entry info types others) :=
  mergeTypes_ok.mpr ⟨_, _, _, _, _, h, rfl⟩

theorem Mergeable.entriesOf (h : Mergeable target top entry info types others) :
    entriesOf target = .obj entry :: others := by
  rw [Plugin.entriesOf, h.doc, Json.get?, h.plugins]
  rfl

theorem Mergeable.entryOf (h : Mergeable target top entry info types others) :
    entryOf target = entry := by
  rw [Plugin.entryOf, h.entriesOf]
  rfl

theorem Mergeable.infoOf (h : Mergeable target top entry info types others) :
    infoOf target = info := by
  rw [Plugin.infoOf, h.entryOf, h.hinfo, Option.getD_some]

theorem Mergeable.typesOf (h : Mergeable target top entry info types others) :
    typesOf target = types := by
  rw [Plugin.typesOf, h.infoOf, h.htypes, Option.getD_some]

/-- A merged document can be merged into again. -/
theorem mergeable_mergedWith (schemaTypes top entry info types : List (String × Json))
    (others : List Json) : ∃ top' entry' info', Mergeable (mergedWith schemaTypes top entry info types others) top' entry'
      info' (KeyMap.insertAll schemaTypes (types.filter isHandWritten)) others ∧
      top' = KeyMap.insert "Plugins" (.arr (.obj entry' :: others)) top ∧
      entry' = KeyMap.insert "Info" (.obj info') entry ∧
      info' = KeyMap.insert "Types"
        (.obj (KeyMap.insertAll schemaTypes (types.filter isHandWritten))) info := by
  refine ⟨_, _, _, ⟨rfl, ?_, ?_, ?_⟩, rfl, rfl, rfl⟩
  · rw [KeyMap.lookup_insert, if_pos rfl]
  · rw [KeyMap.lookup_insert, if_pos rfl]
    rfl
  · rw [KeyMap.lookup_insert, if_pos rfl]
    rfl

/-- The generated types are told apart from those of the document: each has the marker, and none
has the name of a hand-written one. -/
structure Apart (schemaTypes : List (String × Json)) (target : Json) : Prop where
  marked : ∀ type ∈ schemaTypes, (type.2.get? "schemaKind").isSome
  disjoint : ∀ type ∈ schemaTypes, type.1 ∉ (handWritten target).map Prod.fst

/-- A merge leaves the hand-written types as they are. -/
theorem Apart.filter (hapart : Apart schemaTypes target) :
    (KeyMap.insertAll schemaTypes (handWritten target)).filter isHandWritten =
      handWritten target := by
  rw [KeyMap.filter_insertAll]
  · exact List.filter_eq_self.mpr fun type htype => List.of_mem_filter htype
  · intro type htype
    simpa [isHandWritten] using hapart.marked type htype
  · intro type htype v hv
    exact absurd (List.mem_map_of_mem hv) (hapart.disjoint type htype)

/-- A second merge forgets the first. -/
theorem mergeTypes_mergeTypes (hapart : Apart schemaTypes target)
    (h : mergeTypes schemaTypes target = .ok merged) :
    mergeTypes schemaTypes' merged = mergeTypes schemaTypes' target := by
  obtain ⟨top, entry, info, types, others, htarget, rfl⟩ := mergeTypes_ok.mp h
  obtain ⟨top', entry', info', hmerged, rfl, rfl, rfl⟩ := mergeable_mergedWith schemaTypes top entry info types others
  have hfilter := hapart.filter
  rw [handWritten, htarget.typesOf] at hfilter
  rw [hmerged.mergeTypes, htarget.mergeTypes, mergedWith, mergedWith, hfilter,
    KeyMap.insert_insert, KeyMap.insert_insert, KeyMap.insert_insert]

/-- What a merge changes. -/
theorem mergeTypes_replaces (hordered : KeyMap.Ordered schemaTypes)
    (h : mergeTypes schemaTypes target = .ok merged) : Replaces target merged schemaTypes := by
  obtain ⟨top, entry, info, types, others, htarget, rfl⟩ := mergeTypes_ok.mp h
  obtain ⟨top', entry', info', hmerged, htop, hentry, hinfo⟩ :=
    mergeable_mergedWith schemaTypes top entry info types others
  constructor
  · intro name
    rw [hmerged.typesOf, handWritten, htarget.typesOf, KeyMap.lookup_insertAll hordered]
  · intro key hkey
    rw [hmerged.infoOf, htarget.infoOf, hinfo, KeyMap.lookup_insert, if_neg hkey]
  · intro key hkey
    rw [hmerged.entryOf, htarget.entryOf, hentry, KeyMap.lookup_insert, if_neg hkey]
  · rw [hmerged.entriesOf, htarget.entriesOf, List.tail_cons, List.tail_cons]
  · intro key hkey
    rw [hmerged.doc, htarget.doc, htop, Json.get?, Json.get?, KeyMap.lookup_insert, if_neg hkey]

theorem ordered_generatedTypes (generated : Json) : KeyMap.Ordered (generatedTypes generated) := by
  have hfold (plugins : List Json) (types : List (String × Json)) (h : KeyMap.Ordered types) :
      KeyMap.Ordered (plugins.foldl (fun types plugin => KeyMap.insertAll
        (((plugin.pointer? ["Info", "Types"]).bind fields?).getD []) types) types) := by
    induction plugins generalizing types with
    | nil => exact h
    | cons plugin plugins ih => exact ih _ h.insertAll
  exact hfold _ _ .nil

/-! ## Documents as they are written -/

/-- The values of these fields have texts. -/
def PrettyFields (fields : List (String × Json)) : Prop := ∀ field ∈ fields, Pretty field.2

theorem PrettyFields.insert {key : String} {value : Json} (h : PrettyFields types)
    (hvalue : Pretty value) : PrettyFields (KeyMap.insert key value types) := by
  intro field hfield
  rcases KeyMap.mem_insert hfield with rfl | hfield
  · exact hvalue
  · exact h field hfield

theorem PrettyFields.insertAll (h : PrettyFields types) (hschema : PrettyFields schemaTypes) :
    PrettyFields (KeyMap.insertAll schemaTypes types) := by
  intro type htype
  rcases KeyMap.mem_insertAll htype with htype | htype
  · exact hschema type htype
  · exact h type htype

theorem PrettyFields.of_fields? {v : Json} {fields : List (String × Json)} (h : Pretty v)
    (hfields : fields? v = some fields) : PrettyFields fields := by
  rw [fields?_eq_some] at hfields
  subst hfields
  intro field hfield
  exact h.of_container (.obj (.refl fields)) (List.mem_map_of_mem hfield)

theorem PrettyFields.lookup {fields : List (String × Json)} {key : String} {v : Json}
    (h : PrettyFields fields) (hv : fields.lookup key = some v) : Pretty v :=
  h (key, v) (KeyMap.mem_of_lookup hv)

theorem pretty_get? {v w : Json} {key : String} (h : Pretty v) (hw : v.get? key = some w) :
    Pretty w := by
  cases v with
  | obj fields => exact (PrettyFields.of_fields? h rfl).lookup hw
  | _ => cases hw

theorem pretty_emptyObject : Pretty (.obj []) := pretty_obj fun field hfield => by cases hfield

theorem PrettyFields.getD {fields inner : List (String × Json)} {key : String}
    (h : PrettyFields fields) (hinner : fields? ((fields.lookup key).getD (.obj [])) = some inner) :
    PrettyFields inner := by
  refine .of_fields? ?_ hinner
  cases hv : fields.lookup key with
  | none => exact pretty_emptyObject
  | some v => exact h.lookup hv

theorem pretty_of_mem_arr {items : List Json} {item : Json} (h : Pretty (.arr items))
    (hitem : item ∈ items) : Pretty item :=
  h.of_container (.arr items) (List.mem_map_of_mem hitem)

theorem pretty_generatedTypes {generated : Json} (h : Pretty generated) :
    PrettyFields (generatedTypes generated) := by
  have hfold (plugins : List Json) (hplugins : ∀ plugin ∈ plugins, Pretty plugin)
      (types : List (String × Json)) (htypes : PrettyFields types) :
      PrettyFields (plugins.foldl (fun types plugin => KeyMap.insertAll
        (((plugin.pointer? ["Info", "Types"]).bind fields?).getD []) types) types) := by
    induction plugins generalizing types with
    | nil => exact htypes
    | cons plugin plugins ih =>
      refine ih (fun p hp => hplugins p (List.mem_cons_of_mem _ hp)) _ (htypes.insertAll ?_)
      have hplugin := hplugins plugin List.mem_cons_self
      cases hpointer : plugin.pointer? ["Info", "Types"] with
      | none => exact fun _ h => by cases h
      | some v =>
        obtain ⟨info, hinfo, htypes⟩ := Option.bind_eq_some_iff.mp hpointer
        obtain ⟨w, hw, hv⟩ := Option.bind_eq_some_iff.mp htypes
        have hpretty : Pretty v := (Option.some.inj hv) ▸ pretty_get? (pretty_get? hplugin hinfo) hw
        show PrettyFields ((fields? v).getD [])
        cases hfields : fields? v with
        | none => exact fun _ h => by cases h
        | some fields => exact .of_fields? hpretty hfields
  refine hfold _ (fun plugin hplugin => ?_) _ fun _ h => by cases h
  cases hplugins : (generated.get? "Plugins").bind Json.asArr? with
  | none =>
    rw [hplugins] at hplugin
    cases hplugin
  | some plugins =>
    rw [hplugins] at hplugin
    obtain ⟨v, hv, harr⟩ := Option.bind_eq_some_iff.mp hplugins
    cases v <;> cases harr
    exact pretty_of_mem_arr (pretty_get? h hv) hplugin

theorem pretty_mergeTypes (htarget : Pretty target) (hschema : PrettyFields schemaTypes)
    (h : mergeTypes schemaTypes target = .ok merged) : Pretty merged := by
  obtain ⟨top, entry, info, types, others, ⟨rfl, hplugins, hinfo, htypes⟩, rfl⟩ :=
    mergeTypes_ok.mp h
  have htop : PrettyFields top := .of_fields? htarget rfl
  have harr := htop.lookup hplugins
  have hentry : PrettyFields entry := .of_fields? (pretty_of_mem_arr harr List.mem_cons_self) rfl
  have hinfo' : PrettyFields info := hentry.getD hinfo
  have htypes' : PrettyFields types := hinfo'.getD htypes
  have hkept : PrettyFields (types.filter isHandWritten) := fun type htype =>
    htypes' type (List.mem_of_mem_filter htype)
  refine pretty_obj (htop.insert (pretty_arr fun plugin hplugin => ?_))
  rcases List.mem_cons.mp hplugin with rfl | hplugin
  · exact pretty_obj (hentry.insert (pretty_obj (hinfo'.insert
      (pretty_obj (hkept.insertAll hschema)))))
  · exact pretty_of_mem_arr harr (List.mem_cons_of_mem _ hplugin)

end Merge

/-- The target document as a merge leaves it: the merged one is written over it. -/
def mergeFile (fromStr : String → Option Json) (file generatedSrc : String) :
    Except MergeError Unit × String :=
  match mergeSchemaTypes fromStr file generatedSrc with
  | .ok merged => (.ok (), merged)
  | .error error => (.error error, file)

/-- `serde_json::from_str` as far as it matters here: what it reads has a text. -/
def ReadsTexts (fromStr : String → Option Json) : Prop :=
  ∀ text v, fromStr text = some v → Pretty v

section Documents

variable {fromStr : String → Option Json} {targetSrc generatedSrc mergedSrc : String}
  {target generated merged : Json}

/-- The merge behind the target document. -/
theorem mergeSchemaTypes_eq (htarget : parsePlugInfo fromStr targetSrc = some target) :
    mergeSchemaTypes fromStr targetSrc generatedSrc =
      ((MergeError.parse "generated").okOr (parsePlugInfo fromStr generatedSrc)).bind fun generated =>
        if (generatedTypes generated).isEmpty then .error .noGeneratedTypes
        else (mergeTypes (generatedTypes generated) target).bind fun merged =>
          .ok (merged.renderPretty 0) := by
  rw [mergeSchemaTypes, htarget]
  rfl

theorem mergeSchemaTypes_ok (htarget : parsePlugInfo fromStr targetSrc = some target)
    (hgenerated : parsePlugInfo fromStr generatedSrc = some generated) :
    mergeSchemaTypes fromStr targetSrc generatedSrc = .ok mergedSrc ↔
      generatedTypes generated ≠ [] ∧ ∃ merged, mergeTypes (generatedTypes generated) target =
        .ok merged ∧ mergedSrc = merged.renderPretty 0 := by
  simp only [mergeSchemaTypes, MergeError.bind_ok, MergeError.okOr_ok]
  constructor
  · rintro ⟨target', htarget', generated', hgenerated', h⟩
    obtain rfl := Option.some.inj (htarget.symm.trans htarget')
    obtain rfl := Option.some.inj (hgenerated.symm.trans hgenerated')
    split at h
    · cases h
    · next hne =>
      obtain ⟨merged, hmerged, h⟩ := MergeError.bind_ok.mp h
      exact ⟨fun hnil => hne (by rw [hnil]; rfl), merged, hmerged, (Except.ok.inj h).symm⟩
  · rintro ⟨hne, merged, hmerged, rfl⟩
    refine ⟨target, htarget, generated, hgenerated, ?_⟩
    rw [if_neg (by simpa using hne), hmerged]
    rfl

/-- A second merge replaces the types of the first and nothing else, when the types of the first
are marked and have names of their own. -/
theorem mergeSchemaTypes_replaces (hreads : ReadsTexts fromStr) :
    (∀ targetSrc generatedSrc mergedSrc target generated,
      parsePlugInfo fromStr targetSrc = some target →
      parsePlugInfo fromStr generatedSrc = some generated →
      Apart (generatedTypes generated) target →
      mergeSchemaTypes fromStr targetSrc generatedSrc = .ok mergedSrc →
      -- the parser reads back the document that was printed
      (∀ merged, mergeTypes (generatedTypes generated) target = .ok merged →
        fromStr (merged.renderPretty 0) = some merged) →
      (∀ nextSrc, mergeSchemaTypes fromStr mergedSrc nextSrc =
        mergeSchemaTypes fromStr targetSrc nextSrc) ∧
      mergeSchemaTypes fromStr mergedSrc generatedSrc = .ok mergedSrc ∧
      ∃ merged, parsePlugInfo fromStr mergedSrc = some merged ∧
        Replaces target merged (generatedTypes generated) ∧
        ∀ name type, (handWritten target).lookup name = some type →
          (typesOf merged).lookup name = some type) ∧
    ∀ file generatedSrc error, (mergeFile fromStr file generatedSrc).1 = .error error →
      (mergeFile fromStr file generatedSrc).2 = file := by
  refine ⟨?_, ?_⟩
  · intro targetSrc generatedSrc mergedSrc target generated htarget hgenerated hapart h hread
    obtain ⟨hne, merged, hmerged, rfl⟩ := (mergeSchemaTypes_ok htarget hgenerated).mp h
    have hparsed : parsePlugInfo fromStr (merged.renderPretty 0) = some merged := by
      have hpretty : Pretty merged :=
        pretty_mergeTypes (hreads _ _ htarget) (pretty_generatedTypes (hreads _ _ hgenerated)) hmerged
      have hsame := stripJsonc_written (hpretty 0)
      rw [String.ofList_toList] at hsame
      rw [parsePlugInfo, hsame, hread merged hmerged]
    have hagain (nextSrc : String) : mergeSchemaTypes fromStr (merged.renderPretty 0) nextSrc =
        mergeSchemaTypes fromStr targetSrc nextSrc := by
      rw [mergeSchemaTypes_eq hparsed, mergeSchemaTypes_eq htarget]
      simp only [mergeTypes_mergeTypes hapart hmerged]
    have hreplaces := mergeTypes_replaces (ordered_generatedTypes generated) hmerged
    refine ⟨hagain, (hagain generatedSrc).trans h, merged, hparsed, hreplaces, ?_⟩
    intro name type htype
    have hname : (generatedTypes generated).lookup name = none := by
      rw [List.lookup_eq_none_iff]
      intro other hother
      have hkey := List.mem_map_of_mem (f := Prod.fst) (KeyMap.mem_of_lookup htype)
      simpa using fun heq : name = other.1 => hapart.disjoint other hother (heq ▸ hkey)
    rw [hreplaces.types, hname, htype, Option.none_or]
  · intro file generatedSrc error h
    unfold mergeFile at h ⊢
    split at h
    · cases h
    · rfl

end Documents

namespace SchemaTypes.Sample

/-- A document of one plugin with these types. -/
def document (types : List (String × Json)) : Json :=
  .obj [("Plugins", .arr [.obj [("Info", .obj [("Types", .obj types)])]])]

def generated : Json := document [("Prim", .obj [("schemaKind", .str "concrete")])]

def target : Json := document [("Toy", .obj [])]

def merged : Json := document [("Prim", .obj [("schemaKind", .str "concrete")]), ("Toy", .obj [])]

/-- A parser that reads the documents as they are printed. -/
def fromStr (text : String) : Option Json :=
  [target, generated, merged].find? fun doc => text = doc.renderPretty 0

theorem pretty_document {types : List (String × Json)} (h : ∀ type ∈ types, Pretty type.2) :
    Pretty (document types) := by
  refine pretty_obj ?_
  simp only [List.mem_singleton, forall_eq]
  refine pretty_arr ?_
  simp only [List.mem_singleton, forall_eq]
  refine pretty_obj ?_
  simp only [List.mem_singleton, forall_eq]
  refine pretty_obj ?_
  simpa using pretty_obj h

theorem pretty_type : Pretty (.obj [("schemaKind", .str "concrete")]) := by
  refine pretty_obj ?_
  simpa using pretty_str "concrete"

theorem pretty_sample {doc : Json} (h : doc ∈ [target, generated, merged]) : Pretty doc := by
  simp only [List.mem_cons, List.not_mem_nil, or_false] at h
  rcases h with rfl | rfl | rfl
  · exact pretty_document (by simpa using pretty_emptyObject)
  · exact pretty_document (by simpa using pretty_type)
  · exact pretty_document (by simpa using ⟨pretty_type, pretty_emptyObject⟩)

theorem readsTexts : ReadsTexts fromStr := by
  intro text doc h
  exact pretty_sample (List.mem_of_find?_eq_some h)

theorem parse_sample {doc : Json} (h : doc ∈ [target, generated, merged]) :
    parsePlugInfo fromStr (doc.renderPretty 0) = fromStr (doc.renderPretty 0) := by
  have hsame := stripJsonc_written (pretty_sample h 0)
  rw [String.ofList_toList] at hsame
  rw [parsePlugInfo, hsame]

theorem mergeTypes_sample : mergeTypes (generatedTypes generated) target = .ok merged := by rfl

end SchemaTypes.Sample

open SchemaTypes.Sample in
theorem mergeSchemaTypes_replaces_sample :
    mergeSchemaTypes fromStr (merged.renderPretty 0) (generated.renderPretty 0) =
      .ok (merged.renderPretty 0) ∧
    Replaces target merged (generatedTypes generated) := by
  have htarget : parsePlugInfo fromStr (target.renderPretty 0) = some target := by
    rw [parse_sample (by simp)]
    decide
  have hgenerated : parsePlugInfo fromStr (generated.renderPretty 0) = some generated := by
    rw [parse_sample (by simp)]
    decide
  have hapart : Apart (generatedTypes generated) target := ⟨by decide, by decide⟩
  obtain ⟨hreplaces, -⟩ := mergeSchemaTypes_replaces readsTexts
  have h := (mergeSchemaTypes_ok htarget hgenerated).mpr
    ⟨by decide, merged, mergeTypes_sample, rfl⟩
  have hread : fromStr (merged.renderPretty 0) = some merged := by decide
  obtain ⟨-, hagain, merged', hparsed, hchange, -⟩ :=
    hreplaces _ _ _ _ _ htarget hgenerated hapart h fun merged' hmerged' => by
      obtain rfl := Except.ok.inj (mergeTypes_sample.symm.trans hmerged')
      exact hread
  obtain rfl := Option.some.inj (((parse_sample (by simp)).trans hread).symm.trans hparsed)
  exact ⟨hagain, hchange⟩

end OpenStrata.Plugin
