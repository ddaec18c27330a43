import SchemaLayout.Proofs.Schema.Inheritance

/-!
# Features that are fixed

The row of an edition has features that are fixed, and others that files may override. A fixed one is what the
elements of a file inherit like any other default, and what is written on them overrides it like any other. So all
elements of a file have the value that is fixed exactly if nothing that is written on one of them sets another value
(`hasThroughout_iff`).
-/

namespace SchemaLayout

/-! ## Rows -/

/-- The row has the value among its `fixed` features, and none among its `overridable` ones. -/
def DefaultsRow.Fixes (row : DefaultsRow) (feature : NamedFeature) (value : feature.Value) : Prop :=
  feature.written row.fixed = some value ∧ feature.written row.overridable = none

/-- What a row `Fixes` is among its `features`. -/
theorem DefaultsRow.Fixes.written_features {row : DefaultsRow} {feature : NamedFeature} {value : feature.Value}
    (h : row.Fixes feature value) (hfeature : feature ∈ NamedFeature.all) :
    feature.written row.features = some value := by
  rw [DefaultsRow.features, NamedFeature.written_merge hfeature, h.2, h.1]
  rfl

namespace Schema

variable {config : Config} {files : List FileDecl} {schema : Schema} {top : FileDecl}

/-! ## What is written in a file -/

/-- What holds of all `written` sets holds of all sets of a scope. -/
theorem HasScope.forall_mem (P : FeatureSet → Prop)
    (hwritten : ∀ element sets, schema.HasScope files top element sets → ∀ set ∈ element.written, P set)
    {element : Element} {sets : List FeatureSet} (hscope : schema.HasScope files top element sets) :
    ∀ set ∈ sets, P set := by
  have happend {element : Element} {sets around : List FeatureSet} (hscope : schema.HasScope files top element sets)
      (haround : ∀ set ∈ around, P set) : ∀ set ∈ element.written.toList ++ around, P set := by
    simp only [List.forall_mem_append, Option.mem_toList]
    exact ⟨hwritten _ _ hscope, haround⟩
  induction hscope with
  | file hindex => exact fun set hset => hwritten _ _ (.file hindex) set (Option.mem_toList.1 hset)
  | inside houter hinner ih => exact happend (.inside houter hinner) ih
  | field hmessage hfield hreal ih => exact happend (.field hmessage hfield hreal) ih
  | member hmessage hfield hreal honeof ih =>
    have hof := hmessage.inside (oneofs_subset_inside (List.mem_map.2 ⟨_, honeof, rfl⟩))
    exact happend (.member hmessage hfield hreal honeof) (happend hof ih)

/-- A scope starts with the set that is `written` on its element, if there is one. -/
theorem HasScope.exists_around {element : Element} {sets : List FeatureSet}
    (hscope : schema.HasScope files top element sets) : ∃ around, sets = element.written.toList ++ around := by
  cases hscope with
  | file hindex => exact ⟨[], (List.append_nil _).symm⟩
  | inside houter hinner => exact ⟨_, rfl⟩
  | field hmessage hfield hreal => exact ⟨_, rfl⟩
  | member hmessage hfield hreal honeof => exact ⟨_, rfl⟩

/-- The file and all elements in it resolve the feature to the value. -/
def HasThroughout (schema : Schema) (files : List FileDecl) (top : FileDecl) (feature : NamedFeature)
    (value : feature.Value) : Prop :=
  ∀ element sets, schema.HasScope files top element sets →
    feature.resolved (schema.featuresOf element.handle) = value

/-- No set that is `written` on the file or on an element in it has another value. -/
def SetsNoOther (schema : Schema) (files : List FileDecl) (top : FileDecl) (feature : NamedFeature)
    (value : feature.Value) : Prop :=
  ∀ element sets, schema.HasScope files top element sets →
    ∀ set ∈ element.written, ∀ other, feature.written set = some other → other = value

/-- From edition 2023 on, what a row `Fixes` holds throughout a file iff the file `SetsNoOther`. -/
theorem hasThroughout_iff (h : ofFiles config files = .ok schema) (hlevel : top.level.isLegacy = false)
    {row : DefaultsRow} (hrow : config.defaults.rowFor? top.level = some row) {feature : NamedFeature}
    (hfeature : feature ∈ NamedFeature.all) {value : feature.Value} (hfixes : row.Fixes feature value) :
    schema.HasThroughout files top feature value ↔ schema.SetsNoOther files top feature value := by
  -- The innermost set that says something of the feature decides, and otherwise the value of the row.
  have hdecided {element : Element} {sets : List FeatureSet} (hscope : schema.HasScope files top element sets) :
      some (feature.resolved (schema.featuresOf element.handle)) = (sets.findSome? feature.written).or value := by
    obtain ⟨rules, found, hrules, _, hfound, hcomplete⟩ := hscope.exists_rules h
    cases hrow.symm.trans hfound
    rw [(hscope.inherits h hrules hcomplete hlevel).named feature hfeature, hfixes.written_features hfeature]
  constructor
  · intro hall element sets hscope set hset other hother
    obtain ⟨around, rfl⟩ := hscope.exists_around
    have hresult := hdecided hscope
    rw [hall element _ hscope, Option.mem_def.1 hset, Option.toList_some, List.singleton_append,
      List.findSome?_cons_of_isSome (by rw [hother]; rfl), hother] at hresult
    exact (Option.some.inj hresult).symm
  · intro hnone element sets hscope
    have hother := hscope.forall_mem (fun set => ∀ other, feature.written set = some other → other = value) hnone
    have hresult := hdecided hscope
    cases hfound : sets.findSome? feature.written with
    | none =>
      rw [hfound] at hresult
      exact Option.some.inj hresult
    | some other =>
      obtain ⟨set, hset, hwritten⟩ := List.exists_of_findSome?_eq_some hfound
      rw [hfound] at hresult
      exact (Option.some.inj hresult).trans (hother set hset other hwritten)

/-! ## A note whose text is not checked -/

/-- The text of a note, with `utf8Validation` set to `.none`. -/
def noteText : FieldDecl where
  name := "text"
  number := 1
  type := .string
  options := some { features := some { utf8Validation := some .none } }

/-- A note. -/
def noteDecl : MessageDecl where
  name := "Note"
  field := [noteText]

def noteFile : FileDecl where
  name := "note.proto"
  syntaxName := some "editions"
  edition := some .edition2023
  messageType := [noteDecl]

/-- Fixed from edition 2023 on: texts are checked, and names suit JSON. -/
def strictRow : DefaultsRow where
  edition := .edition2023
  fixed := { utf8Validation := some .verify, jsonFormat := some .allow }
  overridable := {
    fieldPresence := some .explicit, enumOpenness := some .openEnded, repeatedEncoding := some .packed
    messageEncoding := some .lengthPrefixed }

def strictConfig : Config where
  defaults := { rows := [strictRow], minimum := .edition2023, maximum := .edition2024 }

def strictRules : FeatureRules where
  edition := .edition2023
  defaults := {
    fieldPresence := .explicit, enumOpenness := .openEnded, repeatedEncoding := .packed
    utf8Validation := .verify, messageEncoding := .lengthPrefixed, jsonFormat := .allow }
  extensions := []

theorem ofTable_note :
    FeatureRules.ofTable noteFile.level strictConfig.defaults strictConfig.extensions = .ok strictRules :=
  rfl

theorem exists_ofFiles_note : ∃ schema, ofFiles strictConfig [noteFile] = .ok schema :=
  exists_ofFiles strictRules ofTable_note rfl (by cbv)

/-- The feature `utf8Validation`. -/
def textChecks : NamedFeature :=
  ⟨_, (·.utf8Validation), (·.utf8Validation)⟩

/-- The feature `jsonFormat`. -/
def jsonNames : NamedFeature :=
  ⟨_, (·.jsonFormat), (·.jsonFormat)⟩

/-- The scope of `noteText`. -/
theorem hasScope_noteText (h : ofFiles strictConfig [noteFile] = .ok schema) :
    schema.HasScope [noteFile] noteFile (.field ⟨0⟩ noteText) [{ utf8Validation := some .none }] := by
  obtain ⟨dependencies, hfiles⟩ := files_of_ofFiles ofTable_note h
  have hfile := @file_of_getElem? schema ⟨0⟩ _ (congrArg (·[0]?) hfiles)
  have hmessage := @message_of_getElem? schema ⟨0⟩ _ (congrArg (·[0]?) (messages_of_ofFiles ofTable_note h))
  have hfields := fields_of_ofFiles ofTable_note h (by cbv)
  have hreal : schema.realOneof? (schema.field ⟨0⟩) = none := by
    rw [realOneof?, Schema.field, ← Array.getElem?_toList, hfields]
    rfl
  have hnote : .message ⟨0⟩ noteDecl ∈ schema.inside (.file ⟨0⟩ noteFile) := by
    rw [Schema.inside, hfile]
    exact List.mem_cons_self
  have hmember : (⟨0⟩, noteText) ∈ (schema.message ⟨0⟩).fields.zip noteDecl.field := by
    rw [hmessage]
    exact List.mem_cons_self
  have htop : schema.HasScope [noteFile] noteFile (.file ⟨0⟩ noteFile) _ := .file rfl
  exact (htop.inside hnote).field hmember hreal

/-- The elements in `noteFile` are its message and its field. -/
theorem eq_of_hasScope_note {element : Element} {sets : List FeatureSet}
    (hscope : schema.HasScope [noteFile] noteFile element sets) :
    (∃ id, element = .file id noteFile) ∨ (∃ id, element = .message id noteDecl) ∨
      ∃ id, element = .field id noteText := by
  -- By induction on the scope: each element is in one of the three.
  induction hscope with
  | file hindex => exact Or.inl ⟨_, rfl⟩
  | inside houter hinner ih =>
    rcases ih with ⟨id, rfl⟩ | ⟨id, rfl⟩ | ⟨id, rfl⟩
    · simp only [Schema.inside, noteFile, List.zip_nil_right, List.map_nil, List.append_nil, List.mem_map,
        Prod.exists] at hinner
      obtain ⟨message, decl, hzip, rfl⟩ := hinner
      cases List.mem_singleton.1 (List.of_mem_zip hzip).2
      exact Or.inr (Or.inl ⟨message, rfl⟩)
    · simp [Schema.inside, noteDecl] at hinner
    · cases hinner
  | field hmessage hfield hreal ih | member hmessage hfield hreal honeof ih =>
    obtain ⟨_, hsame⟩ | ⟨_, hsame⟩ | ⟨_, hsame⟩ := ih
    · cases hsame
    · cases hsame
      cases List.mem_singleton.1 (List.of_mem_zip hfield).2
      exact Or.inr (Or.inr ⟨_, rfl⟩)
    · cases hsame

/-- `strictRow` fixes `utf8Validation`, and `noteText` has another value all the same. -/
theorem not_hasThroughout_note : ¬ ∀ (config : Config) (files : List FileDecl) (schema : Schema) (top : FileDecl)
    (row : DefaultsRow) (feature : NamedFeature) (value : feature.Value), ofFiles config files = .ok schema →
      top.level.isLegacy = false → config.defaults.rowFor? top.level = some row → feature ∈ NamedFeature.all →
        row.Fixes feature value → schema.HasThroughout files top feature value := by
  intro hall
  obtain ⟨schema, hschema⟩ := exists_ofFiles_note
  have hverified := hall strictConfig [noteFile] schema noteFile strictRow textChecks .verify hschema rfl rfl
    (by simp [NamedFeature.all, textChecks]) ⟨rfl, rfl⟩ _ _ (hasScope_noteText hschema)
  have hfields := fields_of_ofFiles ofTable_note hschema (by cbv)
  have hnone : (schema.field ⟨0⟩).features.utf8Validation = .none := by
    rw [Schema.field, ← Array.getElem?_toList, hfields]
    rfl
  have hverified : (schema.field ⟨0⟩).features.utf8Validation = .verify := hverified
  rw [hnone] at hverified
  cases hverified

/-- In `noteFile`, of the two features that `strictRow` fixes, only `jsonFormat` holds throughout. -/
theorem hasThroughout_iff_note : ∃ schema, ofFiles strictConfig [noteFile] = .ok schema ∧
    noteFile.level.isLegacy = false ∧ strictConfig.defaults.rowFor? noteFile.level = some strictRow ∧
      textChecks ∈ NamedFeature.all ∧ jsonNames ∈ NamedFeature.all ∧
        strictRow.Fixes textChecks .verify ∧ strictRow.Fixes jsonNames .allow ∧
          schema.HasThroughout [noteFile] noteFile jsonNames .allow ∧
            ¬ schema.HasThroughout [noteFile] noteFile textChecks .verify := by
  obtain ⟨schema, hschema⟩ := exists_ofFiles_note
  have hrow : strictConfig.defaults.rowFor? noteFile.level = some strictRow := rfl
  have htext : textChecks ∈ NamedFeature.all := by simp [NamedFeature.all, textChecks]
  have hjson : jsonNames ∈ NamedFeature.all := by simp [NamedFeature.all, jsonNames]
  have hfixesText : strictRow.Fixes textChecks .verify := ⟨rfl, rfl⟩
  have hfixesJson : strictRow.Fixes jsonNames .allow := ⟨rfl, rfl⟩
  refine ⟨schema, hschema, rfl, hrow, htext, hjson, hfixesText, hfixesJson, ?_, ?_⟩
  · rw [hasThroughout_iff hschema rfl hrow hjson hfixesJson]
    intro element sets hscope set hset other hother
    obtain ⟨_, rfl⟩ | ⟨_, rfl⟩ | ⟨_, rfl⟩ := eq_of_hasScope_note hscope
    · cases hset
    · cases hset
    · cases hset
      cases hother
  · rw [hasThroughout_iff hschema rfl hrow htext hfixesText]
    intro hnone
    have hother := hnone _ _ (hasScope_noteText hschema) _ rfl _ rfl
    cases hother

end Schema

end SchemaLayout
