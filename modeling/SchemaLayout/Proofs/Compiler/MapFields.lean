import SchemaLayout.Proofs.Analysis.CostRule
import SchemaLayout.Proofs.Compiler.Description
import SchemaLayout.Proofs.Layout.Required
import SchemaLayout.Proofs.Schema.LoneFields
import SchemaLayout.Proofs.Schema.Owners

/-!
# Fields of maps

The field of a map refers to a map entry, and there should be many of these. But linking looks only at what the field
refers to and not at its label, so a field that holds a single map entry counts as one of a map, too. Its record has
the mode of maps and a has-bit, and it costs what its entry costs. All three depend on the label of the declaration
alone (`treatsMaps_ofFiles`).
-/

namespace SchemaLayout

/-! ## Fields -/

namespace FieldNode

variable {field : FieldNode}

theorem cardinality_eq_map_iff : field.cardinality = .map ↔ field.isMap = true := by
  rw [cardinality]
  cases field.isMap <;> cases field.isRepeated <;> simp

theorem hasPresence_of_type_eq_message (h : field.type = .message) : field.hasPresence = !field.isRepeated := by
  rw [hasPresence, h]
  cases field.isRepeated <;> rfl

/-- `fieldCost` of a field that refers to `entry`: 1 if it is repeated, and else what `decide entry` says. -/
theorem fieldCost_of_messageType? {entry : MessageId} (h : field.messageType? = some entry)
    (decide : MessageId → Storage.Deciding Storage.Decision) :
    Storage.fieldCost decide field = if field.isRepeated then pure 1 else (·.fieldCost) <$> decide entry := by
  rw [Storage.fieldCost, h]
  cases field.isRepeated with
  | true => rfl
  | false => exact bind_pure_comp _ _

end FieldNode

namespace Linking

variable {context : Context} {draft : FieldDraft} {node : FieldNode}

/-- A message-like field that refers to a map entry is linked with `isMap`, even if it was a group. -/
theorem isMap_linkedType {type : FieldType} (h : type.isMessageLike = true) (container : Option MessageId)
    (entry : MessageId) : isMap context (linkedType context container (some (.message entry)) type)
      (some (.message entry)) = (context.message entry).isMapEntry := by
  rcases isMessageLike_eq_true_iff.1 h with rfl | rfl
  · rfl
  · simp only [linkedType]
    generalize (container.any fun id => (context.message id).isMapEntry) = inside
    cases hentry : (context.message entry).isMapEntry <;> cases inside <;> simp [isMap, hentry]

/-- A linked field has `isMap` exactly if its `messageType?` is a map entry. -/
theorem isMap_iff_of_field (h : field context draft = .ok node) :
    node.isMap = true ↔ ∃ entry, node.messageType? = some entry ∧ (context.message entry).isMapEntry = true := by
  obtain ⟨container, found, _, hfound, rfl⟩ := field_eq_ok_iff.1 h
  simp only [FieldNode.messageType?, linked]
  rcases target_cases hfound with ⟨_, _, id, rfl, _⟩ | ⟨hmessage, _, id, rfl, _⟩ | ⟨_, _, rfl⟩
  · simp [isMap]
  · simp [isMap_linkedType hmessage]
  · simp [isMap]

theorem isRepeated_of_field (h : field context draft = .ok node) : node.isRepeated = draft.node.isRepeated := by
  obtain ⟨_, _, _, _, rfl⟩ := field_eq_ok_iff.1 h
  rfl

end Linking

namespace Schema

variable {schema : Schema}

/-- Exactly the fields whose `messageType?` is a map entry have `isMap`. -/
def MarksMaps (schema : Schema) : Prop :=
  ∀ field ∈ schema.fields, field.isMap = true ↔
    ∃ entry, field.messageType? = some entry ∧ (schema.message entry).isMapEntry = true

theorem marksMaps_addDeclarations {next : Schema} {rules : FeatureRules} {decl : FileDecl}
    (hsound : schema.IsSound) (h : schema.MarksMaps) (hadd : schema.addDeclarations rules decl = .ok next) :
    next.MarksMaps := by
  obtain ⟨directory, dependencies, fields, methods, _, _, hfields, _, rfl⟩ := addDeclarations_eq_ok_iff.1 hadd
  generalize Numbering.file ⟨rules, ⟨schema.files.size⟩⟩ schema.counts decl = numbered at *
  have hpart := isPartOf_extend schema directory { numbered.1 with dependencies } numbered.2 fields methods
  intro field hfield
  rcases mem_append_list_iff.1 hfield with hold | hnew
  · -- Fields of earlier files refer to messages of earlier files, which keep their numbers.
    obtain ⟨index, hindex⟩ := Array.mem_iff_getElem?.1 hold
    rw [h field hold]
    refine exists_congr fun entry => and_congr_right fun hentry => ?_
    obtain ⟨message, hmessage, _⟩ := hsound.fields hindex entry hentry
    rw [message_of_getElem? hmessage, message_of_getElem? (hpart.messages hmessage)]
  · obtain ⟨draft, _, hlink⟩ := exists_mem_of_mapM hfields hnew
    exact Linking.isMap_iff_of_field hlink

/-- Every schema of files satisfies `MarksMaps`. -/
theorem marksMaps_ofFiles {config : Config} {files : List FileDecl} (h : ofFiles config files = .ok schema) :
    schema.MarksMaps := by
  have hempty : empty.IsSound ∧ empty.MarksMaps := ⟨isSound_empty, by simp [MarksMaps, empty]⟩
  refine (foldlM_preserves (P := fun schema => schema.IsSound ∧ schema.MarksMaps)
    (fun schema decl next hschema hnext => ?_) hempty h).2
  obtain ⟨rules, _, hadd⟩ := addFile_eq_ok_iff.1 hnext
  exact ⟨isSound_addDeclarations hschema.1 hadd, marksMaps_addDeclarations hschema.1 hschema.2 hadd⟩

/-- `isRepeated` says that the label of the declaration is `.repeated`. -/
theorem IsDeclaredAs.isRepeated_iff {id : FieldId} {decl : FieldDecl} (h : schema.IsDeclaredAs id decl) :
    (schema.field id).isRepeated = true ↔ decl.label = .repeated := by
  obtain ⟨context, declaredIn, scope, inherited, isExtension, oneof, realOneof, linking, field, hfield, hlink,
    _⟩ := h
  rw [field_of_getElem? hfield, Linking.isRepeated_of_field hlink]
  simp only [FieldNode.isRepeated, Numbering.field, Numbering.fieldLabel]
  split
  · next hrequired =>
    have hoptional : decl.label = .optional := by simpa using (Bool.and_eq_true_iff.1 hrequired).2
    simp [hoptional]
  · exact decide_eq_true_iff

/-! ## Records -/

/-- Outside of real oneofs, a record of type `.message` has presence `.none` exactly if its field is repeated.
-/
theorem TracksPresence.presence_eq_none_iff {id : MessageId} {plan : LayoutPlan} (h : schema.TracksPresence id plan)
    {entry : FieldNode × FieldRecord} (hentry : entry ∈ schema.tracked id plan) (htype : entry.1.type = .message)
    (honeof : schema.realOneof? entry.1 = none) : entry.2.presence = .none ↔ entry.1.isRepeated = true := by
  have hslot := h.slot entry hentry
  have hbit := h.hasBit entry hentry
  rw [FieldNode.hasPresence_of_type_eq_message htype] at hbit
  cases hpresence : entry.2.presence with
  | none => simpa [hpresence, honeof] using hbit
  | hasBit bit => simpa [hpresence, honeof] using hbit
  | oneofSlot offset => simp [hpresence, honeof] at hslot

/-- A record has no `.oneofSlot` exactly if its field is in no real oneof. -/
theorem TracksPresence.ne_oneofSlot_iff {id : MessageId} {plan : LayoutPlan} (h : schema.TracksPresence id plan)
    {entry : FieldNode × FieldRecord} (hentry : entry ∈ schema.tracked id plan) :
    (∀ offset, entry.2.presence ≠ .oneofSlot offset) ↔ schema.realOneof? entry.1 = none := by
  rw [← not_exists, h.slot entry hentry, Option.not_isSome_iff_eq_none]

section

variable {config : Config} {files : List FileDecl} (hfiles : ofFiles config files = .ok schema) {id : MessageId}
  (memo : Initialization.Memo) (target : Target)

/-- Records have the modes of their fields, from any memo. -/
theorem mode_of_mem_tracked {entry : FieldNode × FieldRecord}
    (h : entry ∈ schema.tracked id (((schema.layout id).run memo).1.plans.get target)) :
    entry.2.mode = entry.1.mode := by
  have hshapes : List.Forall₂ (fun field shape => FieldShape.mode shape = field.mode) (schema.fieldsByNumber id)
      ((schema.shapes id).run memo).1 := forall₂_run_mapM (fun _ _ _ => rfl) memo
  have hrecords := Placement.forall₂_records ((schema.shapes id).run memo).1
    (Placement.submessages ((schema.shapes id).run memo).1) target
  have hmodes : (((schema.layout id).run memo).1.plans.get target).records.map (·.mode) =
      (schema.fieldsByNumber id).map (·.mode) := by
    rw [get_run_layout, ← map_eq_of_forall₂ FieldNode.mode FieldShape.mode hshapes fun _ _ _ hmode => hmode]
    refine map_eq_of_forall₂ _ _ hrecords fun shape _ record hrecord => ?_
    obtain ⟨offset, presence, rfl⟩ := hrecord
    rfl
  exact (List.forall₂_iff_zip.1 (forall₂_of_map_eq hmodes)).2 h

include hfiles

/-- Outside of real oneofs, all records with cardinality `.map` have presence `.none` exactly if all fields with
`isMap` are repeated. -/
theorem presence_of_map_records_iff (hid : id ∈ schema.messageIds) :
    (∀ record ∈ (((schema.layout id).run memo).1.plans.get target).records, record.mode.cardinality = .map →
        (∀ offset, record.presence ≠ .oneofSlot offset) → record.presence = .none) ↔
      ∀ field ∈ schema.fieldsOf id, field.isMap = true → schema.realOneof? field = none →
        field.isRepeated = true := by
  have htracks : schema.TracksPresence id (((schema.layout id).run memo).1.plans.get target) := by
    rw [get_run_layout]
    exact tracksPresence_plan hfiles hid (schema.isOf_shapes id memo) _ target
  have hmode (entry) := @mode_of_mem_tracked schema id memo target entry
  -- From here on the plan is only known by how it tracks presence, and by the modes of its records.
  generalize ((schema.layout id).run memo).1.plans.get target = plan at htracks hmode ⊢
  constructor
  · intro hnone field hfield hmap honeof
    obtain ⟨entry, hentry, rfl⟩ := List.mem_map.1 (htracks.fields.mem_iff.2 hfield)
    have hrecord : entry.2 ∈ plan.records := htracks.records ▸ List.mem_map_of_mem hentry
    have hcardinality : entry.2.mode.cardinality = .map := by
      rw [hmode entry hentry]
      exact FieldNode.cardinality_eq_map_iff.2 hmap
    rw [← htracks.presence_eq_none_iff hentry (type_eq_message_of_isMap hfiles hfield hmap) honeof]
    exact hnone entry.2 hrecord hcardinality ((htracks.ne_oneofSlot_iff hentry).2 honeof)
  · intro hrepeated record hrecord hcardinality hslot
    rw [← htracks.records] at hrecord
    obtain ⟨entry, hentry, rfl⟩ := List.mem_map.1 hrecord
    have hfield : entry.1 ∈ schema.fieldsOf id := htracks.fields.mem_iff.1 (List.mem_map_of_mem hentry)
    rw [hmode entry hentry] at hcardinality
    have hmap := FieldNode.cardinality_eq_map_iff.1 hcardinality
    have honeof := (htracks.ne_oneofSlot_iff hentry).1 hslot
    rw [htracks.presence_eq_none_iff hentry (type_eq_message_of_isMap hfiles hfield hmap) honeof]
    exact hrepeated entry.1 hfield hmap honeof

end

/-! ## Maps of a schema -/

section

variable {config : Config} {files : List FileDecl} (hfiles : ofFiles config files = .ok schema)

include hfiles

/-- All fields with `isMap` are repeated exactly if their declarations have the label `.repeated`. -/
theorem isRepeated_of_isMap_iff_label :
    (∀ field ∈ schema.fields, field.isMap = true → field.isRepeated = true) ↔
      ∀ {top : FileDecl} {id : FieldId} {decl : FieldDecl} {sets : List FeatureSet},
        schema.HasScope files top (.field id decl) sets → (schema.field id).isMap = true → decl.label = .repeated := by
  constructor
  · intro hrepeated top id decl sets hscope hmap
    have hdecl := hscope.isDeclaredAs hfiles
    exact hdecl.isRepeated_iff.1 (hrepeated _ hdecl.mem_fields hmap)
  · intro hlabel field hfield hmap
    obtain ⟨index, hindex⟩ := Array.mem_iff_getElem?.1 hfield
    have hsame := @field_of_getElem? schema ⟨index⟩ _ hindex
    have hhas : schema.Has (.field ⟨index⟩) := lt_size_of_exists ⟨field, hindex⟩
    obtain ⟨top, decl, sets, hscope⟩ := exists_scope_field hfiles hhas
    rw [← hsame] at hmap ⊢
    exact (hscope.isDeclaredAs hfiles).isRepeated_iff.2 (hlabel hscope hmap)

/-- `MarksMaps` holds. All fields with `isMap` are repeated exactly if their declarations say so, and then,
outside of real oneofs, their records have presence `.none`. `fieldCost` is 1 for repeated ones and goes by the
entry for others. -/
theorem isRepeated_of_isMap_iff :
    schema.MarksMaps ∧
      ((∀ field ∈ schema.fields, field.isMap = true → field.isRepeated = true) ↔
        ∀ {top : FileDecl} {id : FieldId} {decl : FieldDecl} {sets : List FeatureSet},
          schema.HasScope files top (.field id decl) sets → (schema.field id).isMap = true →
            decl.label = .repeated) ∧
      (∀ id ∈ schema.messageIds, ∀ memo target,
        (∀ record ∈ (((schema.layout id).run memo).1.plans.get target).records, record.mode.cardinality = .map →
            (∀ offset, record.presence ≠ .oneofSlot offset) → record.presence = .none) ↔
          ∀ field ∈ schema.fieldsOf id, field.isMap = true → schema.realOneof? field = none →
            field.isRepeated = true) ∧
      ∀ field ∈ schema.fields, field.isMap = true → ∃ entry, field.messageType? = some entry ∧
        ∀ decide, Storage.fieldCost decide field =
          if field.isRepeated then pure 1 else (·.fieldCost) <$> decide entry := by
  refine ⟨marksMaps_ofFiles hfiles, isRepeated_of_isMap_iff_label hfiles, ?_, ?_⟩
  · intro id hid memo target
    exact presence_of_map_records_iff hfiles memo target hid
  · intro field hfield hmap
    obtain ⟨entry, hentry, _⟩ := (marksMaps_ofFiles hfiles field hfield).1 hmap
    exact ⟨entry, hentry, FieldNode.fieldCost_of_messageType? hentry⟩

end

/-! ## Stocks -/

/-- The counts of a stock, and what was counted last: a single entry of the same map. -/
def stockFile : FileDecl where
  name := "stock.proto"
  messageType := [
    { name := "Stock"
      field := [
        { name := "counts", number := 1, label := .repeated, type := .message, typeName := some "Stock.CountsEntry" },
        { name := "last", number := 2, type := .message, typeName := some "Stock.CountsEntry" }]
      nestedType := [
        { name := "CountsEntry"
          field := [{ name := "key", number := 1, type := .string }, { name := "value", number := 2 }]
          options := some { mapEntry := true } }] }]

theorem exists_ofFiles_stock : ∃ schema, ofFiles {} [stockFile] = .ok schema :=
  exists_ofFiles_proto2 stockFile rfl rfl (by cbv)

/-- Both fields of a stock have `isMap`, one repeated and one not. -/
theorem exists_field_stock (h : ofFiles {} [stockFile] = .ok schema) (isRepeated : Bool) :
    ∃ field ∈ schema.fieldsOf ⟨0⟩,
      field.isMap = true ∧ field.isRepeated = isRepeated ∧ schema.realOneof? field = none := by
  have hfields : ((schema.fieldsOf ⟨0⟩).map fun field => (field.isMap, field.isRepeated, field.oneof)) =
      [(true, true, none), (true, false, none)] := by
    rw [fieldsOf_eq_fieldAmong (ofTable_proto2 rfl) h]
    cbv
  have hmem : (true, isRepeated, none) ∈ (schema.fieldsOf ⟨0⟩).map fun field =>
      (field.isMap, field.isRepeated, field.oneof) := by
    rw [hfields]
    cases isRepeated <;> simp
  obtain ⟨field, hfield, hsame⟩ := List.mem_map.1 hmem
  simp only [Prod.mk.injEq] at hsame
  refine ⟨field, hfield, hsame.1, hsame.2.1, ?_⟩
  rw [realOneof?, hsame.2.2]
  rfl

/-- `fieldCost` of the counts of a stock is 1. -/
theorem isRepeated_of_isMap_iff_counts : ∃ schema, ofFiles {} [stockFile] = .ok schema ∧ schema.MarksMaps ∧
    ∃ field ∈ schema.fieldsOf ⟨0⟩, field.isMap = true ∧ ∀ decide, Storage.fieldCost decide field = pure 1 := by
  obtain ⟨schema, hschema⟩ := exists_ofFiles_stock
  obtain ⟨hmarks, _, _, hcosts⟩ := isRepeated_of_isMap_iff hschema
  obtain ⟨field, hfield, hmap, hrepeated, _⟩ := exists_field_stock hschema true
  obtain ⟨_, _, hcost⟩ := hcosts field ((isSound_ofFiles hschema).mem_fields_of_mem_fieldsOf hfield) hmap
  refine ⟨schema, hschema, hmarks, field, hfield, hmap, fun decide => ?_⟩
  rw [hcost decide, if_pos hrepeated]

/-- What was counted last has `isMap` without being repeated, so there is a record with cardinality `.map` that
is tracked outside of oneofs. -/
theorem exists_isMap_not_isRepeated_stock : ∃ schema, ofFiles {} [stockFile] = .ok schema ∧
    (∃ field ∈ schema.fields, field.isMap = true ∧ field.isRepeated = false) ∧
    ∃ record ∈ (((schema.layout ⟨0⟩).run ∅).1.plans.get .bits64).records, record.mode.cardinality = .map ∧
      record.presence ≠ .none ∧ ∀ offset, record.presence ≠ .oneofSlot offset := by
  obtain ⟨schema, hschema⟩ := exists_ofFiles_stock
  obtain ⟨field, hfield, hmap, hsingle, honeof⟩ := exists_field_stock hschema false
  have hid := mem_messageIds_of_mem_fieldsOf hfield
  have hmem := (isSound_ofFiles hschema).mem_fields_of_mem_fieldsOf hfield
  have htracked := mt (presence_of_map_records_iff hschema ∅ .bits64 hid).1 fun hall => by
    have hrepeated := hall field hfield hmap honeof
    rw [hsingle] at hrepeated
    cases hrepeated
  push Not at htracked
  obtain ⟨record, hrecord, hcardinality, hslot, hpresence⟩ := htracked
  exact ⟨schema, hschema, ⟨field, hmem, hmap, hsingle⟩, record, hrecord, hcardinality, hpresence, hslot⟩

end Schema

end SchemaLayout
