import SchemaLayout.Proofs.Schema.Consistency
import SchemaLayout.Proofs.Schema.Linking
import SchemaLayout.Schema.Assembly

/-!
# Sound schemas

Every schema that files can be put together to is sound (`isSound_ofFiles`): the numbers that its elements
refer to each other by are those of elements, a message's fields are of the file of the message, and a
field refers only to messages of its own file and of files before it.

A file is added behind what is there already, so that everything keeps its number (`IsPartOf`). What a
sound schema says of an element stays true in every schema that it is part of, and for the new elements it
is what numbering and linking make sure of.
-/

namespace SchemaLayout.Schema

/-! ## Parts of schemas -/

/-- All elements of `before` are in `after`, under the same numbers. -/
structure IsPartOf (before after : Schema) : Prop where
  files : ∀ {index : Nat} {node : FileNode},
    before.files[index]? = some node → after.files[index]? = some node
  messages : ∀ {index : Nat} {node : MessageNode},
    before.messages[index]? = some node → after.messages[index]? = some node
  fields : ∀ {index : Nat} {node : FieldNode},
    before.fields[index]? = some node → after.fields[index]? = some node
  oneofs : ∀ {index : Nat} {node : OneofNode},
    before.oneofs[index]? = some node → after.oneofs[index]? = some node
  enums : ∀ {index : Nat} {node : EnumNode},
    before.enums[index]? = some node → after.enums[index]? = some node
  values : ∀ {index : Nat} {node : EnumValueNode},
    before.values[index]? = some node → after.values[index]? = some node
  services : ∀ {index : Nat} {node : ServiceNode},
    before.services[index]? = some node → after.services[index]? = some node
  methods : ∀ {index : Nat} {node : MethodNode},
    before.methods[index]? = some node → after.methods[index]? = some node

/-! ## Soundness -/

/-- The parts of a message are in the schema, and its fields are of its file. -/
structure HoldsMessage (schema : Schema) (message : MessageNode) : Prop where
  file : ∃ file, schema.files[message.file.index]? = some file
  fields : ∀ id ∈ message.fields,
    ∃ field, schema.fields[id.index]? = some field ∧ field.file = message.file
  byNumber : message.fieldsByNumber.Perm message.fields
  oneofs : ∀ id ∈ message.oneofs,
    ∃ oneof, schema.oneofs[id.index]? = some oneof ∧ ∀ field ∈ oneof.fields, field ∈ message.fields

/-- The message that a field refers to is in the schema, and not of a file behind the field's. -/
def HoldsField (schema : Schema) (field : FieldNode) : Prop :=
  ∀ id, field.messageType? = some id →
    ∃ message, schema.messages[id.index]? = some message ∧ message.file.index ≤ field.file.index

/-- The oneof of a field is in the schema, and is its `realOneof` unless it is synthetic. -/
structure HoldsOneof (schema : Schema) (field : FieldNode) : Prop where
  oneof : ∀ id, field.oneof = some id → ∃ oneof, schema.oneofs[id.index]? = some oneof
  realOneof : field.realOneof = schema.realOneof? field

/-- What the elements and names of a schema refer to is in the schema. -/
structure IsSound (schema : Schema) : Prop where
  messages : ∀ {index : Nat} {message : MessageNode},
    schema.messages[index]? = some message → schema.HoldsMessage message
  fields : ∀ {index : Nat} {field : FieldNode},
    schema.fields[index]? = some field → schema.HoldsField field
  oneofs : ∀ {index : Nat} {field : FieldNode},
    schema.fields[index]? = some field → schema.HoldsOneof field
  names : ∀ {key : String} {id : MessageId}, schema.directory.types.find? key = some (.message id) →
    ∃ message, schema.messages[id.index]? = some message
  named : ∀ {index : Nat} {message : MessageNode}, schema.messages[index]? = some message →
    schema.directory.types.find? (Name.key message.fullName) = some (.message ⟨index⟩)

variable {before after : Schema}

theorem HoldsMessage.of_isPartOf {message : MessageNode} (h : before.HoldsMessage message)
    (hpart : before.IsPartOf after) : after.HoldsMessage message where
  file := by
    obtain ⟨file, hfile⟩ := h.file
    exact ⟨file, hpart.files hfile⟩
  fields id hid := by
    obtain ⟨field, hfield, hfile⟩ := h.fields id hid
    exact ⟨field, hpart.fields hfield, hfile⟩
  byNumber := h.byNumber
  oneofs id hid := by
    obtain ⟨oneof, honeof, hmembers⟩ := h.oneofs id hid
    exact ⟨oneof, hpart.oneofs honeof, hmembers⟩

theorem HoldsField.of_isPartOf {field : FieldNode} (h : before.HoldsField field)
    (hpart : before.IsPartOf after) : after.HoldsField field := by
  intro id hid
  obtain ⟨message, hmessage, hfile⟩ := h id hid
  exact ⟨message, hpart.messages hmessage, hfile⟩

theorem HoldsOneof.of_isPartOf {field : FieldNode} (h : before.HoldsOneof field)
    (hpart : before.IsPartOf after) : after.HoldsOneof field where
  oneof id hid := by
    obtain ⟨oneof, honeof⟩ := h.oneof id hid
    exact ⟨oneof, hpart.oneofs honeof⟩
  realOneof := by
    rw [h.realOneof, realOneof?, realOneof?]
    cases hid : field.oneof with
    | none => rfl
    | some id =>
      obtain ⟨oneof, honeof⟩ := h.oneof id hid
      simp only [Option.filter_some, Schema.oneof, honeof, hpart.oneofs honeof]

theorem isSound_empty : empty.IsSound where
  messages h := by simp [empty] at h
  fields h := by simp [empty] at h
  oneofs h := by simp [empty] at h
  names h := by simp [empty, Directory.empty, OrderedMap.find?_empty] at h
  named h := by simp [empty] at h

/-! ## Adding a file -/

/-- All that `addDeclarations` does. -/
theorem addDeclarations_eq_ok_iff {schema next : Schema} {rules : FeatureRules} {decl : FileDecl} :
    schema.addDeclarations rules decl = .ok next ↔
      let numbered := Numbering.file ⟨rules, ⟨schema.files.size⟩⟩ schema.counts decl
      ∃ directory dependencies fields methods,
        schema.register decl.name numbered.2.steps = .ok directory ∧
        Linking.dependencies directory decl = .ok dependencies ∧
        let context : Linking.Context :=
          { directory, messages := schema.messages ++ numbered.2.messages }
        numbered.2.fields.mapM (Linking.field context) = .ok fields ∧
        numbered.2.methods.mapM (Linking.method context) = .ok methods ∧
        next = schema.extend directory { numbered.1 with dependencies } numbered.2 fields methods := by
  simp only [addDeclarations, except_bind_eq_ok_iff]
  constructor
  · intro h
    rcases h with ⟨directory, hdirectory, dependencies, hdependencies, fields, hfields, methods,
      hmethods, h⟩
    cases h
    exact ⟨directory, dependencies, fields, methods, hdirectory, hdependencies, hfields, hmethods,
      rfl⟩
  · intro h
    rcases h with ⟨directory, dependencies, fields, methods, hdirectory, hdependencies, hfields,
      hmethods, rfl⟩
    exact ⟨directory, hdirectory, dependencies, hdependencies, fields, hfields, methods, hmethods,
      rfl⟩

/-- `extend` only adds elements. -/
theorem isPartOf_extend (schema : Schema) (directory : Directory) (file : FileNode)
    (additions : Additions) (fields : List FieldNode) (methods : List MethodNode) :
    schema.IsPartOf (schema.extend directory file additions fields methods) where
  files h := by
    -- The new file is pushed behind the last one.
    have hlt := (Array.getElem?_eq_some_iff.1 h).1
    rw [extend, Array.getElem?_push, if_neg (Nat.ne_of_lt hlt), h]
  messages h := getElem?_append_eq_some_iff.2 (Or.inl h)
  fields h := getElem?_append_eq_some_iff.2 (Or.inl h)
  oneofs h := getElem?_append_eq_some_iff.2 (Or.inl h)
  enums h := getElem?_append_eq_some_iff.2 (Or.inl h)
  values h := getElem?_append_eq_some_iff.2 (Or.inl h)
  services h := getElem?_append_eq_some_iff.2 (Or.inl h)
  methods h := getElem?_append_eq_some_iff.2 (Or.inl h)

/-- `addDeclarations` adds one file and the elements that numbering counts. -/
theorem counts_addDeclarations {schema next : Schema} {rules : FeatureRules} {decl : FileDecl}
    (h : schema.addDeclarations rules decl = .ok next) :
    next.files.size = schema.files.size + 1 ∧ next.counts = schema.counts +
      (Numbering.file ⟨rules, ⟨schema.files.size⟩⟩ schema.counts decl).2.counts := by
  obtain ⟨directory, dependencies, fields, methods, _, _, hfields, hmethods, rfl⟩ :=
    addDeclarations_eq_ok_iff.1 h
  have hfieldCount := (mapM_eq_ok_iff.1 hfields).length_eq
  have hmethodCount := (mapM_eq_ok_iff.1 hmethods).length_eq
  refine ⟨Array.size_push _, ?_⟩
  simp only [extend, counts, size_append_list, ← hfieldCount, ← hmethodCount]
  rfl

/-- After `register`, the types are those known before and those that `steps` enter. -/
theorem find?_of_register {schema : Schema} {name : String} {steps : List Registration}
    {directory : Directory} (h : schema.register name steps = .ok directory) {key : String}
    {definition : Definition} :
    directory.types.find? key = some definition ↔
      schema.directory.types.find? key = some definition ∨ .enter key definition ∈ steps := by
  rw [register] at h
  split at h
  · cases h
  · exact Registration.find?_takeAll h key definition

theorem file?_of_register {schema : Schema} {name : String} {steps : List Registration}
    {directory : Directory} (h : schema.register name steps = .ok directory) (other : String) :
    directory.file? other =
      if name = other then some ⟨schema.files.size⟩ else schema.directory.file? other := by
  rw [register] at h
  split at h
  · cases h
  · rw [Directory.file?, Registration.files_of_takeAll h, Directory.insertFile, OrderedMap.find?_insert]
    rfl

section

variable {schema : Schema} {directory : Directory} {context : Numbering.Context}
  {additions : Additions} {fields : List FieldNode}

/-- The messages that the new directory finds are there, and not of later files. -/
theorem exists_message_of_find? {name : String} (h : schema.IsSound)
    (hnew : Numbering.IsConsistent context schema.counts additions)
    (hfile : context.file = ⟨schema.files.size⟩)
    (hregister : schema.register name additions.steps = .ok directory)
    {key : String} {id : MessageId} (hkey : directory.types.find? key = some (.message id)) :
    ∃ message, (schema.messages ++ additions.messages)[id.index]? = some message ∧
      message.file.index ≤ schema.files.size := by
  rcases (find?_of_register hregister).1 hkey with hold | hentered
  -- The file of a message that was known before is one of those that are there already.
  · obtain ⟨message, hmessage⟩ := h.names hold
    obtain ⟨file, hin⟩ := (h.messages hmessage).file
    exact ⟨message, getElem?_append_eq_some_iff.2 (Or.inl hmessage),
      Nat.le_of_lt (Array.getElem?_eq_some_iff.1 hin).1⟩
  · obtain ⟨message, hmessage⟩ := hnew.entered key id hentered
    have hnewest : message.file.index = schema.files.size := by
      rw [hnew.message_file message (mem_of_numbered? hmessage), hfile]
    exact ⟨message, getElem?_append_eq_some_iff.2 (Or.inr hmessage), Nat.le_of_eq hnewest⟩

/-- New messages satisfy `HoldsMessage` in the extended schema. -/
theorem holdsMessage_of_mem {linking : Linking.Context} {file : FileNode}
    {methods : List MethodNode} (hnew : Numbering.IsConsistent context schema.counts additions)
    (hfile : context.file = ⟨schema.files.size⟩)
    (hfields : additions.fields.mapM (Linking.field linking) = .ok fields) {message : MessageNode}
    (h : message ∈ additions.messages) :
    (schema.extend directory file additions fields methods).HoldsMessage message where
  file := by
    rw [hnew.message_file message h, hfile]
    exact ⟨file, Array.getElem?_push_size⟩
  fields id hid := by
    obtain ⟨draft, hdraft⟩ := (hnew.holds message h).fields id hid
    obtain ⟨field, hfield, hlink⟩ := exists_numbered?_of_mapM hfields hdraft
    refine ⟨field, getElem?_append_eq_some_iff.2 (Or.inr hfield), ?_⟩
    rw [(Linking.isLinked_of_field hlink).file, hnew.message_file message h,
      hnew.field_file draft (mem_of_numbered? hdraft)]
  byNumber := (hnew.holds message h).byNumber
  oneofs id hid := by
    obtain ⟨oneof, honeof, hmembers⟩ := (hnew.holds message h).oneofs id hid
    exact ⟨oneof, getElem?_append_eq_some_iff.2 (Or.inr honeof), hmembers⟩

/-- New fields satisfy `HoldsOneof`: linking leaves the oneofs that numbering made for them. -/
theorem holdsOneof_of_field {linking : Linking.Context} {file : FileNode} {methods : List MethodNode}
    {draft : FieldDraft} {field : FieldNode}
    (hdraft : Numbering.HoldsOneof schema.counts additions draft.node)
    (hlink : Linking.field linking draft = .ok field) :
    (schema.extend directory file additions fields methods).HoldsOneof field := by
  obtain ⟨honeof, hreal⟩ := Linking.oneofs_of_field hlink
  rcases hdraft with ⟨hnone, hnoreal⟩ | ⟨id, oneof, hfound, hsome, hmark⟩
  · refine ⟨fun id hid => ?_, ?_⟩
    · rw [honeof, hnone] at hid
      cases hid
    · rw [hreal, hnoreal, realOneof?, honeof, hnone, Option.filter_none]
  · have hin : (schema.extend directory file additions fields methods).oneofs[id.index]? = some oneof :=
      getElem?_append_eq_some_iff.2 (Or.inr hfound)
    refine ⟨fun other hother => ?_, ?_⟩
    · rw [honeof, hsome] at hother
      cases hother
      exact ⟨oneof, hin⟩
    · rw [hreal, hmark, realOneof?, honeof, hsome, Option.filter_some, Schema.oneof, hin, Option.getD_some]
      cases oneof.isSynthetic <;> rfl

end

/-- `addDeclarations` keeps `IsSound`. -/
theorem isSound_addDeclarations {schema next : Schema} {rules : FeatureRules} {decl : FileDecl}
    (h : schema.IsSound) (hadd : schema.addDeclarations rules decl = .ok next) : next.IsSound := by
  obtain ⟨directory, dependencies, fields, methods, hregister, _, hfields, _, rfl⟩ :=
    addDeclarations_eq_ok_iff.1 hadd
  have hnew := (Numbering.built_file ⟨rules, ⟨schema.files.size⟩⟩ schema.counts decl).isConsistent
  have hpart := isPartOf_extend schema directory
    { (Numbering.file ⟨rules, ⟨schema.files.size⟩⟩ schema.counts decl).1 with dependencies }
    (Numbering.file ⟨rules, ⟨schema.files.size⟩⟩ schema.counts decl).2 fields methods
  constructor
  -- What has a number is either there already, and sound, or new, and consistent.
  case messages =>
    intro index message hmessage
    rcases getElem?_append_eq_some_iff.1 hmessage with hold | hmessage
    · exact (h.messages hold).of_isPartOf hpart
    · exact holdsMessage_of_mem hnew rfl hfields (mem_of_numbered? hmessage)
  case fields =>
    intro index field hfield
    rcases getElem?_append_eq_some_iff.1 hfield with hold | hfield
    · exact (h.fields hold).of_isPartOf hpart
    · obtain ⟨draft, hdraft, hlink⟩ := exists_mem_of_mapM hfields (mem_of_numbered? hfield)
      have hlinked := Linking.isLinked_of_field hlink
      intro id hid
      obtain ⟨key, hkey⟩ := hlinked.messageType id hid
      rw [hlinked.file, hnew.field_file draft hdraft]
      exact exists_message_of_find? h hnew rfl hregister hkey
  case oneofs =>
    intro index field hfield
    rcases getElem?_append_eq_some_iff.1 hfield with hold | hfield
    · exact (h.oneofs hold).of_isPartOf hpart
    · obtain ⟨draft, hdraft, hlink⟩ := exists_mem_of_mapM hfields (mem_of_numbered? hfield)
      exact holdsOneof_of_field (hnew.holdsOneof draft hdraft) hlink
  case names =>
    intro key id hkey
    obtain ⟨message, hmessage, _⟩ := exists_message_of_find? h hnew rfl hregister hkey
    exact ⟨message, hmessage⟩
  case named =>
    intro index message hmessage
    rcases getElem?_append_eq_some_iff.1 hmessage with hold | hmessage
    · exact (find?_of_register hregister).2 (Or.inl (h.named hold))
    · exact (find?_of_register hregister).2 (Or.inr (hnew.named index message hmessage))

/-- `addFile` succeeds if there are rules for the edition and `addDeclarations` does. -/
theorem addFile_eq_ok_iff {config : Config} {schema next : Schema} {decl : FileDecl} :
    addFile config schema decl = .ok next ↔
      ∃ rules, FeatureRules.ofTable decl.level config.defaults config.extensions = .ok rules ∧
        schema.addDeclarations rules decl = .ok next := by
  rw [addFile]
  cases FeatureRules.ofTable decl.level config.defaults config.extensions with
  | error error => simp
  | ok rules =>
    simp only [Except.ok.injEq, exists_eq_left']
    cases schema.addDeclarations rules decl <;> simp [Except.mapError]

/-- Every schema of files satisfies `IsSound`. -/
theorem isSound_ofFiles {config : Config} {files : List FileDecl} {schema : Schema}
    (h : ofFiles config files = .ok schema) : schema.IsSound := by
  refine foldlM_preserves (fun schema decl next hschema hnext => ?_) isSound_empty h
  obtain ⟨rules, _, hadd⟩ := addFile_eq_ok_iff.1 hnext
  exact isSound_addDeclarations hschema hadd

/-! ## Fields of messages -/

theorem mem_messageIds {schema : Schema} {id : MessageId} :
    id ∈ schema.messageIds ↔ id.index < schema.messages.size := by
  rw [messageIds, List.mem_map]
  constructor
  · intro h
    rcases h with ⟨index, hindex, rfl⟩
    exact List.mem_range.1 hindex
  · intro hindex
    exact ⟨id.index, List.mem_range.2 hindex, rfl⟩

theorem messageIds_eq_of_counts_eq {schema other : Schema} (h : other.counts = schema.counts) :
    other.messageIds = schema.messageIds :=
  congrArg (fun count => (List.range count).map MessageId.mk) (congrArg Counts.messages h)

theorem message_of_getElem? {schema : Schema} {id : MessageId} {message : MessageNode}
    (h : schema.messages[id.index]? = some message) : schema.message id = message := by
  rw [Schema.message, h]
  rfl

theorem field_of_getElem? {schema : Schema} {id : FieldId} {field : FieldNode}
    (h : schema.fields[id.index]? = some field) : schema.field id = field := by
  rw [Schema.field, h]
  rfl

theorem oneof_of_getElem? {schema : Schema} {id : OneofId} {oneof : OneofNode}
    (h : schema.oneofs[id.index]? = some oneof) : schema.oneof id = oneof := by
  rw [Schema.oneof, h]
  rfl

/-- Only `messageIds` have fields. -/
theorem mem_messageIds_of_mem_fieldsOf {schema : Schema} {id : MessageId} {field : FieldNode}
    (h : field ∈ schema.fieldsOf id) : id ∈ schema.messageIds := by
  rw [mem_messageIds]
  by_contra hid
  have hdefault : schema.message id = default := by
    rw [Schema.message, Array.getElem?_eq_none (Nat.le_of_not_lt hid)]
    rfl
  rw [fieldsOf, hdefault] at h
  exact absurd h List.not_mem_nil

theorem getElem?_of_mem_messageIds {schema : Schema} {id : MessageId} (h : id ∈ schema.messageIds) :
    schema.messages[id.index]? = some (schema.message id) := by
  have hmessage := Array.getElem?_eq_getElem (mem_messageIds.1 h)
  rw [message_of_getElem? hmessage, hmessage]

namespace IsSound

variable {schema : Schema} (h : schema.IsSound)

include h

/-- No two messages have the same full name. -/
theorem eq_of_fullName_eq {id other : MessageId} (hid : id ∈ schema.messageIds)
    (hother : other ∈ schema.messageIds)
    (hname : (schema.message id).fullName = (schema.message other).fullName) : id = other := by
  have hfirst := h.named (getElem?_of_mem_messageIds hid)
  have hsecond := h.named (getElem?_of_mem_messageIds hother)
  rw [hname, hsecond] at hfirst
  exact (Definition.message.inj (Option.some.inj hfirst)).symm

/-- `message` of any number satisfies `HoldsMessage` or is the default. -/
theorem holdsMessage_or_default (id : MessageId) :
    schema.HoldsMessage (schema.message id) ∨ schema.message id = default := by
  rw [Schema.message]
  cases hmessage : schema.messages[id.index]? with
  | some message => exact Or.inl (h.messages hmessage)
  | none => exact Or.inr rfl

/-- `fieldsByNumber` reorders `fieldsOf`. -/
theorem fieldsByNumber_perm (id : MessageId) :
    (schema.fieldsByNumber id).Perm (schema.fieldsOf id) := by
  rw [fieldsByNumber, fieldsOf]
  rcases h.holdsMessage_or_default id with hmessage | hmessage
  · exact hmessage.byNumber.map _
  · rw [hmessage]
    exact .refl _

/-- The members of a message's oneofs are fields of the message. -/
theorem mem_fieldsOf_of_mem_oneof {id : MessageId} {oneof : OneofId}
    (honeof : oneof ∈ (schema.message id).realOneofs) {field : FieldId}
    (hfield : field ∈ (schema.oneof oneof).fields) : schema.field field ∈ schema.fieldsOf id := by
  rcases h.holdsMessage_or_default id with hmessage | hmessage
  · obtain ⟨node, hnode, hmembers⟩ := hmessage.oneofs oneof (List.mem_of_mem_take honeof)
    rw [oneof_of_getElem? hnode] at hfield
    exact List.mem_map_of_mem (hmembers field hfield)
  · rw [hmessage] at honeof
    exact absurd (List.mem_of_mem_take honeof) List.not_mem_nil

theorem mem_fields_of_mem_fieldsOf {id : MessageId} {field : FieldNode}
    (hfield : field ∈ schema.fieldsOf id) : field ∈ schema.fields := by
  obtain ⟨fieldId, hid, rfl⟩ := List.mem_map.1 hfield
  rcases h.holdsMessage_or_default id with hmessage | hmessage
  · obtain ⟨node, hnode, _⟩ := hmessage.fields fieldId hid
    rw [field_of_getElem? hnode]
    exact Array.mem_of_getElem? hnode
  · rw [hmessage] at hid
    exact absurd hid List.not_mem_nil

/-- The `realOneof` of a field is what `realOneof?` says. -/
theorem realOneof_eq {field : FieldNode} (hfield : field ∈ schema.fields) :
    field.realOneof = schema.realOneof? field := by
  obtain ⟨index, hindex⟩ := Array.mem_iff_getElem?.1 hfield
  exact (h.oneofs hindex).realOneof

theorem realOneof_of_mem_fieldsOf {id : MessageId} {field : FieldNode} (hfield : field ∈ schema.fieldsOf id) :
    field.realOneof = schema.realOneof? field :=
  h.realOneof_eq (h.mem_fields_of_mem_fieldsOf hfield)

/-- A field refers to messages of its message's file or of files before it. -/
theorem messageType_of_mem_fieldsOf {id inner : MessageId} {field : FieldNode}
    (hfield : field ∈ schema.fieldsOf id) (hinner : field.messageType? = some inner) :
    inner ∈ schema.messageIds ∧
      (schema.message inner).file.index ≤ (schema.message id).file.index := by
  obtain ⟨fieldId, hid, rfl⟩ := List.mem_map.1 hfield
  rcases h.holdsMessage_or_default id with hmessage | hmessage
  · obtain ⟨node, hnode, hfile⟩ := hmessage.fields fieldId hid
    rw [field_of_getElem? hnode] at hinner
    obtain ⟨message, hfound, hle⟩ := h.fields hnode inner hinner
    rw [message_of_getElem? hfound, ← hfile, mem_messageIds]
    exact ⟨(Array.getElem?_eq_some_iff.1 hfound).1, hle⟩
  · rw [hmessage] at hid
    exact absurd hid List.not_mem_nil

end IsSound

end SchemaLayout.Schema
