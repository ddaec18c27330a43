import SchemaLayout.Proofs.Schema.Members
import SchemaLayout.Proofs.Schema.References
import SchemaLayout.Proofs.Schema.SingleFile

/-!
# Integrity

A schema that files were put together to holds together (`isIntact_ofFiles`): all handles in it are those of
elements, parts and what they belong to name each other, and the types of fields fit what they refer to. Most of
this was seen while the schema grew; here it is put together for the schema as a whole.
-/

namespace SchemaLayout

/-! ## Handles of elements -/

/-- The handles in a file. -/
def FileNode.handles (file : FileNode) : List Handle :=
  file.messages.map .message ++ file.enums.map .enum ++ file.services.map .service
    ++ file.extensions.map .field ++ file.dependencies.map .file

/-- The handles in a message. -/
def MessageNode.handles (message : MessageNode) : List Handle :=
  .file message.file :: message.containingType.toList.map .message ++ message.fields.map .field
    ++ message.fieldsByNumber.map .field ++ message.oneofs.map .oneof ++ message.nestedTypes.map .message
    ++ message.enums.map .enum ++ message.extensions.map .field

/-- The handles in a field. -/
def FieldNode.handles (field : FieldNode) : List Handle :=
  .file field.file :: field.oneof.toList.map .oneof ++ field.realOneof.toList.map .oneof
    ++ field.declaredIn.toList.map .message ++ field.containingType.toList.map .message
    ++ field.target.toList.map TypeRef.handle

/-- The handles in a oneof. -/
def OneofNode.handles (oneof : OneofNode) : List Handle :=
  .message oneof.containingType :: oneof.fields.map .field

/-- The handles in an enum. -/
def EnumNode.handles (enum : EnumNode) : List Handle :=
  .file enum.file :: enum.containingType.toList.map .message ++ enum.values.map .value

/-- The handles in a service. -/
def ServiceNode.handles (service : ServiceNode) : List Handle :=
  .file service.file :: service.methods.map .method

/-- The handles in a method. -/
def MethodNode.handles (method : MethodNode) : List Handle :=
  [.service method.service, .message method.inputType, .message method.outputType]

namespace Schema

/-- All handles in the elements of a schema. -/
def handles (schema : Schema) : List Handle :=
  schema.files.toList.flatMap (·.handles) ++ schema.messages.toList.flatMap (·.handles)
    ++ schema.fields.toList.flatMap (·.handles) ++ schema.oneofs.toList.flatMap (·.handles)
    ++ schema.enums.toList.flatMap (·.handles) ++ schema.values.toList.map (.enum ·.enum)
    ++ schema.services.toList.flatMap (·.handles) ++ schema.methods.toList.flatMap (·.handles)

/-! ## Handles in range -/

section

variable {schema : Schema} (hsound : schema.IsSound) (howned : schema.IsOwned) (hnested : schema.IsNested)
  (hlinked : schema.IsLinked)

theorem lt_size_of_exists {α : Type} {array : Array α} {index : Nat} (h : ∃ a, array[index]? = some a) :
    index < array.size := by
  obtain ⟨a, ha⟩ := h
  exact (Array.getElem?_eq_some_iff.1 ha).1

include hnested hlinked in
theorem has_of_mem_file {file : FileNode} (hfile : file ∈ schema.files) :
    ∀ handle ∈ file.handles, schema.Has handle := by
  -- What a file lists is loose in all files together.
  have hloose {α : Type} (parts : FileNode → List α) (number : α → Nat) {id : α} (hid : id ∈ parts file) :
      number id ∈ (schema.files.toList.flatMap parts).map number :=
    List.mem_map_of_mem (List.mem_flatMap.2 ⟨file, Array.mem_toList_iff.2 hfile, hid⟩)
  simp only [FileNode.handles, List.forall_mem_append, List.forall_mem_map]
  refine ⟨⟨⟨⟨fun id hid => ?_, fun id hid => ?_⟩, fun id hid => ?_⟩, fun id hid => ?_⟩, fun id hid => ?_⟩
  · obtain ⟨node, hnode, _⟩ := hnested.messages.mem_loose_iff.1 (hloose (·.messages) (·.index) hid)
    exact lt_size_of_exists ⟨node, hnode⟩
  · obtain ⟨node, hnode, _⟩ := hnested.enums.mem_loose_iff.1 (hloose (·.enums) (·.index) hid)
    exact lt_size_of_exists ⟨node, hnode⟩
  · have hservice := hloose (·.services) (·.index) hid
    rw [hnested.services] at hservice
    exact List.mem_range.1 hservice
  · obtain ⟨node, hnode, _⟩ := hnested.extensions.mem_loose_iff.1 (hloose (·.extensions) (·.index) hid)
    exact lt_size_of_exists ⟨node, hnode⟩
  · exact hlinked.dependencies file hfile id hid

include hsound hnested in
theorem has_of_mem_message {index : Nat} {message : MessageNode} (hmessage : schema.messages[index]? = some message) :
    ∀ handle ∈ message.handles, schema.Has handle := by
  have hholds := hsound.messages hmessage
  have hmem := Array.mem_of_getElem? hmessage
  have hfield (id : FieldId) (hid : id ∈ message.fields) : schema.Has (.field id) := by
    obtain ⟨field, hfield, _⟩ := hholds.fields id hid
    exact lt_size_of_exists ⟨field, hfield⟩
  simp only [MessageNode.handles, List.cons_append, List.forall_mem_cons, List.forall_mem_append,
    List.forall_mem_map, Option.mem_toList]
  refine ⟨lt_size_of_exists hholds.file, ⟨⟨⟨⟨⟨fun id hid => ?_, hfield⟩, fun id hid => ?_⟩, fun id hid => ?_⟩,
    fun id hid => ?_⟩, fun id hid => ?_⟩, fun id hid => ?_⟩
  · have howner : some (message.containingType.map (·.index)) = some (some id.index) := by
      rw [Option.mem_def.1 hid, Option.map_some]
    exact lt_size_of_exists (hnested.messages.exists_owner hmem howner (by simp))
  · exact hfield id (hholds.byNumber.mem_iff.1 hid)
  · obtain ⟨oneof, honeof, _⟩ := hholds.oneofs id hid
    exact lt_size_of_exists ⟨oneof, honeof⟩
  · obtain ⟨node, hnode, _⟩ := (hnested.messages.mem_parts_iff hmessage).1 (List.mem_map_of_mem hid)
    exact lt_size_of_exists ⟨node, hnode⟩
  · obtain ⟨node, hnode, _⟩ := (hnested.enums.mem_parts_iff hmessage).1 (List.mem_map_of_mem hid)
    exact lt_size_of_exists ⟨node, hnode⟩
  · obtain ⟨node, hnode, _⟩ := (hnested.extensions.mem_parts_iff hmessage).1 (List.mem_map_of_mem hid)
    exact lt_size_of_exists ⟨node, hnode⟩

include hsound howned hnested hlinked in
theorem has_of_mem_field {index : Nat} {field : FieldNode} (hfield : schema.fields[index]? = some field) :
    ∀ handle ∈ field.handles, schema.Has handle := by
  have hmem := Array.mem_of_getElem? hfield
  have hlinks := hlinked.fields field hmem
  simp only [FieldNode.handles, List.cons_append, List.forall_mem_cons, List.forall_mem_append,
    List.forall_mem_map, Option.mem_toList]
  have honeof (id : OneofId) (hid : field.oneof = some id) : schema.Has (.oneof id) := by
    have howner : field.oneof.map (·.index) = some id.index := by rw [hid, Option.map_some]
    exact lt_size_of_exists (howned.members.exists_owner hfield howner)
  refine ⟨hlinks.file, ⟨⟨⟨fun id hid => honeof id hid, fun id hid => honeof id ?_⟩, fun id hid => ?_⟩,
    fun id hid => ?_⟩, fun ref href => ?_⟩
  · rw [hsound.realOneof_eq hmem, realOneof?, Option.filter_eq_some_iff] at hid
    exact hid.1
  · -- A field that is no extension is declared in the message that it belongs to.
    cases hextension : field.isExtension with
    | false =>
      obtain ⟨home, hhome, hdeclared⟩ := hlinks.declaredIn hextension
      cases hdeclared.symm.trans hid
      exact hlinks.containingType id hhome
    | true =>
      have howner : field.site?.map (fun site => site.map (·.index)) = some (some id.index) := by
        rw [FieldNode.site?, if_pos hextension, Option.mem_def.1 hid, Option.map_some, Option.map_some]
      exact lt_size_of_exists (hnested.extensions.exists_owner hmem howner (by simp))
  · exact hlinks.containingType id hid
  · exact hlinks.target ref href

include howned in
theorem has_of_mem_oneof {index : Nat} {oneof : OneofNode} (honeof : schema.oneofs[index]? = some oneof) :
    ∀ handle ∈ oneof.handles, schema.Has handle := by
  simp only [OneofNode.handles, List.forall_mem_cons, List.forall_mem_map]
  refine ⟨lt_size_of_exists (howned.oneofs.exists_owner honeof rfl), fun id hid => ?_⟩
  obtain ⟨node, hnode, _⟩ := (howned.members.mem_parts_iff honeof).1 (List.mem_map_of_mem hid)
  exact lt_size_of_exists ⟨node, hnode⟩

include howned hnested hlinked in
theorem has_of_mem_enum {index : Nat} {enum : EnumNode} (henum : schema.enums[index]? = some enum) :
    ∀ handle ∈ enum.handles, schema.Has handle := by
  have hmem := Array.mem_of_getElem? henum
  simp only [EnumNode.handles, List.cons_append, List.forall_mem_cons, List.forall_mem_append,
    List.forall_mem_map, Option.mem_toList]
  refine ⟨hlinked.enums enum hmem, fun id hid => ?_, fun id hid => ?_⟩
  · have howner : some (enum.containingType.map (·.index)) = some (some id.index) := by
      rw [Option.mem_def.1 hid, Option.map_some]
    exact lt_size_of_exists (hnested.enums.exists_owner hmem howner (by simp))
  · obtain ⟨node, hnode, _⟩ := (howned.values.mem_parts_iff henum).1 (List.mem_map_of_mem hid)
    exact lt_size_of_exists ⟨node, hnode⟩

include howned hlinked in
theorem has_of_mem_service {index : Nat} {service : ServiceNode} (hservice : schema.services[index]? = some service) :
    ∀ handle ∈ service.handles, schema.Has handle := by
  simp only [ServiceNode.handles, List.forall_mem_cons, List.forall_mem_map]
  refine ⟨hlinked.services service (Array.mem_of_getElem? hservice), fun id hid => ?_⟩
  obtain ⟨node, hnode, _⟩ := (howned.methods.mem_parts_iff hservice).1 (List.mem_map_of_mem hid)
  exact lt_size_of_exists ⟨node, hnode⟩

include howned hlinked in
theorem has_of_mem_method {index : Nat} {method : MethodNode} (hmethod : schema.methods[index]? = some method) :
    ∀ handle ∈ method.handles, schema.Has handle := by
  obtain ⟨hinput, houtput⟩ := hlinked.methods method (Array.mem_of_getElem? hmethod)
  simp only [MethodNode.handles, List.forall_mem_cons]
  exact ⟨lt_size_of_exists (howned.methods.exists_owner hmethod rfl), hinput, houtput, List.forall_mem_nil _⟩

include hsound howned hnested hlinked in
/-- All `handles` in a schema are in range. -/
theorem has_of_mem_handles : ∀ handle ∈ schema.handles, schema.Has handle := by
  have hall {α : Type} {array : Array α} {p : α → Prop}
      (h : ∀ {index : Nat} {a : α}, array[index]? = some a → p a) (a : α) (ha : a ∈ array.toList) : p a := by
    obtain ⟨index, hindex⟩ := Array.mem_iff_getElem?.1 (Array.mem_toList_iff.1 ha)
    exact h hindex
  simp only [handles, List.forall_mem_append, List.forall_mem_flatMap, List.forall_mem_map]
  refine ⟨⟨⟨⟨⟨⟨⟨?files, ?messages⟩, ?fields⟩, ?oneofs⟩, ?enums⟩, ?values⟩, ?services⟩, ?methods⟩
  case files => exact fun file hfile => has_of_mem_file hnested hlinked (Array.mem_toList_iff.1 hfile)
  case messages => exact hall (has_of_mem_message hsound hnested)
  case fields => exact hall (has_of_mem_field hsound howned hnested hlinked)
  case oneofs => exact hall (has_of_mem_oneof howned)
  case enums => exact hall (has_of_mem_enum howned hnested hlinked)
  case values => exact hall fun hvalue => lt_size_of_exists (howned.values.exists_owner hvalue rfl)
  case services => exact hall (has_of_mem_service howned hlinked)
  case methods => exact hall (has_of_mem_method howned hlinked)

end

/-! ## Fields and oneofs -/

section

variable {schema : Schema}

/-- A field that is no extension is counted once in its message, and in no other one. -/
theorem count_fields (howned : schema.IsOwned) (hlinked : schema.IsLinked) {id : FieldId} {field : FieldNode}
    (hfield : schema.fields[id.index]? = some field) (hdeclared : field.isExtension = false) :
    ∃ home ∈ schema.messageIds, field.containingType = some home ∧ ∀ message ∈ schema.messageIds,
      (schema.message message).fields.count id = if message = home then 1 else 0 := by
  have hlinks := hlinked.fields field (Array.mem_of_getElem? hfield)
  obtain ⟨home, hhome, _⟩ := hlinks.declaredIn hdeclared
  refine ⟨home, mem_messageIds.2 (hlinks.containingType home hhome), hhome, fun message hmessage => ?_⟩
  rw [(howned.nodup_fields hmessage).count]
  refine if_congr ?_ rfl rfl
  rw [howned.mem_fields_iff hmessage, hfield]
  simp only [Option.some.injEq, exists_eq_left', FieldNode.home?, hdeclared, Bool.false_eq_true, if_false, hhome]
  exact eq_comm

/-- `oneof` of a field in terms of the `fields` of the oneof. -/
theorem oneof_eq_some_iff (howned : schema.IsOwned) {id : FieldId} {field : FieldNode}
    (hfield : schema.fields[id.index]? = some field) (oneof : OneofId) :
    field.oneof = some oneof ↔ id ∈ (schema.oneof oneof).fields := by
  cases honeof : schema.oneofs[oneof.index]? with
  | some node =>
    rw [oneof_of_getElem? honeof, howned.mem_members_iff honeof, hfield]
    simp
  | none =>
    have hdefault : schema.oneof oneof = default := by
      rw [Schema.oneof, honeof]
      rfl
    rw [hdefault]
    refine iff_of_false (fun hof => ?_) List.not_mem_nil
    obtain ⟨node, hnode⟩ := howned.members.exists_owner hfield (congrArg (Option.map (·.index)) hof)
    cases honeof.symm.trans hnode

/-- The members of a oneof belong to the message of the oneof. -/
theorem containingType_of_oneof (hsound : schema.IsSound) (howned : schema.IsOwned) {id : FieldId}
    {field : FieldNode} (hfield : schema.fields[id.index]? = some field) {oneof : OneofId}
    (hof : field.oneof = some oneof) :
    field.containingType = some (schema.oneof oneof).containingType ∧
      oneof ∈ (schema.message (schema.oneof oneof).containingType).oneofs := by
  obtain ⟨node, hnode⟩ := howned.members.exists_owner hfield (congrArg (Option.map (·.index)) hof)
  obtain ⟨message, hmessage⟩ := howned.oneofs.exists_owner hnode rfl
  have hid : node.containingType ∈ schema.messageIds := mem_messageIds.2 (lt_size_of_exists ⟨message, hmessage⟩)
  have hin : oneof ∈ (schema.message node.containingType).oneofs :=
    (howned.mem_oneofs_iff hid).2 ⟨node, hnode, rfl⟩
  obtain ⟨other, hother, hmembers⟩ := (hsound.messages (getElem?_of_mem_messageIds hid)).oneofs oneof hin
  cases hnode.symm.trans hother
  -- The message of the oneof lists the members among its fields, so they belong to it.
  have hlisted := hmembers id ((howned.mem_members_iff hnode).2 ⟨field, hfield, hof⟩)
  obtain ⟨same, hsame, hhome⟩ := (howned.mem_fields_iff hid).1 hlisted
  cases hfield.symm.trans hsame
  rw [oneof_of_getElem? hnode]
  rw [FieldNode.home?] at hhome
  split at hhome
  · cases hhome
  · exact ⟨hhome, hin⟩

/-- `realOneof` is `oneof` unless this is synthetic. -/
theorem realOneof_eq_oneof_iff (hsound : schema.IsSound) {field : FieldNode} (hfield : field ∈ schema.fields)
    {oneof : OneofId} (hof : field.oneof = some oneof) :
    field.realOneof = field.oneof ↔ (schema.oneof oneof).isSynthetic = false := by
  rw [hsound.realOneof_eq hfield, realOneof?, hof, Option.filter_some]
  cases (schema.oneof oneof).isSynthetic <;> simp

/-- A message comes behind the one around it, and is counted there once. -/
theorem count_nestedTypes (hnested : schema.IsNested) {id : MessageId} {message : MessageNode}
    (hmessage : schema.messages[id.index]? = some message) {parent : MessageId}
    (hparent : message.containingType = some parent) :
    parent.index < id.index ∧ (schema.message parent).nestedTypes.count id = 1 := by
  have hlt := hnested.before hmessage parent hparent
  have hid : parent ∈ schema.messageIds :=
    mem_messageIds.2 (Nat.lt_trans hlt (lt_size_of_exists ⟨message, hmessage⟩))
  refine ⟨hlt, List.count_eq_one_of_mem (hnested.nodup_nestedTypes hid) ?_⟩
  exact (hnested.mem_nestedTypes_iff hid).2 ⟨message, hmessage, hparent⟩

end

/-- `isSynthetic` in terms of the members. Declarations name oneofs by 32 bits, hence `hsmall`. -/
theorem isSynthetic_iff {config : Config} {files : List FileDecl} {schema : Schema}
    (h : ofFiles config files = .ok schema) (hsmall : schema.oneofs.size < 2 ^ 32) {id : OneofId}
    {oneof : OneofNode} (honeof : schema.oneofs[id.index]? = some oneof) :
    oneof.isSynthetic = true ↔
      ∃ member, oneof.fields = [member] ∧ (schema.field member).proto3Optional = true := by
  have howned := isOwned_ofFiles h
  obtain ⟨message, hmessage⟩ := howned.oneofs.exists_owner honeof rfl
  have hid : oneof.containingType ∈ schema.messageIds := mem_messageIds.2 (lt_size_of_exists ⟨message, hmessage⟩)
  obtain ⟨site, hsite⟩ := exists_originatesAt h hid
  have hin := (howned.mem_oneofs_iff hid).2 ⟨oneof, honeof, rfl⟩
  rw [hsite.oneofs_eq] at hin
  obtain ⟨index, hindex, rfl⟩ := List.mem_map.1 hin
  obtain ⟨hle, hlt⟩ := List.mem_range'_1.1 hindex
  obtain ⟨place, rfl⟩ := Nat.exists_eq_add_of_le hle
  have hsize := lt_size_of_exists ⟨oneof, honeof⟩
  have hiff := hsite.isSynthetic_iff (Nat.lt_of_add_lt_add_left hlt)
    (Nat.lt_of_le_of_lt (Nat.le_add_left place site.start.oneofs) (Nat.lt_trans hsize hsmall))
  rwa [oneof_of_getElem? honeof] at hiff

/-! ## Integrity -/

/-- The elements of a schema refer to each other as they should. -/
structure IsIntact (schema : Schema) : Prop where
  /-- All handles are those of elements. -/
  handles : ∀ handle ∈ schema.handles, schema.Has handle
  /-- A field that is no extension is listed once, by the message that it belongs to and by no other one. -/
  fields : ∀ {id : FieldId} {field : FieldNode}, schema.fields[id.index]? = some field →
    field.isExtension = false → ∃ home ∈ schema.messageIds, field.containingType = some home ∧
      ∀ message ∈ schema.messageIds,
        (schema.message message).fields.count id = if message = home then 1 else 0
  /-- Sorted by their numbers, which are valid and different, the fields of a message are the same fields. -/
  byNumber : ∀ id ∈ schema.messageIds,
    (schema.message id).fieldsByNumber.Perm (schema.message id).fields ∧
      (schema.fieldsByNumber id).Pairwise (·.number < ·.number) ∧
      ∀ field ∈ schema.fieldsByNumber id, isFieldNumber field.number = true
  /-- A field says that it is in a oneof if the oneof lists it. -/
  members : ∀ {id : FieldId} {field : FieldNode}, schema.fields[id.index]? = some field →
    ∀ oneof, field.oneof = some oneof ↔ id ∈ (schema.oneof oneof).fields
  /-- The oneof of a field is one of its message, and it is also its `realOneof` if it was not made up. -/
  oneofs : ∀ {id : FieldId} {field : FieldNode}, schema.fields[id.index]? = some field →
    ∀ {oneof : OneofId}, field.oneof = some oneof →
      field.containingType = some (schema.oneof oneof).containingType ∧
        oneof ∈ (schema.message (schema.oneof oneof).containingType).oneofs ∧
        (field.realOneof = field.oneof ↔ (schema.oneof oneof).isSynthetic = false)
  /-- What a field has as `realOneof` is its oneof, or nothing if there is none that was written. -/
  realOneof : ∀ field ∈ schema.fields, field.realOneof = schema.realOneof? field
  /-- A oneof was made up if its only member is an optional field. -/
  synthetic : ∀ {id : OneofId} {oneof : OneofNode}, schema.oneofs[id.index]? = some oneof →
    (oneof.isSynthetic = true ↔
      ∃ member, oneof.fields = [member] ∧ (schema.field member).proto3Optional = true)
  /-- The written oneofs of a message are those that were not made up, and they come first. -/
  realOneofs : ∀ id ∈ schema.messageIds,
    (schema.message id).realOneofs =
        (schema.message id).oneofs.filter (fun oneof => !(schema.oneof oneof).isSynthetic) ∧
      (schema.message id).realOneofs <+: (schema.message id).oneofs
  targets : ∀ field ∈ schema.fields, field.TargetFits
  /-- No group is a map entry or belongs to one. -/
  groups : ∀ field ∈ schema.fields, field.type = .group →
    ∀ id, field.target = some (.message id) ∨ field.containingType = some id →
      (schema.message id).isMapEntry = false
  /-- A nested message comes behind the one that it is nested in, and is listed there once. -/
  nested : ∀ {id : MessageId} {message : MessageNode}, schema.messages[id.index]? = some message →
    ∀ {parent : MessageId}, message.containingType = some parent →
      parent.index < id.index ∧ (schema.message parent).nestedTypes.count id = 1

/-- `IsIntact` holds of every schema of files. -/
theorem isIntact_ofFiles {config : Config} {files : List FileDecl} {schema : Schema}
    (h : ofFiles config files = .ok schema) (hsmall : schema.oneofs.size < 2 ^ 32) : schema.IsIntact := by
  have hsound := isSound_ofFiles h
  have howned := isOwned_ofFiles h
  have hnested := isNested_ofFiles h
  have hlinked := isLinked_ofFiles h
  constructor
  case handles => exact has_of_mem_handles hsound howned hnested hlinked
  case fields => exact count_fields howned hlinked
  case byNumber =>
    intro id hid
    refine ⟨(hsound.messages (getElem?_of_mem_messageIds hid)).byNumber, pairwise_fieldsByNumber h hid,
      fun field hfield => ?_⟩
    exact isFieldNumber_of_mem_fieldsOf h ((hsound.fieldsByNumber_perm id).mem_iff.1 hfield)
  case members => exact oneof_eq_some_iff howned
  case oneofs =>
    intro id field hfield oneof hof
    obtain ⟨hhome, hin⟩ := containingType_of_oneof hsound howned hfield hof
    exact ⟨hhome, hin, realOneof_eq_oneof_iff hsound (Array.mem_of_getElem? hfield) hof⟩
  case realOneof => exact fun field hfield => hsound.realOneof_eq hfield
  case synthetic => exact isSynthetic_iff h hsmall
  case realOneofs => exact fun id hid => ⟨realOneofs_eq_filter h hid, List.take_prefix _ _⟩
  case targets => exact fun field hfield => (hlinked.fields field hfield).fits
  case groups => exact fun field hfield => (hlinked.fields field hfield).group
  case nested => exact count_nestedTypes hnested

/-- An atlas of places: a map, a group, oneofs of both sorts, an extension and a service. -/
def atlasFile : FileDecl where
  name := "atlas.proto"
  messageType := [
    { name := "Atlas"
      field := [
        { name := "places", number := 2, label := .repeated, type := .message,
          typeName := some ".Atlas.PlacesEntry" },
        { name := "legend", number := 1, type := .group, typeName := some "Atlas.Legend" },
        { name := "title", number := 4, type := .string, oneofIndex := some 0 },
        { name := "code", number := 3, oneofIndex := some 0 },
        { name := "year", number := 5, oneofIndex := some 1, proto3Optional := true }]
      oneofDecl := [{ name := "heading" }, { name := "_year" }]
      nestedType := [
        { name := "PlacesEntry"
          field := [
            { name := "key", number := 1 },
            { name := "value", number := 2, type := .enum, typeName := some ".Atlas.Kind" }]
          options := some { mapEntry := true } },
        { name := "Legend" }]
      enumType := [{ name := "Kind", value := [{ name := "CITY" }] }]
      extension := [{ name := "scale", number := 100, extendee := some ".Atlas" }] }]
  service := [
    { name := "Atlases", method := [{ name := "Find", inputType := "Atlas", outputType := ".Atlas" }] }]

/-- `IsIntact` for the schema of `atlasFile`. -/
theorem isIntact_atlas : ∃ schema, ofFiles {} [atlasFile] = .ok schema ∧
    schema.oneofs.size < 2 ^ 32 ∧ schema.IsIntact := by
  obtain ⟨schema, hschema⟩ := exists_ofFiles_proto2 atlasFile rfl rfl (by cbv)
  have hsmall : schema.oneofs.size < 2 ^ 32 := by
    rw [oneofs_of_ofFiles (ofTable_proto2 rfl) hschema]
    decide
  exact ⟨schema, hschema, hsmall, isIntact_ofFiles hschema hsmall⟩

end Schema

end SchemaLayout
