import SchemaLayout.Proofs.Schema.Inheritance

/-!
# Owners of fields

The message that a field belongs to is the one that it was declared in, that of an extension the one that its
declaration names. A declaration need not name one, and linking accepts an extension that extends nothing: it
becomes a field without owner. There are no other fields without owner (`exists_owner_iff`), and methods always
have both their messages.
-/

namespace SchemaLayout

namespace Linking

/-- A linked field belongs to nothing iff its draft has neither `extendee` nor `containingType`. -/
theorem containingType_eq_none_iff {context : Context} {draft : FieldDraft} {node : FieldNode}
    (h : field context draft = .ok node) :
    node.containingType = none ↔ draft.extendee = none ∧ draft.node.containingType = none := by
  obtain ⟨container, found, hcontainer, _, rfl⟩ := field_eq_ok_iff.1 h
  show container = none ↔ _
  rw [containingType] at hcontainer
  cases hextendee : draft.extendee with
  | none =>
    rw [hextendee] at hcontainer
    cases hcontainer
    exact (and_iff_right rfl).symm
  | some extendee =>
    rw [hextendee] at hcontainer
    obtain ⟨home, _, hcontainer⟩ := except_bind_eq_ok_iff.1 hcontainer
    cases hcontainer
    simp

theorem isExtension_of_field {context : Context} {draft : FieldDraft} {node : FieldNode}
    (h : field context draft = .ok node) : node.isExtension = draft.node.isExtension := by
  obtain ⟨_, _, _, _, rfl⟩ := field_eq_ok_iff.1 h
  rfl

end Linking

namespace Schema

variable {schema : Schema}

/-! ## What fields were declared as -/

/-- The field is `Linking.field` of `Numbering.field` of its declaration. Only extensions are declared outside
messages. -/
def IsDeclaredAs (schema : Schema) (id : FieldId) (decl : FieldDecl) : Prop :=
  ∃ context declaredIn scope inherited isExtension oneof realOneof linking field,
    schema.fields[id.index]? = some field ∧
      Linking.field linking
        (Numbering.field context declaredIn scope inherited isExtension oneof realOneof decl) = .ok field ∧
      (isExtension = false → declaredIn ≠ none)

section

variable {context : Numbering.Context} {start : Counts} {inherited : Features}

theorem isDeclaredAs_of_mem_extensions {declaredIn : Option MessageId} {scope : String} {decls : List FieldDecl}
    (h : schema.HasAdded start (Numbering.extensions context declaredIn scope inherited decls))
    {entry : FieldId × FieldDecl} (hentry : entry ∈ (Numbering.fieldIds start.fields decls.length).zip decls) :
    schema.IsDeclaredAs entry.1 entry.2 := by
  obtain ⟨index, hid, hdecl⟩ := exists_numbered?_of_mem_zip hentry
  obtain ⟨linking, field, hfield, hlink⟩ :=
    h.fields ((numbered?_map _ _ _ _).trans (congrArg (Option.map _) hdecl))
  rw [hid]
  exact ⟨_, _, _, _, _, _, _, linking, field, hfield, hlink, fun hplain => by cases hplain⟩

/-- `IsDeclaredAs` for the fields of a message. -/
theorem isDeclaredAs_of_mem_fields {id : MessageId} {decl : MessageDecl}
    (h : schema.IsMadeOf context inherited (.message id decl)) {entry : FieldId × FieldDecl}
    (hentry : entry ∈ (schema.message id).fields.zip decl.field) :
    schema.IsDeclaredAs entry.1 entry.2 := by
  obtain ⟨start, container, scope, rfl, h⟩ := h
  obtain ⟨hhead, _⟩ := h.message_parts
  have hmessage := @message_of_getElem? schema ⟨start.messages⟩ _ (hhead.messages (numbered?_add 0 _))
  rw [hmessage] at hentry
  obtain ⟨index, hid, hdecl⟩ := exists_numbered?_of_mem_zip hentry
  obtain ⟨linking, field, hfield, hlink⟩ :=
    hhead.fields ((numbered?_map _ _ _ _).trans (congrArg (Option.map _) hdecl))
  rw [hid]
  exact ⟨_, _, _, _, _, _, _, linking, field, hfield, hlink, fun _ => Option.some_ne_none _⟩

/-- `IsDeclaredAs` for the extensions in a file or in a message. -/
theorem isDeclaredAs_of_mem_inside {outer : Element} (h : schema.IsMadeOf context inherited outer)
    {id : FieldId} {decl : FieldDecl} (hinner : .field id decl ∈ schema.inside outer) :
    schema.IsDeclaredAs id decl := by
  -- Of all that stands in a file or in a message, only the extensions are fields.
  cases outer with
  | file file top =>
    obtain ⟨rfl, start, dependencies, hfile, h⟩ := h
    obtain ⟨_, _, _, hextensions⟩ := h.file_parts
    have hfile := file_of_getElem? hfile
    rw [Numbering.file] at hfile
    simp only [Schema.inside, hfile, List.mem_append, List.mem_map, reduceCtorEq, and_false, exists_false,
      false_or, Element.field.injEq] at hinner
    obtain ⟨entry, hentry, rfl, rfl⟩ := hinner
    rw [← Numbering.fields_add_counts (Numbering.fields_services _ _ _)] at hentry
    exact isDeclaredAs_of_mem_extensions hextensions hentry
  | message message decl =>
    obtain ⟨start, container, scope, rfl, h⟩ := h
    obtain ⟨hhead, _, _, hextensions⟩ := h.message_parts
    have hmessage := @message_of_getElem? schema ⟨start.messages⟩ _ (hhead.messages (numbered?_add 0 _))
    simp only [Schema.inside, hmessage, List.mem_append, List.mem_map, reduceCtorEq, and_false, exists_false,
      false_or, Element.field.injEq] at hinner
    obtain ⟨entry, hentry, rfl, rfl⟩ := hinner
    rw [← Numbering.fields_add_counts (Numbering.fields_enums _ _ _)] at hentry
    exact isDeclaredAs_of_mem_extensions hextensions hentry
  | enum => simp [Schema.inside] at hinner
  | service => simp [Schema.inside] at hinner
  | field | oneof | value | method => exact absurd hinner List.not_mem_nil

end

/-- A field with a scope satisfies `IsDeclaredAs`. -/
theorem HasScope.isDeclaredAs {config : Config} {files : List FileDecl} (h : ofFiles config files = .ok schema)
    {top : FileDecl} {id : FieldId} {decl : FieldDecl} {sets : List FeatureSet}
    (hscope : schema.HasScope files top (.field id decl) sets) : schema.IsDeclaredAs id decl := by
  obtain ⟨rules, row, hrules, _, _, hcomplete⟩ := hscope.exists_rules h
  cases hscope with
  | inside houter hinner =>
    obtain ⟨_, _, _, hmade, _⟩ := houter.exists_inherited h hrules hcomplete
    exact isDeclaredAs_of_mem_inside hmade hinner
  | field hmessage hfield _ =>
    obtain ⟨_, _, _, hmade, _⟩ := hmessage.exists_inherited h hrules hcomplete
    exact isDeclaredAs_of_mem_fields hmade hfield
  | member hmessage hfield _ _ =>
    obtain ⟨_, _, _, hmade, _⟩ := hmessage.exists_inherited h hrules hcomplete
    exact isDeclaredAs_of_mem_fields hmade hfield

/-! ## Fields without owner -/

namespace IsDeclaredAs

variable {id : FieldId} {decl : FieldDecl} (h : schema.IsDeclaredAs id decl)

include h

/-- A field belongs to nothing iff it is an extension without `extendee`. -/
theorem containingType_eq_none_iff : (schema.field id).containingType = none ↔
    (schema.field id).isExtension = true ∧ decl.extendee = none := by
  obtain ⟨context, declaredIn, scope, inherited, isExtension, oneof, realOneof, linking, field, hfield, hlink,
    hplain⟩ := h
  rw [field_of_getElem? hfield, Linking.containingType_eq_none_iff hlink, Linking.isExtension_of_field hlink]
  cases isExtension with
  | true => simp [Numbering.field]
  | false => simpa [Numbering.field] using hplain rfl

theorem has : schema.Has (.field id) := by
  obtain ⟨_, _, _, _, _, _, _, _, field, hfield, _⟩ := h
  exact lt_size_of_exists ⟨field, hfield⟩

theorem mem_fields : schema.field id ∈ schema.fields := by
  obtain ⟨_, _, _, _, _, _, _, _, field, hfield, _⟩ := h
  rw [field_of_getElem? hfield]
  exact Array.mem_of_getElem? hfield

end IsDeclaredAs

/-- `owner` in terms of `containingType`. -/
theorem owner_eq_ok_iff {field : FieldNode} {home : MessageId} :
    field.owner = .ok home ↔ field.containingType = some home :=
  elim_throw_eq_ok_iff

theorem owner_eq_error_of_containingType {field : FieldNode} (h : field.containingType = none) :
    field.owner = .error (.noContainingType field.fullName) := by
  rw [FieldNode.owner, h]
  rfl

/-- A field has an `owner` in the schema unless it is an extension whose declaration has no `extendee`: then
asking for its owner is a fault. Both messages of a method are in the schema. -/
theorem exists_owner_iff {config : Config} {files : List FileDecl} (h : ofFiles config files = .ok schema) :
    (∀ id, schema.Has (.field id) →
      ∃ top decl sets, schema.HasScope files top (.field id decl) sets) ∧
    (∀ {top : FileDecl} {id : FieldId} {decl : FieldDecl} {sets : List FeatureSet},
      schema.HasScope files top (.field id decl) sets →
        ((∃ home ∈ schema.messageIds, (schema.field id).owner = .ok home) ↔
          ((schema.field id).isExtension = true → decl.extendee ≠ none)) ∧
        ((schema.field id).isExtension = true → decl.extendee = none →
          (schema.field id).owner = .error (.noContainingType (schema.field id).fullName))) ∧
    ∀ method ∈ schema.methods,
      method.inputType ∈ schema.messageIds ∧ method.outputType ∈ schema.messageIds := by
  have hlinked := isLinked_ofFiles h
  refine ⟨fun id hid => exists_scope_field h hid, fun {top id decl sets} hscope => ?_, fun method hmethod => ?_⟩
  · have hdecl := hscope.isDeclaredAs h
    have hnone := hdecl.containingType_eq_none_iff
    refine ⟨?_, fun hextension hextendee =>
      owner_eq_error_of_containingType (hnone.2 ⟨hextension, hextendee⟩)⟩
    rw [← not_and, ← hnone, ← ne_eq, Option.ne_none_iff_exists']
    -- What a field says that it belongs to is in the schema.
    have hin (home : MessageId) (hhome : (schema.field id).containingType = some home) :
        home ∈ schema.messageIds :=
      mem_messageIds.2 ((hlinked.fields _ hdecl.mem_fields).containingType home hhome)
    refine exists_congr fun home => ?_
    rw [owner_eq_ok_iff]
    exact and_iff_right_of_imp (hin home)
  · obtain ⟨hinput, houtput⟩ := hlinked.methods method hmethod
    exact ⟨mem_messageIds.2 hinput, mem_messageIds.2 houtput⟩

/-! ## A label for nothing -/

/-- Labels for parcels, of which `urgent` does not say that it is for parcels. -/
def parcelFile : FileDecl where
  name := "parcel.proto"
  messageType := [{ name := "Parcel", field := [{ name := "weight", number := 1 }] }]
  service := [{ name := "Post", method := [{ name := "Send", inputType := "Parcel", outputType := "Parcel" }] }]
  extension := [
    { name := "fragile", number := 100, type := .bool, extendee := some "Parcel" },
    { name := "urgent", number := 101, type := .bool }]

theorem exists_ofFiles_parcel : ∃ schema, ofFiles {} [parcelFile] = .ok schema :=
  exists_ofFiles_proto2 parcelFile rfl rfl (by cbv)

/-- The labels are extensions in `parcelFile`. -/
theorem hasScope_label (h : ofFiles {} [parcelFile] = .ok schema) (place : Nat) {label : FieldDecl}
    (hlabel : parcelFile.extension[place]? = some label) :
    (schema.field ⟨1 + place⟩).isExtension = true ∧
      ∃ sets, schema.HasScope [parcelFile] parcelFile (.field ⟨1 + place⟩ label) sets := by
  constructor
  · obtain ⟨linking, hfields⟩ := mapM_field_of_ofFiles (ofTable_proto2 rfl) h
    have hdraft : (Numbering.file ⟨proto2Rules, ⟨0⟩⟩ {} parcelFile).2.fields[1 + place]? =
        (parcelFile.extension[place]?).map
          (Numbering.field ⟨proto2Rules, ⟨0⟩⟩ none "" proto2Rules.defaults true none none) := by
      rw [← List.getElem?_map, Nat.add_comm]
      rfl
    rw [hlabel, Option.map_some] at hdraft
    obtain ⟨field, hfield, hlink⟩ := exists_getElem?_of_mapM hfields hdraft
    rw [Array.getElem?_toList] at hfield
    rw [@field_of_getElem? schema ⟨1 + place⟩ _ hfield, Linking.isExtension_of_field hlink]
    rfl
  · obtain ⟨dependencies, hfiles⟩ := files_of_ofFiles (ofTable_proto2 rfl) h
    have hfile := @file_of_getElem? schema ⟨0⟩ _ (congrArg (·[0]?) hfiles)
    have htop : schema.HasScope [parcelFile] parcelFile (.file ⟨0⟩ parcelFile) _ := .file rfl
    have hplace : place < 2 := (List.getElem?_eq_some_iff.1 hlabel).1
    have hid : (Numbering.fieldIds 1 2)[place]? = some ⟨1 + place⟩ := by
      rw [Numbering.fieldIds, List.getElem?_map, List.getElem?_range' hplace, Option.map_some, Nat.one_mul]
    refine ⟨_, htop.inside ?_⟩
    rw [Schema.inside, hfile]
    refine List.mem_append_right _ (List.mem_map.2 ⟨(⟨1 + place⟩, label), ?_, rfl⟩)
    exact List.mem_of_getElem? (List.getElem?_zip_eq_some.2 ⟨hid, hlabel⟩)

/-- `fragile` has an owner, and that of `urgent` is a fault. -/
theorem exists_owner_iff_label : ∃ schema, ofFiles {} [parcelFile] = .ok schema ∧
    (∃ home ∈ schema.messageIds, (schema.field ⟨1⟩).owner = .ok home) ∧
      (schema.field ⟨2⟩).owner = .error (.noContainingType (schema.field ⟨2⟩).fullName) ∧
        ∀ method ∈ schema.methods, method.inputType ∈ schema.messageIds := by
  obtain ⟨schema, hschema⟩ := exists_ofFiles_parcel
  obtain ⟨_, howners, hmethods⟩ := exists_owner_iff hschema
  obtain ⟨_, _, hfragile⟩ := hasScope_label hschema 0 rfl
  obtain ⟨hextension, _, hurgent⟩ := hasScope_label hschema 1 rfl
  exact ⟨schema, hschema, (howners hfragile).1.2 fun _ => Option.some_ne_none _,
    (howners hurgent).2 hextension rfl, fun method hmethod => (hmethods method hmethod).1⟩

/-- `urgent` has no owner. -/
theorem not_exists_owner_urgent : ∃ schema, ofFiles {} [parcelFile] = .ok schema ∧
    schema.Has (.field ⟨2⟩) ∧ ¬ ∃ home, (schema.field ⟨2⟩).owner = .ok home := by
  obtain ⟨schema, hschema⟩ := exists_ofFiles_parcel
  obtain ⟨hextension, sets, hscope⟩ := hasScope_label hschema 1 rfl
  have hdecl := hscope.isDeclaredAs hschema
  have howner := owner_eq_error_of_containingType (hdecl.containingType_eq_none_iff.2 ⟨hextension, rfl⟩)
  refine ⟨schema, hschema, hdecl.has, ?_⟩
  rintro ⟨home, hhome⟩
  cases howner.symm.trans hhome

end Schema

end SchemaLayout
