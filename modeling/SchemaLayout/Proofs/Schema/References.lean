import SchemaLayout.Proofs.Schema.Nesting

/-!
# References

What linking makes of the references of a file: fields refer to what fits their types, groups stay away from
map entries, and everything that is referred to is in the schema (`isLinked_ofFiles`). Names lead only to
elements that are there already, and what is there stays as it is when more files are added.
-/

namespace SchemaLayout

/-! ## Handles -/

/-- A number by which an element refers to another one. -/
inductive Handle where
  | file (id : FileId)
  | message (id : MessageId)
  | field (id : FieldId)
  | oneof (id : OneofId)
  | enum (id : EnumId)
  | value (id : EnumValueId)
  | service (id : ServiceId)
  | method (id : MethodId)
  deriving DecidableEq

def TypeRef.handle : TypeRef → Handle
  | message id => .message id
  | enum id => .enum id

/-- The handle is that of an element of the schema. -/
def Schema.Has (schema : Schema) : Handle → Prop
  | .file id => id.index < schema.files.size
  | .message id => id.index < schema.messages.size
  | .field id => id.index < schema.fields.size
  | .oneof id => id.index < schema.oneofs.size
  | .enum id => id.index < schema.enums.size
  | .value id => id.index < schema.values.size
  | .service id => id.index < schema.services.size
  | .method id => id.index < schema.methods.size

/-- An array that keeps the elements of another one is not smaller. -/
theorem size_le_of_getElem? {α : Type} {before after : Array α}
    (h : ∀ {index : Nat} {a : α}, before[index]? = some a → after[index]? = some a) :
    before.size ≤ after.size := by
  by_contra hlt
  have hlast := h (Array.getElem?_eq_getElem (Nat.lt_of_not_le hlt))
  exact Nat.lt_irrefl _ (Array.getElem?_eq_some_iff.1 hlast).1

/-- `Has` stays true in a larger schema. -/
theorem Schema.Has.of_isPartOf {before after : Schema} {handle : Handle} (h : before.Has handle)
    (hpart : before.IsPartOf after) : after.Has handle := by
  cases handle with
  | file id => exact Nat.lt_of_lt_of_le h (size_le_of_getElem? hpart.files)
  | message id => exact Nat.lt_of_lt_of_le h (size_le_of_getElem? hpart.messages)
  | field id => exact Nat.lt_of_lt_of_le h (size_le_of_getElem? hpart.fields)
  | oneof id => exact Nat.lt_of_lt_of_le h (size_le_of_getElem? hpart.oneofs)
  | enum id => exact Nat.lt_of_lt_of_le h (size_le_of_getElem? hpart.enums)
  | value id => exact Nat.lt_of_lt_of_le h (size_le_of_getElem? hpart.values)
  | service id => exact Nat.lt_of_lt_of_le h (size_le_of_getElem? hpart.services)
  | method id => exact Nat.lt_of_lt_of_le h (size_le_of_getElem? hpart.methods)

/-! ## Linked fields -/

/-- Messages and groups refer to messages, enums to enums, and everything else to nothing. -/
def FieldNode.TargetFits (field : FieldNode) : Prop :=
  match field.type with
  | .message | .group => ∃ id, field.target = some (.message id)
  | .enum => ∃ id, field.target = some (.enum id)
  | _ => field.target = none

theorem FieldNode.TargetFits.exists_message {field : FieldNode} (h : field.TargetFits)
    (hgroup : field.type = .group) : ∃ id, field.target = some (.message id) := by
  rw [TargetFits, hgroup] at h
  exact h

theorem isMessageLike_eq_true_iff {type : FieldType} :
    type.isMessageLike = true ↔ type = .message ∨ type = .group := by
  cases type <;> simp [FieldType.isMessageLike]

namespace Linking

variable {context : Context} {draft : FieldDraft}

/-- `Linking.field` gives `TargetFits`. -/
theorem targetFits_of_field {node : FieldNode} (h : field context draft = .ok node) : node.TargetFits := by
  obtain ⟨container, found, _, hfound, rfl⟩ := field_eq_ok_iff.1 h
  have htarget := target_cases hfound
  simp only [FieldNode.TargetFits, linked]
  generalize draft.node.type = type at htarget
  rcases htarget with ⟨rfl, _, id, rfl, _⟩ | ⟨hmessage, _, id, rfl, _⟩ | ⟨henum, hmessage, rfl⟩
  · exact ⟨id, rfl⟩
  · rcases isMessageLike_eq_true_iff.1 hmessage with rfl | rfl
    · exact ⟨id, rfl⟩
    · -- A group may become a message, and either refers to a message.
      simp only [linkedType]
      generalize ((context.message id).isMapEntry || container.any fun id =>
        (context.message id).isMapEntry) = involved
      cases involved <;> exact ⟨id, rfl⟩
  · cases type <;> simp_all [FieldType.isMessageLike, linkedType]

/-- `linkedType` leaves a group only where no map entry is involved. -/
theorem isMapEntry_of_linkedType {container : Option MessageId} {found : Option TypeRef} {type : FieldType}
    (h : linkedType context container found type = .group) {id : MessageId} (hfound : found = some (.message id)) :
    (context.message id).isMapEntry = false ∧
      ∀ outer, container = some outer → (context.message outer).isMapEntry = false := by
  subst hfound
  have htype : type = .group := by
    cases type <;> first | rfl | exact h
  subst htype
  simp only [linkedType] at h
  split at h
  · cases h
  · next hplain =>
    rw [Bool.or_eq_true, not_or, Bool.not_eq_true, Bool.not_eq_true] at hplain
    refine ⟨hplain.1, fun outer houter => ?_⟩
    rw [houter] at hplain
    exact hplain.2

end Linking

namespace Schema

/-! ## Linked schemas -/

/-- What a field refers to is in the schema and fits the field. -/
structure LinksField (schema : Schema) (field : FieldNode) : Prop where
  file : schema.Has (.file field.file)
  /-- Only extensions are declared elsewhere than in the message that they belong to. -/
  declaredIn : field.isExtension = false →
    ∃ id, field.containingType = some id ∧ field.declaredIn = some id
  containingType : ∀ id, field.containingType = some id → schema.Has (.message id)
  target : ∀ ref, field.target = some ref → schema.Has ref.handle
  fits : field.TargetFits
  /-- No group is a map entry or belongs to one. -/
  group : field.type = .group → ∀ id, field.target = some (.message id) ∨ field.containingType = some id →
    (schema.message id).isMapEntry = false

/-- What the elements and names of a schema refer to is in the schema. -/
structure IsLinked (schema : Schema) : Prop where
  fields : ∀ field ∈ schema.fields, schema.LinksField field
  methods : ∀ method ∈ schema.methods,
    schema.Has (.message method.inputType) ∧ schema.Has (.message method.outputType)
  dependencies : ∀ file ∈ schema.files, ∀ id ∈ file.dependencies, schema.Has (.file id)
  enums : ∀ enum ∈ schema.enums, schema.Has (.file enum.file)
  services : ∀ service ∈ schema.services, schema.Has (.file service.file)
  fileNames : ∀ {name : String} {id : FileId}, schema.directory.file? name = some id → schema.Has (.file id)
  messageNames : ∀ {key : String} {id : MessageId},
    schema.directory.types.find? key = some (.message id) → schema.Has (.message id)
  enumNames : ∀ {key : String} {id : EnumId},
    schema.directory.types.find? key = some (.enum id) → schema.Has (.enum id)

theorem LinksField.of_isPartOf {before after : Schema} {field : FieldNode} (h : before.LinksField field)
    (hpart : before.IsPartOf after) : after.LinksField field where
  file := h.file.of_isPartOf hpart
  declaredIn := h.declaredIn
  containingType id hid := (h.containingType id hid).of_isPartOf hpart
  target ref href := (h.target ref href).of_isPartOf hpart
  fits := h.fits
  group hgroup id hid := by
    have hhas : before.Has (.message id) := hid.elim (h.target (.message id)) (h.containingType id)
    have hmessage := getElem?_of_mem_messageIds (mem_messageIds.2 hhas)
    rw [message_of_getElem? (hpart.messages hmessage)]
    exact h.group hgroup id hid

theorem isLinked_empty : empty.IsLinked := by
  constructor <;> simp [empty, Directory.empty, Directory.file?, OrderedMap.find?_empty]

/-- `Linking.field` with the names and messages of a schema gives `LinksField`. -/
theorem linksField_of_field {schema : Schema} {directory : Directory} {draft : FieldDraft} {field : FieldNode}
    (hmessageNames : ∀ {key : String} {id : MessageId},
      directory.types.find? key = some (.message id) → schema.Has (.message id))
    (henumNames : ∀ {key : String} {id : EnumId},
      directory.types.find? key = some (.enum id) → schema.Has (.enum id))
    (hfile : schema.Has (.file draft.node.file))
    (hdeclaredIn : draft.node.isExtension = false →
      ∃ id, draft.node.containingType = some id ∧ draft.node.declaredIn = some id)
    (hextendee : draft.node.isExtension = false → draft.extendee = none)
    (hcontainer : ∀ id, draft.node.containingType = some id → schema.Has (.message id))
    (h : Linking.field ⟨directory, schema.messages⟩ draft = .ok field) : schema.LinksField field := by
  have hfits := Linking.targetFits_of_field h
  obtain ⟨container, found, hbelongs, hfound, rfl⟩ := Linking.field_eq_ok_iff.1 h
  -- A field belongs to the message around it, or to the one whose name it extends.
  have hin (id : MessageId) (hid : container = some id) : schema.Has (.message id) := by
    rcases Linking.container_of_containingType hbelongs with rfl | ⟨key, other, rfl, hkey⟩
    · exact hcontainer id hid
    · cases hid
      exact hmessageNames hkey
  constructor
  case file => exact hfile
  case fits => exact hfits
  case containingType => exact hin
  case declaredIn =>
    intro hdeclared
    -- Without an extendee, linking leaves what the draft says.
    rw [Linking.containingType, hextendee hdeclared] at hbelongs
    cases hbelongs
    exact hdeclaredIn hdeclared
  case target =>
    intro ref href
    rcases Linking.target_cases hfound with ⟨_, key, id, hid, hkey⟩ | ⟨_, key, id, hid, hkey⟩ | ⟨_, _, hnone⟩
    · cases hid.symm.trans href
      exact henumNames hkey
    · cases hid.symm.trans href
      exact hmessageNames hkey
    · cases hnone.symm.trans href
  case group =>
    intro hgroup id hid
    obtain ⟨target, htarget⟩ := hfits.exists_message hgroup
    obtain ⟨hplain, houter⟩ := Linking.isMapEntry_of_linkedType hgroup htarget
    rcases hid with hid | hid
    · cases htarget.symm.trans hid
      exact hplain
    · exact houter id hid

/-- `addDeclarations` keeps `IsLinked`. -/
theorem isLinked_addDeclarations {schema next : Schema} {rules : FeatureRules} {decl : FileDecl}
    (h : schema.IsLinked) (hadd : schema.addDeclarations rules decl = .ok next) : next.IsLinked := by
  obtain ⟨directory, dependencies, fields, methods, hregister, hdependencies, hfields, hmethods, rfl⟩ :=
    addDeclarations_eq_ok_iff.1 hadd
  have hnew := (Numbering.built_file ⟨rules, ⟨schema.files.size⟩⟩ schema.counts decl).isConsistent
  generalize Numbering.file ⟨rules, ⟨schema.files.size⟩⟩ schema.counts decl = numbered at *
  have hpart := isPartOf_extend schema directory { numbered.1 with dependencies } numbered.2 fields methods
  have hfile : Has (schema.extend directory { numbered.1 with dependencies } numbered.2 fields methods)
      (.file ⟨schema.files.size⟩) :=
    Nat.lt_of_lt_of_eq (Nat.lt_succ_self _) (Array.size_push _).symm
  have hadded {α : Type} {array : Array α} {list : List α} {index : Nat}
      (hindex : ∃ a, numbered? array.size list index = some a) : index < (array ++ list).size := by
    obtain ⟨a, ha⟩ := hindex
    exact (Array.getElem?_eq_some_iff.1 (getElem?_append_eq_some_iff.2 (Or.inr ha))).1
  -- A name leads to what was there before or to what comes with the file.
  have hmessageNames {key : String} {id : MessageId} (hkey : directory.types.find? key = some (.message id)) :
      Has (schema.extend directory { numbered.1 with dependencies } numbered.2 fields methods) (.message id) := by
    rcases (find?_of_register hregister).1 hkey with hold | hentered
    · exact (h.messageNames hold).of_isPartOf hpart
    · exact hadded (hnew.entered key id hentered)
  have henumNames {key : String} {id : EnumId} (hkey : directory.types.find? key = some (.enum id)) :
      Has (schema.extend directory { numbered.1 with dependencies } numbered.2 fields methods) (.enum id) := by
    rcases (find?_of_register hregister).1 hkey with hold | hentered
    · exact (h.enumNames hold).of_isPartOf hpart
    · exact hadded (hnew.enteredEnum key id hentered)
  have hfileNames {name : String} {id : FileId} (hname : directory.file? name = some id) :
      Has (schema.extend directory { numbered.1 with dependencies } numbered.2 fields methods) (.file id) := by
    rw [file?_of_register hregister] at hname
    split at hname
    · cases hname
      exact hfile
    · exact (h.fileNames hname).of_isPartOf hpart
  constructor
  case fileNames => exact hfileNames
  case messageNames => exact hmessageNames
  case enumNames => exact henumNames
  case fields =>
    intro field hfield
    rcases mem_append_list_iff.1 hfield with hold | hfield
    · exact (h.fields field hold).of_isPartOf hpart
    · obtain ⟨draft, hdraft, hlink⟩ := exists_mem_of_mapM hfields hfield
      exact linksField_of_field hmessageNames henumNames (hnew.field_file draft hdraft ▸ hfile)
        (hnew.declaredIn draft hdraft) (hnew.extendee draft hdraft)
        (fun id hid => hadded (hnew.container draft hdraft id hid)) hlink
  case methods =>
    intro method hmethod
    rcases mem_append_list_iff.1 hmethod with hold | hmethod
    · obtain ⟨hinput, houtput⟩ := h.methods method hold
      exact ⟨hinput.of_isPartOf hpart, houtput.of_isPartOf hpart⟩
    · obtain ⟨draft, _, hlink⟩ := exists_mem_of_mapM hmethods hmethod
      obtain ⟨input, output, hinput, houtput, rfl⟩ := Linking.method_eq_ok_iff.1 hlink
      exact ⟨hmessageNames (Linking.findMessage_eq_ok_iff.1 hinput),
        hmessageNames (Linking.findMessage_eq_ok_iff.1 houtput)⟩
  case dependencies =>
    intro file hmem id hid
    rcases Array.mem_push.1 hmem with hold | rfl
    · exact (h.dependencies file hold id hid).of_isPartOf hpart
    · obtain ⟨name, _, hname⟩ := exists_mem_of_mapM hdependencies hid
      exact hfileNames (elim_throw_eq_ok_iff.1 hname)
  case enums =>
    intro enum henum
    rcases mem_append_list_iff.1 henum with hold | henum
    · exact (h.enums enum hold).of_isPartOf hpart
    · exact hnew.enum_file enum henum ▸ hfile
  case services =>
    intro service hservice
    rcases mem_append_list_iff.1 hservice with hold | hservice
    · exact (h.services service hold).of_isPartOf hpart
    · exact hnew.service_file service hservice ▸ hfile

/-- `IsLinked` holds of every schema of files. -/
theorem isLinked_ofFiles {config : Config} {files : List FileDecl} {schema : Schema}
    (h : ofFiles config files = .ok schema) : schema.IsLinked := by
  refine foldlM_preserves (fun schema decl next hschema hnext => ?_) isLinked_empty h
  obtain ⟨rules, _, hadd⟩ := addFile_eq_ok_iff.1 hnext
  exact isLinked_addDeclarations hschema hadd

end Schema

end SchemaLayout
