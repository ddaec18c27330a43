import SchemaLayout.Proofs.Data.Except
import SchemaLayout.Proofs.Data.OrderedMap
import SchemaLayout.Schema.Linking

/-!
# Registered names and linked fields

The names that a directory knows after registration are those that it knew before and those that were
entered (`find?_takeAll`). A linked field is its draft with another type and with references that were
found in the directory (`field_eq_ok_iff`).
-/

namespace SchemaLayout

/-! ## Names -/

namespace Directory

theorem message?_eq_some_iff {directory : Directory} {key : String} {id : MessageId} :
    directory.message? key = some id ↔ directory.types.find? key = some (.message id) := by
  rw [message?]
  split <;> simp_all

theorem enum?_eq_some_iff {directory : Directory} {key : String} {id : EnumId} :
    directory.enum? key = some id ↔ directory.types.find? key = some (.enum id) := by
  rw [enum?]
  split <;> simp_all

theorem service?_eq_some_iff {directory : Directory} {key : String} {id : ServiceId} :
    directory.service? key = some id ↔ directory.types.find? key = some (.service id) := by
  rw [service?]
  split <;> simp_all

end Directory

/-! ## Registration -/

namespace Registration

/-- The name that a step enters, and what it stands for. -/
def entry? : Registration → Option (String × Definition)
  | enter key definition => some (key, definition)
  | require _ _ => none

/-- The condition of a step holds, if it has one. -/
def holds : Registration → Bool
  | enter _ _ => true
  | require condition _ => condition

/-- `take` of a name, which has to be new. -/
theorem take_enter_eq_ok_iff {directory next : Directory} {key : String} {definition : Definition} :
    take directory (.enter key definition) = .ok next ↔
      directory.types.find? key = none ∧ next = directory.insertType key definition := by
  rw [take]
  cases directory.types.find? key with
  | none => simp [eq_comm]
  | some found => simp

/-- `take` of a condition, which leaves the directory alone. -/
theorem take_require_eq_ok_iff {directory next : Directory} {condition : Bool} {fault : Fault} :
    take directory (.require condition fault) = .ok next ↔ condition = true ∧ next = directory := by
  cases condition <;> simp [take, eq_comm]

/-- `takeAll` keeps the names that are known, and adds those that are entered. -/
theorem find?_takeAll {steps : List Registration} {directory next : Directory}
    (h : takeAll steps directory = .ok next) (key : String) (definition : Definition) :
    next.types.find? key = some definition ↔
      directory.types.find? key = some definition ∨ .enter key definition ∈ steps := by
  induction steps generalizing directory with
  | nil =>
    cases h
    simp
  | cons step rest ih =>
    rw [takeAll, List.foldlM_cons, except_bind_eq_ok_iff] at h
    obtain ⟨middle, hstep, hrest⟩ := h
    rw [ih hrest]
    cases step with
    | require condition fault =>
      obtain ⟨_, rfl⟩ := take_require_eq_ok_iff.1 hstep
      simp
    | enter entered meaning =>
      obtain ⟨hfresh, rfl⟩ := take_enter_eq_ok_iff.1 hstep
      rw [Directory.insertType, OrderedMap.find?_insert]
      by_cases hkey : entered = key
      · -- The name was not known before, so it means what was entered now.
        subst hkey
        simp only [if_true, hfresh, Option.some.injEq, List.mem_cons, enter.injEq, true_and,
          reduceCtorEq, false_or]
        exact or_congr_left eq_comm
      · have hne : key ≠ entered := fun heq => hkey heq.symm
        simp [hkey, hne]

theorem files_of_takeAll {steps : List Registration} {directory next : Directory}
    (h : takeAll steps directory = .ok next) : next.files = directory.files := by
  refine foldlM_preserves (P := fun middle : Directory => middle.files = directory.files)
    (fun middle step last hmiddle hstep => ?_) rfl h
  cases step with
  | enter key definition => rw [(take_enter_eq_ok_iff.1 hstep).2, ← hmiddle]; rfl
  | require condition fault => rw [(take_require_eq_ok_iff.1 hstep).2, hmiddle]

end Registration

/-! ## Linking -/

namespace Linking

/-- `Linking.field` in terms of `containingType`, `target` and `linked`. -/
theorem field_eq_ok_iff {context : Context} {draft : FieldDraft} {node : FieldNode} :
    field context draft = .ok node ↔
      ∃ container found, containingType context draft = .ok container ∧
        target context draft = .ok found ∧ node = linked context draft.node container found := by
  simp only [field, except_bind_eq_ok_iff]
  constructor
  · intro h
    rcases h with ⟨container, hcontainer, found, hfound, h⟩
    cases h
    exact ⟨container, found, hcontainer, hfound, rfl⟩
  · intro h
    rcases h with ⟨container, found, hcontainer, hfound, rfl⟩
    exact ⟨container, hcontainer, found, hfound, rfl⟩

/-- `Linking.method` finds both messages and keeps everything else of the draft. -/
theorem method_eq_ok_iff {context : Context} {draft : MethodDraft} {node : MethodNode} :
    method context draft = .ok node ↔
      ∃ inputType outputType, context.findMessage draft.fullName draft.inputName = .ok inputType ∧
        context.findMessage draft.fullName draft.outputName = .ok outputType ∧
        node = {
          name := draft.name
          fullName := draft.fullName
          service := draft.service
          features := draft.features
          clientStreaming := draft.clientStreaming
          serverStreaming := draft.serverStreaming
          inputType, outputType } := by
  simp only [method, except_bind_eq_ok_iff]
  constructor
  · intro h
    obtain ⟨inputType, hinput, outputType, houtput, h⟩ := h
    cases h
    exact ⟨inputType, outputType, hinput, houtput, rfl⟩
  · intro h
    obtain ⟨inputType, outputType, hinput, houtput, rfl⟩ := h
    exact ⟨inputType, hinput, outputType, houtput, rfl⟩

/-- `Linking.field` leaves `oneof` and `realOneof` alone. -/
theorem oneofs_of_field {context : Context} {draft : FieldDraft} {node : FieldNode}
    (h : field context draft = .ok node) :
    node.oneof = draft.node.oneof ∧ node.realOneof = draft.node.realOneof := by
  obtain ⟨_, _, _, _, rfl⟩ := field_eq_ok_iff.1 h
  exact ⟨rfl, rfl⟩

/-- `findMessage` in terms of `find?`. -/
theorem findMessage_eq_ok_iff {context : Context} {owner reference : String} {id : MessageId} :
    context.findMessage owner reference = .ok id ↔
      context.directory.types.find? (Name.keyOf reference) = some (.message id) := by
  rw [Context.findMessage, elim_throw_eq_ok_iff, Directory.message?_eq_some_iff]

theorem findEnum_eq_ok_iff {context : Context} {owner reference : String} {id : EnumId} :
    context.findEnum owner reference = .ok id ↔
      context.directory.types.find? (Name.keyOf reference) = some (.enum id) := by
  rw [Context.findEnum, elim_throw_eq_ok_iff, Directory.enum?_eq_some_iff]

/-- `containingType` gives the message of the declaration, or one that is known by name. -/
theorem container_of_containingType {context : Context} {draft : FieldDraft} {container : Option MessageId}
    (h : containingType context draft = .ok container) : container = draft.node.containingType ∨
      ∃ key id, container = some id ∧ context.directory.types.find? key = some (.message id) := by
  rw [containingType] at h
  split at h
  · obtain ⟨id, hid, h⟩ := except_bind_eq_ok_iff.1 h
    cases h
    exact Or.inr ⟨_, id, rfl, findMessage_eq_ok_iff.1 hid⟩
  · cases h
    exact Or.inl rfl

/-- `target` for enums, for messages and groups, and for everything else. -/
theorem target_cases {context : Context} {draft : FieldDraft} {found : Option TypeRef} (h : target context draft = .ok found) :
    (draft.node.type = .enum ∧
      ∃ key id, found = some (.enum id) ∧ context.directory.types.find? key = some (.enum id)) ∨
    (draft.node.type.isMessageLike = true ∧
      ∃ key id, found = some (.message id) ∧ context.directory.types.find? key = some (.message id)) ∨
    (draft.node.type ≠ .enum ∧ draft.node.type.isMessageLike = false ∧ found = none) := by
  rw [target] at h
  split at h
  · next henum =>
    obtain ⟨name, _, h⟩ := except_bind_eq_ok_iff.1 h
    obtain ⟨id, hid, h⟩ := except_bind_eq_ok_iff.1 h
    cases h
    exact Or.inl ⟨henum, _, id, rfl, findEnum_eq_ok_iff.1 hid⟩
  · next henum =>
    split at h
    · next hmessage =>
      obtain ⟨name, _, h⟩ := except_bind_eq_ok_iff.1 h
      obtain ⟨id, hid, h⟩ := except_bind_eq_ok_iff.1 h
      cases h
      exact Or.inr (Or.inl ⟨hmessage, _, id, rfl, findMessage_eq_ok_iff.1 hid⟩)
    · next hmessage =>
      cases h
      exact Or.inr (Or.inr ⟨henum, Bool.not_eq_true _ ▸ hmessage, rfl⟩)

/-- `target` gives only messages that the directory knows. -/
theorem exists_of_target_eq_message {context : Context} {draft : FieldDraft} {id : MessageId}
    (h : target context draft = .ok (some (.message id))) :
    ∃ key, context.directory.types.find? key = some (.message id) := by
  rcases target_cases h with ⟨_, _, _, hfound, _⟩ | ⟨_, key, _, hfound, hkey⟩ | ⟨_, _, hfound⟩
  -- The field of an enum refers to no message.
  · cases hfound
  · cases hfound
    exact ⟨key, hkey⟩
  · cases hfound

/-- What `Linking.field` leaves of a draft, and where the message comes from that the field refers to. -/
structure IsLinked (context : Context) (draft : FieldDraft) (node : FieldNode) : Prop where
  file : node.file = draft.node.file
  messageType : ∀ id, node.messageType? = some id →
    ∃ key, context.directory.types.find? key = some (.message id)

/-- `Linking.field` gives `IsLinked`. -/
theorem isLinked_of_field {context : Context} {draft : FieldDraft} {node : FieldNode}
    (h : field context draft = .ok node) : IsLinked context draft node := by
  obtain ⟨container, found, _, hfound, rfl⟩ := field_eq_ok_iff.1 h
  refine ⟨rfl, fun id hid => ?_⟩
  simp only [FieldNode.messageType?, linked] at hid
  split at hid
  · next target htarget =>
    cases hid
    exact exists_of_target_eq_message hfound
  · cases hid

/-- `Linking.field` asks of a message whether it is a map entry, what its name is and where it stands. -/
theorem field_congr {directory : Directory} {messages others : Array MessageNode}
    (h : ∀ id, let message := Context.message ⟨directory, messages⟩ id
      let other := Context.message ⟨directory, others⟩ id
      other.isMapEntry = message.isMapEntry ∧ other.name = message.name ∧ other.file = message.file ∧
        other.containingType = message.containingType) :
    field ⟨directory, others⟩ = field ⟨directory, messages⟩ := by
  have hentry id := (h id).1
  have hname id := (h id).2.1
  have hfile id := (h id).2.2.1
  have hcontainer id := (h id).2.2.2
  funext draft
  simp only [field, containingType, target, Context.findMessage, Context.findEnum, linked, linkedType, isMap,
    isGroupLike, MessageNode.isTopLevel, hentry, hname, hfile, hcontainer]

end Linking

end SchemaLayout
