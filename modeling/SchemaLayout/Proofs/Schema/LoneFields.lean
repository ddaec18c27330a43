import SchemaLayout.Proofs.Schema.SingleFile

/-!
# Fields of a file that stands alone

In a schema of a single file, a name means what the file enters under it. So the fields of the schema are known
without a directory, also those that refer to messages and enums (`fields_eq_fieldAmong`): their references are
looked up in the list of entries (`Linking.fieldAmong`).
-/

namespace SchemaLayout

/-! ## Linking with a list of entries -/

namespace Linking

/-- The message among the entries that a reference means. -/
def messageAmong? (entries : List (String × Definition)) (reference : String) : Option MessageId :=
  match entries.lookup (Name.keyOf reference) with
  | some (.message id) => some id
  | _ => none

/-- The enum among the entries that a reference means. -/
def enumAmong? (entries : List (String × Definition)) (reference : String) : Option EnumId :=
  match entries.lookup (Name.keyOf reference) with
  | some (.enum id) => some id
  | _ => none

/-- What the type of a field refers to among the entries, as `target` finds it. -/
def targetAmong? (entries : List (String × Definition)) (draft : FieldDraft) : Option TypeRef :=
  if draft.node.type = .enum then (draft.typeName.bind (enumAmong? entries)).map .enum
  else if draft.node.type.isMessageLike then (draft.typeName.bind (messageAmong? entries)).map .message
  else none

/-- The message among the entries that a field belongs to, as `containingType` finds it. -/
def containerAmong? (entries : List (String × Definition)) (draft : FieldDraft) : Option MessageId :=
  match draft.extendee with
  | some extendee => messageAmong? entries extendee
  | none => draft.node.containingType

/-- A field that is linked with the entries, as by `Linking.field`. -/
def fieldAmong (entries : List (String × Definition)) (messages : Array MessageNode) (draft : FieldDraft) :
    FieldNode :=
  linked ⟨.empty, messages⟩ draft.node (containerAmong? entries draft) (targetAmong? entries draft)

section

variable {context : Context} {entries : List (String × Definition)}
  (hentries : ∀ {key : String} {definition : Definition},
    context.directory.types.find? key = some definition → entries.lookup key = some definition)

include hentries

theorem messageAmong?_eq_some {owner reference : String} {id : MessageId}
    (h : context.findMessage owner reference = .ok id) : messageAmong? entries reference = some id := by
  rw [messageAmong?, hentries (findMessage_eq_ok_iff.1 h)]

theorem enumAmong?_eq_some {owner reference : String} {id : EnumId}
    (h : context.findEnum owner reference = .ok id) : enumAmong? entries reference = some id := by
  rw [enumAmong?, hentries (findEnum_eq_ok_iff.1 h)]

/-- `containerAmong?` agrees with `containingType`. -/
theorem containerAmong?_eq {draft : FieldDraft} {container : Option MessageId}
    (h : containingType context draft = .ok container) : containerAmong? entries draft = container := by
  unfold containingType at h
  unfold containerAmong?
  cases hextendee : draft.extendee with
  | none =>
    rw [hextendee] at h
    cases h
    rfl
  | some extendee =>
    rw [hextendee] at h
    obtain ⟨id, hid, h⟩ := except_bind_eq_ok_iff.1 h
    cases h
    exact messageAmong?_eq_some hentries hid

/-- `targetAmong?` agrees with `target`. -/
theorem targetAmong?_eq {draft : FieldDraft} {found : Option TypeRef}
    (h : target context draft = .ok found) : targetAmong? entries draft = found := by
  have hnamed {name : String} (hname : typeName draft = .ok name) : draft.typeName = some name :=
    elim_throw_eq_ok_iff.1 hname
  unfold target at h
  unfold targetAmong?
  -- Both look for an enum, for a message or for nothing, by the same type.
  by_cases henum : draft.node.type = .enum
  · rw [if_pos henum] at h ⊢
    obtain ⟨name, hname, h⟩ := except_bind_eq_ok_iff.1 h
    obtain ⟨id, hid, h⟩ := except_bind_eq_ok_iff.1 h
    cases h
    rw [hnamed hname, Option.bind_some, enumAmong?_eq_some hentries hid]
    rfl
  · rw [if_neg henum] at h ⊢
    by_cases hmessage : draft.node.type.isMessageLike = true
    · rw [if_pos hmessage] at h ⊢
      obtain ⟨name, hname, h⟩ := except_bind_eq_ok_iff.1 h
      obtain ⟨id, hid, h⟩ := except_bind_eq_ok_iff.1 h
      cases h
      rw [hnamed hname, Option.bind_some, messageAmong?_eq_some hentries hid]
      rfl
    · rw [if_neg hmessage] at h ⊢
      cases h
      rfl

/-- `fieldAmong` agrees with `Linking.field`, which looks nothing up but names. -/
theorem fieldAmong_eq {draft : FieldDraft} {node : FieldNode} (h : field context draft = .ok node) :
    fieldAmong entries context.messages draft = node := by
  obtain ⟨container, found, hcontainer, hfound, rfl⟩ := field_eq_ok_iff.1 h
  unfold fieldAmong
  rw [containerAmong?_eq hentries hcontainer, targetAmong?_eq hentries hfound]
  rfl

end

end Linking

/-! ## The only file -/

namespace Schema

section

variable {config : Config} {rules : FeatureRules} {decl : FileDecl} {schema : Schema}
  (hrules : FeatureRules.ofTable decl.level config.defaults config.extensions = .ok rules)
  (h : ofFiles config [decl] = .ok schema)

include hrules h

/-- The fields of a schema of one file by `fieldAmong`, with the names of the file. -/
theorem fields_eq_fieldAmong :
    let numbered := (Numbering.file ⟨rules, ⟨0⟩⟩ {} decl).2
    schema.fields.toList = numbered.fields.map (Linking.fieldAmong
      (numbered.steps.filterMap Registration.entry?) numbered.messages.toArray) := by
  intro numbered
  obtain ⟨directory, _, fields, _, hregister, _, hfields, _, rfl⟩ :=
    addDeclarations_eq_ok_iff.1 (addDeclarations_of_ofFiles hrules h)
  -- Nothing was known before, so what a name means is what the file enters under it.
  have hnames {key : String} {definition : Definition} :
      directory.types.find? key = some definition ↔
        (key, definition) ∈ numbered.steps.filterMap Registration.entry? := by
    rw [find?_of_register hregister]
    constructor
    · rintro (hbefore | hentered)
      · rw [show empty.directory.types.find? key = none from OrderedMap.find?_empty key] at hbefore
        cases hbefore
      · exact List.mem_filterMap.2 ⟨_, hentered, rfl⟩
    · intro hentry
      exact Or.inr (Registration.enter_mem_of_mem_entries hentry)
  have hentries {key : String} {definition : Definition}
      (hkey : directory.types.find? key = some definition) :
      (numbered.steps.filterMap Registration.entry?).lookup key = some definition := by
    refine lookup_eq_some_of_mem (hnames.1 hkey) fun other hother => ?_
    exact Option.some.inj ((hnames.2 hother).symm.trans hkey)
  have hlinked := map_eq_of_forall₂ (Linking.fieldAmong (numbered.steps.filterMap Registration.entry?)
    (empty.messages ++ numbered.messages)) id (mapM_eq_ok_iff.1 hfields)
    fun draft _ node hnode => (Linking.fieldAmong_eq hentries hnode).symm
  have happend : ((#[] : Array FieldNode) ++ fields).toList = fields :=
    congrArg Array.toList (empty_append_list fields)
  have hmessages : empty.messages ++ numbered.messages = numbered.messages.toArray := empty_append_list _
  rw [List.map_id, hmessages] at hlinked
  exact happend.trans hlinked

/-- The fields of a message of the only file by `fieldAmong`. -/
theorem fieldsOf_eq_fieldAmong (id : MessageId) :
    let numbered := (Numbering.file ⟨rules, ⟨0⟩⟩ {} decl).2
    schema.fieldsOf id = (numbered.messages[id.index]?.getD default).fields.map fun field =>
      (numbered.fields[field.index]?.map (Linking.fieldAmong
        (numbered.steps.filterMap Registration.entry?) numbered.messages.toArray)).getD default := by
  intro numbered
  rw [fieldsOf, Schema.message, messages_of_ofFiles hrules h, List.getElem?_toArray]
  refine List.map_congr_left fun field _ => ?_
  rw [Schema.field, ← Array.getElem?_toList, fields_eq_fieldAmong hrules h, List.getElem?_map]

end

end Schema

end SchemaLayout
