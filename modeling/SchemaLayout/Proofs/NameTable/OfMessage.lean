import SchemaLayout.NameTable.OfSchema
import SchemaLayout.Proofs.NameTable.RoundTrip
import SchemaLayout.Proofs.Schema.Members
import SchemaLayout.Proofs.Schema.SingleFile

/-!
# The names of a message

The name table of a message is decoded to an entry for each of its fields, in ascending order of number,
and what is reserved after them (`decode_messageNameProgram`). Whichever form the writer picked for a field,
its entry gives back the field's names (`names_fieldEntry`).
-/

namespace SchemaLayout

open Program

/-! ## Entries of fields -/

/-- The entry has the number and both names of the field or, if it `isGroupLike`, its number and the name of the
message. -/
def NameEntry.Names (schema : Schema) (field : FieldNode) (entry : NameEntry) : Prop :=
  if field.isGroupLike then
    ∃ target, field.messageType? = some target ∧
      entry = .group field.number (schema.message target).name
  else
    entry.number? = some field.number ∧ entry.name? = some field.name ∧
      entry.jsonName? = some field.jsonName

namespace Schema

/-- No name in the name tables of messages has a zero in it. -/
structure HasZeroFreeNames (schema : Schema) : Prop where
  field : ∀ field ∈ schema.fields, IsZeroFree field.name
  json : ∀ field ∈ schema.fields, IsZeroFree field.jsonName
  message : ∀ message ∈ schema.messages, IsZeroFree message.name
  reserved : ∀ message ∈ schema.messages, ∀ name ∈ message.reservedNames, IsZeroFree name

variable {schema : Schema} {field : FieldNode}

/-- `fieldEntry` satisfies `Names`, in each of its forms. -/
theorem names_fieldEntry
    (h : field.isGroupLike = true → ∃ target, field.messageType? = some target) :
    (schema.fieldEntry field).Names schema field := by
  cases hgroup : field.isGroupLike with
  | true =>
    obtain ⟨target, htarget⟩ := h hgroup
    rw [NameEntry.Names, fieldEntry, hgroup, htarget, if_pos rfl]
    exact ⟨target, rfl, rfl⟩
  | false =>
    rw [NameEntry.Names, fieldEntry, hgroup, if_neg Bool.false_ne_true]
    simp only
    split
    · next hsame => exact ⟨rfl, rfl, congrArg some hsame.symm⟩
    · split
      · next hstandard => exact ⟨rfl, rfl, congrArg some hstandard.symm⟩
      · exact ⟨rfl, rfl, rfl⟩

/-- `fieldEntry` is writable if the names have no zeros that it may be made of. -/
theorem isWritable_fieldEntry (hname : IsZeroFree field.name) (hjson : IsZeroFree field.jsonName)
    (htarget : ∀ target, field.messageType? = some target →
      IsZeroFree (schema.message target).name) : (schema.fieldEntry field).IsWritable := by
  rw [fieldEntry]
  split
  · next target _ hfound => exact htarget target hfound
  · split
    · exact hname
    · split
      · exact hname
      · exact ⟨hname, hjson⟩

/-! ## Reserved ranges -/

/-- `ofRange?` drops empty ranges and makes the others inclusive. -/
theorem filterMap_ofRange? (ranges : List NumberRange) :
    ranges.filterMap NameEntry.ofRange? =
      (ranges.filter fun range => range.start < range.stop).map fun range =>
        .reservedNumbers range.start (range.stop - 1) := by
  rw [← List.filterMap_eq_map', List.filterMap_filter]
  refine List.filterMap_congr fun range _ => ?_
  simp only [NameEntry.ofRange?, decide_eq_true_eq]

/-! ## Messages -/

section

variable {config : Config} {files : List FileDecl} (hfiles : ofFiles config files = .ok schema)
  (hnames : schema.HasZeroFreeNames) {id : MessageId}

include hfiles hnames

theorem isWritable_of_mem_messageNames (hid : id ∈ schema.messageIds) :
    ∀ entry ∈ schema.messageNames id, entry.IsWritable := by
  have hsound := isSound_ofFiles hfiles
  have hmessage {id : MessageId} (hid : id ∈ schema.messageIds) :
      schema.message id ∈ schema.messages :=
    Array.mem_of_getElem? (getElem?_of_mem_messageIds hid)
  intro entry hentry
  -- Entries are those of fields, of reserved names and of reserved ranges.
  rcases List.mem_append.1 hentry with hentry | hentry
  · rcases List.mem_append.1 hentry with hentry | hentry
    · obtain ⟨field, hfield, rfl⟩ := List.mem_map.1 hentry
      have hof := (hsound.fieldsByNumber_perm id).subset hfield
      have hmem := hsound.mem_fields_of_mem_fieldsOf hof
      refine isWritable_fieldEntry (hnames.field _ hmem) (hnames.json _ hmem) fun target htarget => ?_
      exact hnames.message _ (hmessage (hsound.messageType_of_mem_fieldsOf hof htarget).1)
    · obtain ⟨name, hname, rfl⟩ := List.mem_map.1 hentry
      exact hnames.reserved _ (hmessage hid) name hname
  · obtain ⟨range, _, hrange⟩ := List.mem_filterMap.1 hentry
    rw [NameEntry.ofRange?] at hrange
    split at hrange
    · cases hrange
      trivial
    · cases hrange

/-- `decode` gives entries with `Names` of the fields of a message, in strictly ascending order of number, then
its reserved names and ranges as they were declared. -/
theorem decode_messageNameProgram (hid : id ∈ schema.messageIds) :
    ∃ entries, NameTable.decode (schema.messageNameProgram id) = .ok (entries
        ++ (schema.message id).reservedNames.map .reservedName
        ++ ((schema.message id).reservedRanges.filter fun range => range.start < range.stop).map
          fun range => .reservedNumbers range.start (range.stop - 1)) ∧
      List.Forall₂ (NameEntry.Names schema) (schema.fieldsByNumber id) entries ∧
      (schema.fieldsByNumber id).Perm (schema.fieldsOf id) ∧
      (schema.fieldsByNumber id).Pairwise (·.number < ·.number) := by
  have hperm := (isSound_ofFiles hfiles).fieldsByNumber_perm id
  refine ⟨(schema.fieldsByNumber id).map schema.fieldEntry, ?_, ?_, hperm,
    pairwise_fieldsByNumber hfiles hid⟩
  · rw [← filterMap_ofRange?]
    exact NameTable.decode_encode (isWritable_of_mem_messageNames hfiles hnames hid)
  · rw [List.forall₂_map_right_iff, List.forall₂_same]
    exact fun field hfield => names_fieldEntry
      (exists_messageType_of_mem_fieldsOf hfiles (hperm.subset hfield))

end

/-! ## The names of a contact -/

/-- The names in a schema of one file are those of its declarations. -/
theorem hasZeroFreeNames_of_ofFiles {config : Config} {rules : FeatureRules} {decl : FileDecl}
    (hrules : FeatureRules.ofTable decl.level config.defaults config.extensions = .ok rules)
    (hfiles : ofFiles config [decl] = .ok schema)
    (hfields : ∀ draft ∈ (Numbering.file ⟨rules, ⟨0⟩⟩ {} decl).2.fields,
      IsZeroFree draft.node.name ∧ IsZeroFree draft.node.jsonName)
    (hmessages : ∀ message ∈ (Numbering.file ⟨rules, ⟨0⟩⟩ {} decl).2.messages,
      IsZeroFree message.name ∧ ∀ name ∈ message.reservedNames, IsZeroFree name) :
    schema.HasZeroFreeNames := by
  have hfield : ∀ field ∈ schema.fields, IsZeroFree field.name ∧ IsZeroFree field.jsonName := by
    intro field hfield
    obtain ⟨linking, hlinked⟩ := mapM_field_of_ofFiles hrules hfiles
    obtain ⟨draft, hdraft, hlink⟩ := exists_mem_of_mapM hlinked (Array.mem_toList_iff.2 hfield)
    obtain ⟨_, _, _, _, rfl⟩ := Linking.field_eq_ok_iff.1 hlink
    exact hfields draft hdraft
  have hmessage : ∀ message ∈ schema.messages,
      IsZeroFree message.name ∧ ∀ name ∈ message.reservedNames, IsZeroFree name := by
    rw [messages_of_ofFiles hrules hfiles]
    exact fun message hmem => hmessages message (List.mem_toArray.1 hmem)
  exact ⟨fun field h => (hfield field h).1, fun field h => (hfield field h).2,
    fun message h => (hmessage message h).1, fun message h => (hmessage message h).2⟩

/-- Contacts, with names of all forms. -/
def contactFile : FileDecl where
  name := "contact.proto"
  messageType := [
    { name := "Contact"
      field := [
        { name := "id", number := 3 },
        { name := "full_name", number := 1, type := .string },
        { name := "e_mail", number := 7, type := .string, jsonName := some "email" },
        { name := "address", number := 5, type := .group, typeName := some "Contact.Address" }]
      nestedType := [{ name := "Address", field := [{ name := "town", number := 1 }] }]
      reservedName := ["phone", "fax"]
      reservedRange := [⟨8, 11⟩, ⟨20, 20⟩] }]

/-- The name table of a contact. -/
theorem decode_messageNameProgram_contact :
    ∃ schema, ofFiles {} [contactFile] = .ok schema ∧ schema.HasZeroFreeNames ∧
      ⟨0⟩ ∈ schema.messageIds ∧
      ∃ entries, NameTable.decode (schema.messageNameProgram ⟨0⟩) = .ok (entries
          ++ [.reservedName "phone", .reservedName "fax"] ++ [.reservedNumbers 8 10]) ∧
        List.Forall₂ (NameEntry.Names schema) (schema.fieldsByNumber ⟨0⟩) entries := by
  have hrules := ofTable_proto2 (show contactFile.level = .proto2 from rfl)
  obtain ⟨schema, hschema⟩ := exists_ofFiles_proto2 contactFile rfl rfl (by cbv)
  have hmessages := messages_of_ofFiles hrules hschema
  have hnames : schema.HasZeroFreeNames :=
    hasZeroFreeNames_of_ofFiles hrules hschema (by decide) (by decide)
  have hid : ⟨0⟩ ∈ schema.messageIds := by
    rw [mem_messageIds, hmessages]
    decide
  obtain ⟨entries, hdecode, hentries, _⟩ := decode_messageNameProgram hschema hnames hid
  refine ⟨schema, hschema, hnames, hid, entries, ?_, hentries⟩
  rw [hdecode, Schema.message, hmessages]
  rfl

end Schema

end SchemaLayout
