import SchemaLayout.Proofs.NameTable.OfMessage
import SchemaLayout.Proofs.Schema.LoneFields

/-!
# JSON names of groups

The entry of a group that was declared together with its message holds the name of the message, and its JSON name is
that name in lower case. Such a group has this very name (`name_of_isGroupLike`), so what is read back as its JSON
name is the name of the field. If the field has another JSON name, it is lost: one that it declares, or the one that
is derived from a name with an underscore (`Name.json_eq_self_iff`).
-/

namespace SchemaLayout

/-! ## Derived JSON names -/

namespace Name

/-- `camelCase` drops an underscore and capitalises what follows. -/
theorem camelCase_underscore (capital : Bool) (rest : List Char) :
    camelCase capital ('_' :: rest) = camelCase true rest := by
  rw [camelCase]

theorem camelCase_cons_of_ne {c : Char} (h : c ≠ '_') (capital : Bool) (rest : List Char) :
    camelCase capital (c :: rest) = (if capital then c.toUpper else c) :: camelCase false rest := by
  rw [camelCase]
  exact h

/-- Underscores are all that `camelCase` drops. -/
theorem length_camelCase_add_count (capital : Bool) (name : List Char) :
    (camelCase capital name).length + name.count '_' = name.length := by
  induction name generalizing capital with
  | nil => rfl
  | cons c rest ih =>
    by_cases h : c = '_'
    · rw [h, camelCase_underscore, List.count_cons_self, List.length_cons]
      have hrest := ih true
      omega
    · rw [camelCase_cons_of_ne h, List.count_cons_of_ne h, List.length_cons, List.length_cons]
      have hrest := ih false
      omega

/-- `camelCase false` leaves a name without underscores. -/
theorem camelCase_eq_self {name : List Char} (h : '_' ∉ name) : camelCase false name = name := by
  induction name with
  | nil => rfl
  | cons c rest ih =>
    rw [List.mem_cons, not_or] at h
    rw [camelCase_cons_of_ne (Ne.symm h.1), ih h.2]
    rfl

/-- `json name = name` exactly if there is no underscore in it. -/
theorem json_eq_self_iff (name : String) : json name = name ↔ '_' ∉ name.toList := by
  unfold json
  constructor
  · intro h hmem
    -- With an underscore, the derived name would be shorter.
    have hlength := length_camelCase_add_count false name.toList
    have hcount := List.count_pos_iff.2 hmem
    have hsame := congrArg String.toList h
    rw [String.toList_ofList] at hsame
    rw [hsame] at hlength
    omega
  · intro h
    rw [camelCase_eq_self h, String.ofList_toList]

end Name

/-! ## Groups and their messages -/

namespace Linking

/-- A field with `isGroupLike` has the name of the message that it refers to, in lower case. -/
theorem name_eq_of_isGroupLike {context : Context} {node : FieldNode} (h : isGroupLike context node = true)
    {target : MessageId} (htarget : node.messageType? = some target) :
    node.name = lowercase (context.message target).name := by
  unfold isGroupLike at h
  split at h
  · next id _ hfound =>
    have hsame : id = target := by
      unfold FieldNode.messageType? at htarget
      rw [hfound] at htarget
      exact Option.some.inj htarget
    rw [← hsame]
    exact of_decide_eq_true (Bool.and_eq_true_iff.1 h).1
  · cases h

theorem name_of_isGroupLike {context : Context} {draft : FieldDraft} {node : FieldNode}
    (h : field context draft = .ok node) (hgroup : node.isGroupLike = true) {target : MessageId}
    (htarget : node.messageType? = some target) : node.name = lowercase (context.message target).name := by
  obtain ⟨container, found, _, _, rfl⟩ := field_eq_ok_iff.1 h
  exact name_eq_of_isGroupLike hgroup htarget

end Linking

namespace Schema

/-- All fields with `isGroupLike` have the names of their messages in lower case. -/
def NamesGroups (schema : Schema) : Prop :=
  ∀ field ∈ schema.fields, field.isGroupLike = true → ∀ target, field.messageType? = some target →
    field.name = lowercase (schema.message target).name

theorem namesGroups_addDeclarations {schema next : Schema} {rules : FeatureRules} {decl : FileDecl}
    (hsound : schema.IsSound) (h : schema.NamesGroups) (hadd : schema.addDeclarations rules decl = .ok next) :
    next.NamesGroups := by
  obtain ⟨directory, dependencies, fields, methods, _, _, hfields, _, rfl⟩ := addDeclarations_eq_ok_iff.1 hadd
  generalize Numbering.file ⟨rules, ⟨schema.files.size⟩⟩ schema.counts decl = numbered at *
  have hpart := isPartOf_extend schema directory { numbered.1 with dependencies } numbered.2 fields methods
  intro field hfield hgroup target htarget
  -- Groups of earlier files refer to messages of earlier files, which keep their numbers.
  rcases mem_append_list_iff.1 hfield with hold | hnew
  · obtain ⟨index, hindex⟩ := Array.mem_iff_getElem?.1 hold
    obtain ⟨message, hmessage, _⟩ := hsound.fields hindex target htarget
    have hname := h field hold hgroup target htarget
    rw [message_of_getElem? hmessage] at hname
    rw [message_of_getElem? (hpart.messages hmessage), hname]
  · obtain ⟨draft, _, hlink⟩ := exists_mem_of_mapM hfields hnew
    exact Linking.name_of_isGroupLike hlink hgroup htarget

/-- Every schema of files satisfies `NamesGroups`. -/
theorem namesGroups_ofFiles {config : Config} {files : List FileDecl} {schema : Schema}
    (h : ofFiles config files = .ok schema) : schema.NamesGroups := by
  have hempty : empty.IsSound ∧ empty.NamesGroups := ⟨isSound_empty, by simp [NamesGroups, empty]⟩
  refine (foldlM_preserves (P := fun schema => schema.IsSound ∧ schema.NamesGroups)
    (fun schema decl next hschema hnext => ?_) hempty h).2
  obtain ⟨rules, _, hadd⟩ := addFile_eq_ok_iff.1 hnext
  exact ⟨isSound_addDeclarations hschema.1 hadd, namesGroups_addDeclarations hschema.1 hschema.2 hadd⟩

/-! ## Entries of groups -/

theorem number?_fieldEntry (schema : Schema) (field : FieldNode) :
    (schema.fieldEntry field).number? = some field.number := by
  unfold fieldEntry
  split
  · rfl
  · split
    · rfl
    · split <;> rfl

section

variable {config : Config} {files : List FileDecl} {schema : Schema} (hfiles : ofFiles config files = .ok schema)
  {id : MessageId}

include hfiles

/-- The `fieldEntry` of a group-like field has the name of the field as its `jsonName?`. -/
theorem jsonName?_fieldEntry {field : FieldNode} (hfield : field ∈ schema.fieldsOf id)
    (hgroup : field.isGroupLike = true) : (schema.fieldEntry field).jsonName? = some field.name := by
  obtain ⟨target, htarget⟩ := exists_messageType_of_mem_fieldsOf hfiles hfield hgroup
  have hmem := (isSound_ofFiles hfiles).mem_fields_of_mem_fieldsOf hfield
  have hname := namesGroups_ofFiles hfiles field hmem hgroup target htarget
  rw [fieldEntry, hgroup, htarget, hname]
  rfl

theorem eq_of_number_eq (hid : id ∈ schema.messageIds) {field other : FieldNode}
    (hfield : field ∈ schema.fieldsOf id) (hother : other ∈ schema.fieldsOf id)
    (hnumber : other.number = field.number) : other = field := by
  have hperm := (isSound_ofFiles hfiles).fieldsByNumber_perm id
  have hascending : ((schema.fieldsByNumber id).map (·.number)).Pairwise (· < ·) :=
    List.pairwise_map.2 (pairwise_fieldsByNumber hfiles hid)
  have hnodup : ((schema.fieldsOf id).map (·.number)).Nodup :=
    (hperm.map _).nodup_iff.1 (hascending.imp Int32.ne_of_lt)
  exact List.inj_on_of_nodup_map hnodup hother hfield hnumber

/-- The `fieldEntry` of each field is in `messageNames`. -/
theorem fieldEntry_mem_messageNames {field : FieldNode} (hfield : field ∈ schema.fieldsOf id) :
    schema.fieldEntry field ∈ schema.messageNames id := by
  have hperm := (isSound_ofFiles hfiles).fieldsByNumber_perm id
  exact List.mem_append_left _ (List.mem_append_left _ (List.mem_map_of_mem (hperm.mem_iff.2 hfield)))

/-- The only entry of `messageNames` with the number of a field is its `fieldEntry`. -/
theorem number?_eq_some_iff (hid : id ∈ schema.messageIds) {field : FieldNode} (hfield : field ∈ schema.fieldsOf id)
    {entry : NameEntry} (hentry : entry ∈ schema.messageNames id) :
    entry.number? = some field.number ↔ entry = schema.fieldEntry field := by
  constructor
  · intro hnumber
    unfold messageNames at hentry
    rw [List.mem_append, List.mem_append] at hentry
    -- What is reserved has no number of its own, so the entry is that of a field.
    rcases hentry with (hentry | hentry) | hentry
    · obtain ⟨other, hother, rfl⟩ := List.mem_map.1 hentry
      rw [number?_fieldEntry, Option.some.injEq] at hnumber
      have hin := ((isSound_ofFiles hfiles).fieldsByNumber_perm id).mem_iff.1 hother
      rw [eq_of_number_eq hfiles hid hfield hin hnumber]
    · obtain ⟨name, _, rfl⟩ := List.mem_map.1 hentry
      cases hnumber
    · obtain ⟨range, _, hrange⟩ := List.mem_filterMap.1 hentry
      unfold NameEntry.ofRange? at hrange
      split at hrange
      · cases hrange
        cases hnumber
      · cases hrange
  · intro hsame
    rw [hsame, number?_fieldEntry]

/-- For each group-like field, `decode` gives one entry with its number, whose `jsonName?` is the name of the
field. So the JSON name is kept exactly if it is that name, and for a derived one exactly if the name has no
underscore. -/
theorem jsonName_of_group_iff (hnames : schema.HasZeroFreeNames) (hid : id ∈ schema.messageIds) :
    ∃ entries, NameTable.decode (schema.messageNameProgram id) = .ok entries ∧
      ∀ field ∈ schema.fieldsOf id, field.isGroupLike = true →
        ∃ entry ∈ entries, (∀ other ∈ entries, other.number? = some field.number ↔ other = entry) ∧
          entry.jsonName? = some field.name ∧
          (entry.jsonName? = some field.jsonName ↔ field.jsonName = field.name) ∧
          (field.jsonName = Name.json field.name →
            (entry.jsonName? = some field.jsonName ↔ '_' ∉ field.name.toList)) := by
  refine ⟨schema.messageNames id,
    NameTable.decode_encode (isWritable_of_mem_messageNames hfiles hnames hid), ?_⟩
  intro field hfield hgroup
  have hjson := jsonName?_fieldEntry hfiles hfield hgroup
  have hkept : (schema.fieldEntry field).jsonName? = some field.jsonName ↔ field.jsonName = field.name := by
    rw [hjson, Option.some.injEq, eq_comm]
  refine ⟨schema.fieldEntry field, fieldEntry_mem_messageNames hfiles hfield, ?_, hjson, hkept, ?_⟩
  · intro other hother
    exact number?_eq_some_iff hfiles hid hfield hother
  · intro hderived
    rw [hkept, hderived, Name.json_eq_self_iff]

end

/-! ## The names of a search -/

/-- Groups with names of all forms. -/
def searchFile : FileDecl where
  name := "search.proto"
  messageType := [
    { name := "Search"
      field := [
        { name := "search_result", number := 1, type := .group, typeName := some "Search.Search_Result" },
        { name := "ranking", number := 2, type := .group, typeName := some "Search.Ranking",
          jsonName := some "rank" },
        { name := "page", number := 3, type := .group, typeName := some "Search.Page" }]
      nestedType := [{ name := "Search_Result" }, { name := "Ranking" }, { name := "Page" }] }]

theorem exists_ofFiles_search : ∃ schema, ofFiles {} [searchFile] = .ok schema :=
  exists_ofFiles_proto2 searchFile rfl rfl (by cbv)

theorem mem_messageIds_search {schema : Schema} (h : ofFiles {} [searchFile] = .ok schema) :
    ⟨0⟩ ∈ schema.messageIds := by
  rw [mem_messageIds, messages_of_ofFiles (ofTable_proto2 rfl) h]
  decide

/-- The names of the groups of a search, in the schema. -/
theorem map_fieldsOf_search {schema : Schema} (h : ofFiles {} [searchFile] = .ok schema) :
    ((schema.fieldsOf ⟨0⟩).map fun field => (field.isGroupLike, field.name, field.jsonName)) =
      [(true, "search_result", "searchResult"), (true, "ranking", "rank"), (true, "page", "page")] := by
  rw [fieldsOf_eq_fieldAmong (ofTable_proto2 rfl) h]
  cbv

/-- A group of a search that is known by its names. -/
theorem exists_group_search {schema : Schema} (h : ofFiles {} [searchFile] = .ok schema) (name jsonName : String)
    (hmem : (true, name, jsonName) ∈
      [(true, "search_result", "searchResult"), (true, "ranking", "rank"), (true, "page", "page")]) :
    ∃ field ∈ schema.fieldsOf ⟨0⟩, field.isGroupLike = true ∧ field.jsonName = jsonName ∧ field.name = name := by
  rw [← map_fieldsOf_search h] at hmem
  obtain ⟨field, hfield, hnames⟩ := List.mem_map.1 hmem
  simp only [Prod.mk.injEq] at hnames
  exact ⟨field, hfield, hnames.1, hnames.2.2, hnames.2.1⟩

theorem hasZeroFreeNames_search {schema : Schema} (h : ofFiles {} [searchFile] = .ok schema) :
    schema.HasZeroFreeNames :=
  hasZeroFreeNames_of_ofFiles (ofTable_proto2 rfl) h (by decide) (by decide)

/-- The page of a search keeps its JSON name. -/
theorem jsonName_of_group_iff_page :
    ∃ schema, ofFiles {} [searchFile] = .ok schema ∧ schema.HasZeroFreeNames ∧ ⟨0⟩ ∈ schema.messageIds ∧
      ∃ entries, NameTable.decode (schema.messageNameProgram ⟨0⟩) = .ok entries ∧
        ∃ field ∈ schema.fieldsOf ⟨0⟩, field.isGroupLike = true ∧ field.jsonName = "page" ∧
          ∃ entry ∈ entries, entry.number? = some field.number ∧ entry.jsonName? = some field.jsonName := by
  obtain ⟨schema, hschema⟩ := exists_ofFiles_search
  have hnames := hasZeroFreeNames_search hschema
  have hid := mem_messageIds_search hschema
  obtain ⟨entries, hdecode, hgroups⟩ := jsonName_of_group_iff hschema hnames hid
  obtain ⟨field, hfield, hgroup, hjson, hname⟩ := exists_group_search hschema "page" "page" (by decide)
  obtain ⟨entry, hentry, hnumber, _, hkept, _⟩ := hgroups field hfield hgroup
  refine ⟨schema, hschema, hnames, hid, entries, hdecode, field, hfield, hgroup, hjson, entry, hentry, ?_, ?_⟩
  · exact (hnumber entry hentry).2 rfl
  · exact hkept.2 (hjson.trans hname.symm)

/-- The results of a search lose their JSON name: it is derived without the underscore, which the name of the
message has. -/
theorem not_jsonName_of_search_result :
    ∃ schema, ofFiles {} [searchFile] = .ok schema ∧ schema.HasZeroFreeNames ∧ ⟨0⟩ ∈ schema.messageIds ∧
      ∃ entries, NameTable.decode (schema.messageNameProgram ⟨0⟩) = .ok entries ∧
        ∃ field ∈ schema.fieldsOf ⟨0⟩, field.isGroupLike = true ∧ field.jsonName = "searchResult" ∧
          ∃ entry ∈ entries, entry.number? = some field.number ∧ entry.jsonName? = some "search_result" ∧
            entry.jsonName? ≠ some field.jsonName := by
  obtain ⟨schema, hschema⟩ := exists_ofFiles_search
  have hnames := hasZeroFreeNames_search hschema
  have hid := mem_messageIds_search hschema
  obtain ⟨field, hfield, hgroup, hjson, hname⟩ :=
    exists_group_search hschema "search_result" "searchResult" (by decide)
  have hentry := jsonName?_fieldEntry hschema hfield hgroup
  refine ⟨schema, hschema, hnames, hid, schema.messageNames ⟨0⟩,
    NameTable.decode_encode (isWritable_of_mem_messageNames hschema hnames hid), field, hfield, hgroup, hjson,
    schema.fieldEntry field, fieldEntry_mem_messageNames hschema hfield, number?_fieldEntry schema field, ?_, ?_⟩
  · rw [hentry, hname]
  · rw [hentry, hname, hjson]
    decide

end Schema

end SchemaLayout
