import SchemaLayout.Proofs.Schema.FullNames
import SchemaLayout.Proofs.Schema.Integrity

/-!
# Lookup by name

The directory of a schema has one entry for each message, enum and service, under the key of its full name, and one
for each file, and no other entries (`isIndexed_ofFiles`). Every file enters the names of its types while its
messages are gone through, so the entries are in another order than the elements. Looking up a name is then the
inverse of naming (`findsNames_ofFiles`), unless full names are taken for keys because they start with a dot.
-/

namespace SchemaLayout

/-! ## Keys -/

namespace Name

/-- The name does not start with a dot, so `keyOf` does not take it for a key. -/
def IsPlain (name : String) : Prop :=
  name.toList.head? ≠ some '.'

instance (name : String) : Decidable (IsPlain name) :=
  inferInstanceAs (Decidable (_ ≠ _))

theorem toList_key (fullName : String) : (key fullName).toList = '.' :: fullName.toList := by
  rw [key, String.toList_append]
  rfl

theorem key_injective : Function.Injective key := by
  intro name other h
  have hlist := congrArg String.toList h
  rw [toList_key, toList_key] at hlist
  exact String.toList_inj.1 (List.cons.inj hlist).2

theorem keyOf_key (fullName : String) : keyOf (key fullName) = key fullName := by
  rw [keyOf, toList_key]
  rfl

/-- `keyOf` makes a key of a plain name. -/
theorem keyOf_of_isPlain {reference : String} (h : IsPlain reference) : keyOf reference = key reference := by
  rw [keyOf]
  split
  · next rest hlist =>
    rw [IsPlain, hlist] at h
    exact absurd rfl h
  · rfl

/-- Two references have the key of a plain name: the name, and the key itself. -/
theorem keyOf_eq_key_iff {fullName : String} (h : IsPlain fullName) (reference : String) :
    keyOf reference = key fullName ↔ reference = fullName ∨ reference = key fullName := by
  constructor
  · intro hkey
    rw [keyOf] at hkey
    split at hkey
    · exact Or.inr hkey
    · exact Or.inl (key_injective hkey)
  · intro hreference
    rcases hreference with rfl | rfl
    · exact keyOf_of_isPlain h
    · exact keyOf_key fullName

end Name

/-! ## What names stand for -/

/-- The keys of elements whose numbers begin at `start`, and what they stand for. -/
def definitionsFrom {α : Type} (fullName : α → String) (define : Nat → Definition) (start : Nat) (nodes : List α) :
    List (String × Definition) :=
  (nodes.zipIdx start).map fun (node, index) => (Name.key (fullName node), define index)

section

variable {α : Type} {fullName : α → String} {define : Nat → Definition}

/-- In `nodes ++ more`, the numbers of `more` begin at `start + nodes.length`. -/
theorem definitionsFrom_append (start : Nat) (nodes more : List α) :
    definitionsFrom fullName define start (nodes ++ more) =
      definitionsFrom fullName define start nodes ++ definitionsFrom fullName define (start + nodes.length) more := by
  rw [definitionsFrom, List.zipIdx_append, List.map_append]
  rfl

theorem keys_definitionsFrom (start : Nat) (nodes : List α) :
    (definitionsFrom fullName define start nodes).map (·.1) = (nodes.map fullName).map Name.key := by
  rw [definitionsFrom, List.map_map, List.map_map]
  conv => rhs; rw [← List.zipIdx_map_fst start nodes, List.map_map]
  rfl

theorem length_definitionsFrom (start : Nat) (nodes : List α) :
    (definitionsFrom fullName define start nodes).length = nodes.length := by
  rw [definitionsFrom, List.length_map, List.length_zipIdx]

/-- `definitionsFrom` in terms of `nodes[index]?`. -/
theorem mem_definitionsFrom_iff {nodes : Array α} {key : String} {definition : Definition} :
    (key, definition) ∈ definitionsFrom fullName define 0 nodes.toList ↔
      ∃ index node, nodes[index]? = some node ∧ key = Name.key (fullName node) ∧ definition = define index := by
  simp only [definitionsFrom, List.mem_map, Prod.exists, List.mem_zipIdx_iff_getElem?, Array.getElem?_toList,
    Prod.mk.injEq]
  constructor
  · rintro ⟨node, index, hnode, rfl, rfl⟩
    exact ⟨index, node, hnode, rfl, rfl⟩
  · rintro ⟨index, node, hnode, rfl, rfl⟩
    exact ⟨node, index, hnode, rfl, rfl⟩

end

/-- What the names of additions stand for, one kind after the other. -/
def Additions.definitions (start : Counts) (additions : Additions) : List (String × Definition) :=
  definitionsFrom (·.fullName) (.message ⟨·⟩) start.messages additions.messages
    ++ definitionsFrom (·.fullName) (.enum ⟨·⟩) start.enums additions.enums
    ++ definitionsFrom (·.fullName) (.service ⟨·⟩) start.services additions.services

/-- What the names of a schema stand for, one kind after the other. -/
def Schema.definitions (schema : Schema) : List (String × Definition) :=
  definitionsFrom (·.fullName) (.message ⟨·⟩) 0 schema.messages.toList
    ++ definitionsFrom (·.fullName) (.enum ⟨·⟩) 0 schema.enums.toList
    ++ definitionsFrom (·.fullName) (.service ⟨·⟩) 0 schema.services.toList

/-- Parts of three kinds are the same part by part and kind by kind. -/
theorem append_append_perm {α : Type} [DecidableEq α] (a b c more others rest : List α) :
    ((a ++ more) ++ (b ++ others) ++ (c ++ rest)).Perm ((a ++ b ++ c) ++ (more ++ others ++ rest)) := by
  refine List.perm_iff_count.2 fun x => ?_
  simp only [List.count_append]
  omega

/-! ## Registration -/

namespace Registration

/-- `ofMessageHead` enters the name of the message, and its fields enter none. -/
theorem entries_ofMessageHead (fullName : String) (id : MessageId) (decl : MessageDecl) :
    (ofMessageHead fullName id decl).filterMap entry? = [(Name.key fullName, .message id)] := by
  have hfield (field : FieldDecl) :
      (ofField fullName decl.oneofDecl.length field).filterMap entry? = [] := by
    rw [ofField, ofOneofIndex]
    cases field.oneofIndex <;> rfl
  have hfields : (decl.field.flatMap (ofField fullName decl.oneofDecl.length)).filterMap entry? = [] := by
    rw [List.filterMap_flatMap]
    exact List.flatMap_eq_nil_iff.2 fun field _ => hfield field
  rw [ofMessageHead, List.filterMap_append]
  cases decl.repeatedNumber? <;>
    exact congrArg (fun entries => (Name.key fullName, .message id) :: entries ++ []) hfields

/-- `takeAll` puts new entries behind those that are known. -/
theorem toList_takeAll {steps : List Registration} {directory next : Directory}
    (h : takeAll steps directory = .ok next) :
    next.types.toList = directory.types.toList ++ steps.filterMap entry? := by
  induction steps generalizing directory with
  | nil =>
    cases h
    simp
  | cons step rest ih =>
    rw [takeAll, List.foldlM_cons, except_bind_eq_ok_iff] at h
    obtain ⟨middle, hstep, hrest⟩ := h
    rw [ih hrest]
    cases step with
    | require condition fault =>
      obtain ⟨_, rfl⟩ := take_require_eq_ok_iff.1 hstep
      rfl
    | enter key definition =>
      obtain ⟨hfresh, rfl⟩ := take_enter_eq_ok_iff.1 hstep
      rw [Directory.insertType, OrderedMap.toList_insert hfresh, List.append_assoc]
      rfl

end Registration

/-- The steps of a file enter its `definitions`. -/
theorem Numbering.Built.entries_perm {context : Context} {start : Counts} {additions : Additions}
    (h : Built context start additions) :
    (additions.steps.filterMap Registration.entry?).Perm (additions.definitions start) := by
  induction h with
  | nothing | enum | service | extensions => exact .refl _
  | head start container fullName features nestedTypes enums extensions decl =>
    exact .of_eq (Registration.entries_ofMessageHead fullName ⟨start.messages⟩ decl)
  | @append start first second _ _ ihfirst ihsecond =>
    have hsplit : (first ++ second).definitions start =
        definitionsFrom (·.fullName) (.message ⟨·⟩) start.messages (first.messages ++ second.messages)
          ++ definitionsFrom (·.fullName) (.enum ⟨·⟩) start.enums (first.enums ++ second.enums)
          ++ definitionsFrom (·.fullName) (.service ⟨·⟩) start.services (first.services ++ second.services) := rfl
    rw [hsplit, definitionsFrom_append, definitionsFrom_append, definitionsFrom_append]
    refine .trans ?_ (append_append_perm _ _ _ _ _ _).symm
    show ((first.steps ++ second.steps).filterMap Registration.entry?).Perm _
    rw [List.filterMap_append]
    exact ihfirst.append ihsecond

namespace Schema

/-! ## Directories -/

/-- The directory of a schema has one entry for each of its `definitions`, and no other entries. -/
structure IsIndexed (schema : Schema) : Prop where
  types : schema.directory.types.toList.Perm schema.definitions
  files : schema.directory.files.toList = schema.files.toList.zipIdx.map fun (file, index) => (file.name, ⟨index⟩)

theorem isIndexed_empty : empty.IsIndexed :=
  ⟨.refl _, rfl⟩

/-- `register` puts the entries of a file behind those that are known. -/
theorem toList_of_register {schema : Schema} {name : String} {steps : List Registration} {directory : Directory}
    (h : schema.register name steps = .ok directory) :
    directory.types.toList = schema.directory.types.toList ++ steps.filterMap Registration.entry? ∧
      directory.files.toList = schema.directory.files.toList ++ [(name, ⟨schema.files.size⟩)] := by
  rw [register] at h
  split at h
  · cases h
  · next hnew =>
    have hfresh : schema.directory.files.find? name = none := by simpa [Directory.file?] using hnew
    refine ⟨(Registration.toList_takeAll h).trans rfl, ?_⟩
    rw [Registration.files_of_takeAll h, Directory.insertFile, OrderedMap.toList_insert hfresh]

/-- `addDeclarations` keeps `IsIndexed`. -/
theorem isIndexed_addDeclarations {schema next : Schema} {rules : FeatureRules} {decl : FileDecl}
    (h : schema.IsIndexed) (hadd : schema.addDeclarations rules decl = .ok next) : next.IsIndexed := by
  obtain ⟨directory, dependencies, fields, methods, hregister, _, _, _, rfl⟩ := addDeclarations_eq_ok_iff.1 hadd
  obtain ⟨htypes, hfiles⟩ := toList_of_register hregister
  constructor
  case types =>
    have hnew := (Numbering.built_file ⟨rules, ⟨schema.files.size⟩⟩ schema.counts decl).entries_perm
    show directory.types.toList.Perm _
    simp only [definitions, extend, Array.toList_appendList, definitionsFrom_append, Nat.zero_add,
      Array.length_toList]
    rw [htypes]
    -- Old entries come first in the directory, but the definitions go kind by kind.
    exact (h.types.append hnew).trans (append_append_perm _ _ _ _ _ _).symm
  case files =>
    show directory.files.toList = _
    rw [hfiles, h.files, extend, Array.toList_push, List.zipIdx_append, List.map_append, Nat.zero_add,
      Array.length_toList]
    rfl

/-- `IsIndexed` holds of every schema of files. -/
theorem isIndexed_ofFiles {config : Config} {files : List FileDecl} {schema : Schema}
    (h : ofFiles config files = .ok schema) : schema.IsIndexed := by
  refine foldlM_preserves (fun schema decl next hschema hnext => ?_) isIndexed_empty h
  obtain ⟨rules, _, hadd⟩ := addFile_eq_ok_iff.1 hnext
  exact isIndexed_addDeclarations hschema hadd

/-- The full names of all messages, enums and services. -/
def typeNames (schema : Schema) : List String :=
  schema.messages.toList.map (·.fullName) ++ schema.enums.toList.map (·.fullName)
    ++ schema.services.toList.map (·.fullName)

namespace IsIndexed

variable {schema : Schema} (h : schema.IsIndexed)

include h

/-- `find?` in terms of `definitions`. -/
theorem find?_eq_some_iff {key : String} {definition : Definition} :
    schema.directory.types.find? key = some definition ↔ (key, definition) ∈ schema.definitions := by
  rw [OrderedMap.find?_eq_some_iff, h.types.mem_iff]

/-- `findMessage?` in terms of the keys of messages. -/
theorem findMessage?_eq_some_iff {reference : String} {id : MessageId} :
    schema.findMessage? reference = some id ↔
      ∃ message, schema.messages[id.index]? = some message ∧ Name.keyOf reference = Name.key message.fullName := by
  rw [findMessage?, Directory.message?_eq_some_iff, h.find?_eq_some_iff]
  simp only [definitions, List.mem_append, mem_definitionsFrom_iff, Definition.message.injEq, reduceCtorEq,
    and_false, exists_false, or_false]
  constructor
  · rintro ⟨index, message, hmessage, hkey, rfl⟩
    exact ⟨message, hmessage, hkey⟩
  · rintro ⟨message, hmessage, hkey⟩
    exact ⟨id.index, message, hmessage, hkey, rfl⟩

theorem findEnum?_eq_some_iff {reference : String} {id : EnumId} :
    schema.findEnum? reference = some id ↔
      ∃ enum, schema.enums[id.index]? = some enum ∧ Name.keyOf reference = Name.key enum.fullName := by
  rw [findEnum?, Directory.enum?_eq_some_iff, h.find?_eq_some_iff]
  simp only [definitions, List.mem_append, mem_definitionsFrom_iff, Definition.enum.injEq, reduceCtorEq,
    and_false, exists_false, or_false, false_or]
  constructor
  · rintro ⟨index, enum, henum, hkey, rfl⟩
    exact ⟨enum, henum, hkey⟩
  · rintro ⟨enum, henum, hkey⟩
    exact ⟨id.index, enum, henum, hkey, rfl⟩

theorem findService?_eq_some_iff {reference : String} {id : ServiceId} :
    schema.findService? reference = some id ↔
      ∃ service, schema.services[id.index]? = some service ∧
        Name.keyOf reference = Name.key service.fullName := by
  rw [findService?, Directory.service?_eq_some_iff, h.find?_eq_some_iff]
  simp only [definitions, List.mem_append, mem_definitionsFrom_iff, Definition.service.injEq, reduceCtorEq,
    and_false, exists_false, false_or]
  constructor
  · rintro ⟨index, service, hservice, hkey, rfl⟩
    exact ⟨service, hservice, hkey⟩
  · rintro ⟨service, hservice, hkey⟩
    exact ⟨id.index, service, hservice, hkey, rfl⟩

/-- `findFile?` in terms of the names of files. -/
theorem findFile?_eq_some_iff {name : String} {id : FileId} :
    schema.findFile? name = some id ↔ ∃ file, schema.files[id.index]? = some file ∧ name = file.name := by
  rw [findFile?, Directory.file?, OrderedMap.find?_eq_some_iff, h.files]
  simp only [List.mem_map, Prod.exists, List.mem_zipIdx_iff_getElem?, Array.getElem?_toList, Prod.mk.injEq]
  constructor
  · rintro ⟨file, index, hfile, rfl, rfl⟩
    exact ⟨file, hfile, rfl⟩
  · rintro ⟨file, hfile, rfl⟩
    exact ⟨file, id.index, hfile, rfl, rfl⟩

/-- No two messages, enums or services have the same full name. -/
theorem nodup_typeNames : schema.typeNames.Nodup := by
  have hkeys : schema.definitions.map (·.1) = schema.typeNames.map Name.key := by
    simp only [definitions, typeNames, List.map_append, keys_definitionsFrom]
  have hnodup : (schema.definitions.map (·.1)).Nodup :=
    (h.types.map Prod.fst).nodup_iff.1 schema.directory.types.nodup_keys
  rw [hkeys] at hnodup
  exact hnodup.of_map _

theorem size_types : schema.directory.types.size =
    schema.messages.size + schema.enums.size + schema.services.size := by
  rw [← OrderedMap.length_toList, h.types.length_eq, definitions, List.length_append, List.length_append,
    length_definitionsFrom, length_definitionsFrom, length_definitionsFrom]
  rfl

end IsIndexed

/-! ## Naming and its inverse -/

/-- Looking up a name is the inverse of naming, and different elements are named differently. -/
structure FindsNames (schema : Schema) : Prop where
  /-- References lead to the message whose full name they are, with or without a dot in front. -/
  messages : ∀ (id : MessageId) (reference : String), schema.findMessage? reference = some id ↔
    schema.Has (.message id) ∧
      (reference = (schema.message id).fullName ∨ reference = Name.key (schema.message id).fullName)
  enums : ∀ (id : EnumId) (reference : String), schema.findEnum? reference = some id ↔
    schema.Has (.enum id) ∧
      (reference = (schema.enum id).fullName ∨ reference = Name.key (schema.enum id).fullName)
  services : ∀ (id : ServiceId) (reference : String), schema.findService? reference = some id ↔
    schema.Has (.service id) ∧
      (reference = (schema.service id).fullName ∨ reference = Name.key (schema.service id).fullName)
  files : ∀ (id : FileId) (name : String), schema.findFile? name = some id ↔
    schema.Has (.file id) ∧ name = (schema.file id).name
  /-- No two messages, enums or services have the same full name, whichever of these they are. -/
  distinct : schema.typeNames.Nodup
  count : schema.directory.types.size = schema.messages.size + schema.enums.size + schema.services.size

/-- What holds of the element at `index`, in terms of a total lookup. -/
theorem exists_getElem?_iff {α : Type} {array : Array α} {index : Nat} {element : α} {p : α → Prop}
    (helement : ∀ {a : α}, array[index]? = some a → element = a) :
    (∃ a, array[index]? = some a ∧ p a) ↔ index < array.size ∧ p element := by
  constructor
  · rintro ⟨a, ha, hp⟩
    rw [helement ha]
    exact ⟨(Array.getElem?_eq_some_iff.1 ha).1, hp⟩
  · rintro ⟨hindex, hp⟩
    have ha := Array.getElem?_eq_getElem hindex
    exact ⟨_, ha, helement ha ▸ hp⟩

/-- If all `typeNames` are plain, a schema of files satisfies `FindsNames` and `IsNamed`. -/
theorem findsNames_ofFiles {config : Config} {files : List FileDecl} {schema : Schema}
    (h : ofFiles config files = .ok schema) (hplain : ∀ name ∈ schema.typeNames, Name.IsPlain name) :
    schema.FindsNames ∧ schema.IsNamed := by
  have hindexed := isIndexed_ofFiles h
  simp only [typeNames, List.forall_mem_append, List.forall_mem_map, Array.mem_toList_iff] at hplain
  obtain ⟨⟨hmessages, henums⟩, hservices⟩ := hplain
  refine ⟨?_, isNamed_ofFiles h⟩
  constructor
  case messages =>
    intro id reference
    rw [hindexed.findMessage?_eq_some_iff, exists_getElem?_iff message_of_getElem?]
    refine and_congr_right fun hid => Name.keyOf_eq_key_iff (hmessages _ ?_) reference
    exact Array.mem_of_getElem? (getElem?_of_mem_messageIds (mem_messageIds.2 hid))
  case enums =>
    intro id reference
    rw [hindexed.findEnum?_eq_some_iff, exists_getElem?_iff enum_of_getElem?]
    refine and_congr_right fun hid => Name.keyOf_eq_key_iff (henums _ ?_) reference
    exact Array.mem_of_getElem? (getElem?_of_mem_enumIds (mem_enumIds.2 hid))
  case services =>
    intro id reference
    rw [hindexed.findService?_eq_some_iff, exists_getElem?_iff service_of_getElem?]
    refine and_congr_right fun hid => Name.keyOf_eq_key_iff (hservices _ ?_) reference
    have hservice := Array.getElem?_eq_getElem hid
    rw [service_of_getElem? hservice]
    exact Array.mem_of_getElem? hservice
  case files =>
    intro id name
    rw [hindexed.findFile?_eq_some_iff, exists_getElem?_iff file_of_getElem?]
    rfl
  case distinct => exact hindexed.nodup_typeNames
  case count => exact hindexed.size_types

/-- A garden with beds in rows: messages inside each other, an enum and a service in a package. -/
def gardenFile : FileDecl where
  name := "garden.proto"
  package := "garden"
  messageType := [
    { name := "Bed"
      field := [
        { name := "rows", number := 1, label := .repeated, type := .message, typeName := some "garden.Bed.Row" }]
      nestedType := [
        { name := "Row"
          enumType := [{ name := "State", value := [{ name := "FALLOW" }, { name := "SOWN", number := 1 }] }] }]
      enumType := [{ name := "Row_State", value := [{ name := "NONE" }] }] }]
  service := [{ name := "Gardener" }]

theorem exists_ofFiles_garden : ∃ schema, ofFiles {} [gardenFile] = .ok schema :=
  exists_ofFiles_proto2 gardenFile rfl rfl (by cbv)

/-- `Bed.Row` is found by its full name, with and without a dot in front, but not by `Row` alone. -/
theorem findsNames_garden : ∃ schema, ofFiles {} [gardenFile] = .ok schema ∧
    (∀ name ∈ schema.typeNames, Name.IsPlain name) ∧ schema.typeNames.Nodup ∧
      schema.directory.types.size = 5 ∧ schema.findMessage? "garden.Bed.Row" = some ⟨1⟩ ∧
        schema.findMessage? ".garden.Bed.Row" = some ⟨1⟩ ∧ schema.findMessage? "Row" ≠ some ⟨1⟩ ∧
          schema.findEnum? "garden.Bed.Row.State" = some ⟨0⟩ ∧ schema.findService? "garden.Gardener" = some ⟨0⟩ ∧
            ∃ names, schema.Encloses ⟨0⟩ (some ⟨0⟩) names ∧ Name.join (names ++ ["Row"]) = "garden.Bed.Row" := by
  obtain ⟨schema, hschema⟩ := exists_ofFiles_garden
  have hmessages := messages_of_ofFiles (ofTable_proto2 rfl) hschema
  have henums := enums_of_ofFiles (ofTable_proto2 rfl) hschema
  have hservices := services_of_ofFiles (ofTable_proto2 rfl) hschema
  have hplain : ∀ name ∈ schema.typeNames, Name.IsPlain name := by
    rw [typeNames, hmessages, henums, hservices]
    decide
  obtain ⟨hfinds, hnamed⟩ := findsNames_ofFiles hschema hplain
  have hrow := congrArg (·[1]?) hmessages
  have hmessage := @message_of_getElem? schema ⟨1⟩ _ hrow
  have hhas : schema.Has (.message ⟨1⟩) := lt_size_of_exists ⟨_, hrow⟩
  have hname : (schema.message ⟨1⟩).fullName = "garden.Bed.Row" := by
    rw [hmessage]
    decide
  have hstate := congrArg (·[0]?) henums
  have henum : (schema.enum ⟨0⟩).fullName = "garden.Bed.Row.State" := by
    rw [@enum_of_getElem? schema ⟨0⟩ _ hstate]
    decide
  have hgardener := congrArg (·[0]?) hservices
  have hservice : (schema.service ⟨0⟩).fullName = "garden.Gardener" := by
    rw [@service_of_getElem? schema ⟨0⟩ _ hgardener]
    decide
  refine ⟨schema, hschema, hplain, hfinds.distinct, ?_, ?_, ?_, ?_, ?_, ?_, ?_⟩
  · rw [hfinds.count, hmessages, henums, hservices]
    decide
  · exact (hfinds.messages ⟨1⟩ _).2 ⟨hhas, Or.inl hname.symm⟩
  · refine (hfinds.messages ⟨1⟩ _).2 ⟨hhas, Or.inr ?_⟩
    rw [hname]
    decide
  · rw [ne_eq, hfinds.messages, hname]
    exact fun hfound => absurd hfound.2 (by decide)
  · exact (hfinds.enums ⟨0⟩ _).2 ⟨lt_size_of_exists ⟨_, hstate⟩, Or.inl henum.symm⟩
  · exact (hfinds.services ⟨0⟩ _).2 ⟨lt_size_of_exists ⟨_, hgardener⟩, Or.inl hservice.symm⟩
  · obtain ⟨names, hencloses, hjoin⟩ := hnamed.messages _ (Array.mem_of_getElem? hrow)
    exact ⟨names, hencloses, hjoin.symm⟩

end Schema

end SchemaLayout
