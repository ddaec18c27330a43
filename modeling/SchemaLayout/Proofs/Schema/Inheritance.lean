import SchemaLayout.Proofs.Feature.Inheritance
import SchemaLayout.Proofs.Schema.Integrity
import SchemaLayout.Proofs.Schema.Scopes

/-!
# Elements inherit features through their scopes

Every element of a schema has a scope (`hasScope_of_has`): starting from its file, it is reached through the
messages, enums, services and oneofs that it stands in. From edition 2023 on, the features of all elements are those
that they inherit through their scopes (`features_inherit`).
-/

namespace SchemaLayout.Schema

variable {config : Config} {files : List FileDecl} {schema : Schema}

/-! ## Files -/

/-- `addFile` adds one file each time. -/
theorem size_files_foldlM {added : List FileDecl} {before after : Schema}
    (h : added.foldlM (addFile config) before = .ok after) :
    after.files.size = before.files.size + added.length := by
  induction added generalizing before with
  | nil =>
    cases h
    rfl
  | cons decl rest ih =>
    rw [List.foldlM_cons, except_bind_eq_ok_iff] at h
    obtain ⟨next, hnext, hrest⟩ := h
    obtain ⟨rules, _, hadd⟩ := addFile_eq_ok_iff.1 hnext
    have hsize := (counts_addDeclarations hadd).1
    have hlast := ih hrest
    rw [List.length_cons]
    omega

section

variable (h : ofFiles config files = .ok schema)

include h

theorem size_files_ofFiles : schema.files.size = files.length :=
  (size_files_foldlM h).trans (Nat.zero_add _)

/-- Where `ofFiles` added the file at `index`, and what that came to, which is part of the schema. -/
theorem exists_addDeclarations_of_getElem? {index : Nat} {decl : FileDecl} (hdecl : files[index]? = some decl) :
    ∃ rules before next, FeatureRules.ofTable decl.level config.defaults config.extensions = .ok rules ∧
      ofFiles config (files.take index) = .ok before ∧ before.files.size = index ∧
        before.addDeclarations rules decl = .ok next ∧ next.IsPartOf schema ∧
          next.directory.IsPartOf schema.directory := by
  obtain ⟨hindex, rfl⟩ := List.getElem?_eq_some_iff.1 hdecl
  have hsplit : files = files.take index ++ files[index] :: files.drop (index + 1) := by
    rw [← List.drop_eq_getElem_cons hindex, List.take_append_drop]
  rw [hsplit, ofFiles_append_eq_ok_iff] at h
  obtain ⟨before, hbefore, h⟩ := h
  rw [List.foldlM_cons, except_bind_eq_ok_iff] at h
  obtain ⟨next, hnext, hrest⟩ := h
  have hsize : before.files.size = index := by
    rw [size_files_ofFiles hbefore, List.length_take, Nat.min_eq_left (Nat.le_of_lt hindex)]
  obtain ⟨rules, hrules, hadd⟩ := addFile_eq_ok_iff.1 hnext
  exact ⟨rules, before, next, hrules, hbefore, hsize, hadd, isPartOf_foldlM hrest⟩

/-- Each file satisfies `IsMadeOf`, with the rules of its edition. -/
theorem exists_isMadeOf_file {index : Nat} {decl : FileDecl} (hdecl : files[index]? = some decl) :
    ∃ rules, FeatureRules.ofTable decl.level config.defaults config.extensions = .ok rules ∧
      schema.IsMadeOf ⟨rules, ⟨index⟩⟩ rules.defaults (.file ⟨index⟩ decl) := by
  obtain ⟨rules, before, next, hrules, _, rfl, hadd, hpart, _⟩ := exists_addDeclarations_of_getElem? h hdecl
  obtain ⟨⟨dependencies, hfile⟩, hadded⟩ := hasAdded_addDeclarations hadd
  exact ⟨rules, hrules, rfl, before.counts, dependencies, hpart.files hfile, hadded.of_isPartOf hpart⟩

end

/-! ## What elements inherit -/

/-- `IsMadeOf` gives `Reflects`, apart from fields in files before edition 2023. -/
theorem IsMadeOf.reflects {context : Numbering.Context} {inherited : Features} {element : Element}
    (h : schema.IsMadeOf context inherited element)
    (hfield : ∀ id decl, element = .field id decl → context.rules.edition.isLegacy = false) :
    schema.Reflects context inherited element := by
  cases element with
  | file id decl => exact reflects_file h
  | message id decl => exact reflects_message h
  | enum id decl => exact reflects_enum h
  | service id decl => exact reflects_service h
  | field id decl =>
    have h : (schema.field id).features = context.rules.resolveField decl inherited := h
    rw [FeatureRules.resolveField, hfield id decl rfl] at h
    exact ⟨h, trivial, List.forall_mem_nil _⟩
  | oneof id decl => exact ⟨h, trivial, List.forall_mem_nil _⟩
  | value id decl => exact ⟨h, trivial, List.forall_mem_nil _⟩
  | method id decl => exact ⟨h, trivial, List.forall_mem_nil _⟩

/-- An element that `Reflects` its declaration has what is `written` there, and beyond that what it inherits. -/
theorem Reflects.inherits {context : Numbering.Context} {inherited : Features} {element : Element}
    (h : schema.Reflects context inherited element) {defaults : FeatureSet} {around : List FeatureSet}
    (hinherits : Inherits context.rules defaults around inherited) :
    Inherits context.rules defaults (element.written.toList ++ around) (schema.featuresOf element.handle) := by
  rw [h.features]
  exact hinherits.resolve element.written

theorem oneofs_subset_inside {message : MessageId} {decl : MessageDecl} :
    ((schema.message message).oneofs.zip decl.oneofDecl).map (fun entry => .oneof entry.1 entry.2) ⊆
      schema.inside (.message message decl) :=
  List.subset_append_of_subset_left _ (List.subset_append_right _ _)

section

variable (h : ofFiles config files = .ok schema) {top : FileDecl}

include h

/-- Files with scopes have rules, whose defaults are a complete row. -/
theorem HasScope.exists_rules {element : Element} {sets : List FeatureSet}
    (hscope : schema.HasScope files top element sets) : ∃ rules row,
      FeatureRules.ofTable top.level config.defaults config.extensions = .ok rules ∧
        rules.edition = top.level ∧ config.defaults.rowFor? top.level = some row ∧
          row.features.complete = .ok rules.defaults := by
  have htop : ∃ index : Nat, files[index]? = some top := by
    induction hscope with
    | file hindex => exact ⟨_, hindex⟩
    | inside _ _ ih => exact ih
    | field _ _ _ ih => exact ih
    | member _ _ _ _ ih => exact ih
  obtain ⟨index, hindex⟩ := htop
  obtain ⟨rules, hrules, _⟩ := exists_isMadeOf_file h hindex
  obtain ⟨hedition, _, row, hrow, hcomplete⟩ := FeatureRules.exists_row_of_ofTable hrules
  exact ⟨rules, row, hrules, hedition, hrow, hcomplete⟩

variable {rules : FeatureRules} {row : DefaultsRow}
  (hrules : FeatureRules.ofTable top.level config.defaults config.extensions = .ok rules)
  (hcomplete : row.features.complete = .ok rules.defaults)

include hrules hcomplete

/-- An element with a scope satisfies `IsMadeOf` with what it inherits from around. -/
theorem HasScope.exists_inherited {element : Element} {sets : List FeatureSet}
    (hscope : schema.HasScope files top element sets) : ∃ file inherited around,
      schema.IsMadeOf ⟨rules, file⟩ inherited element ∧ sets = element.written.toList ++ around ∧
        Inherits rules row.features around inherited := by
  induction hscope with
  | file hindex =>
    obtain ⟨found, hfound, hmade⟩ := exists_isMadeOf_file h hindex
    cases hrules.symm.trans hfound
    exact ⟨_, _, [], hmade, (List.append_nil _).symm, inherits_of_complete hcomplete⟩
  | inside _ hinner ih =>
    obtain ⟨file, inherited, around, hmade, rfl, hinherits⟩ := ih
    have hreflects := hmade.reflects fun id decl houter => by
      subst houter
      exact absurd hinner List.not_mem_nil
    exact ⟨file, _, _, hreflects.inside _ hinner, rfl, hreflects.inherits hinherits⟩
  | field _ hfield hreal ih =>
    obtain ⟨file, inherited, around, hmade, rfl, hinherits⟩ := ih
    have hmember := isMadeOf_field hmade hfield
    rw [hreal] at hmember
    exact ⟨file, _, _, hmember, rfl, (reflects_message hmade).inherits hinherits⟩
  | member _ hfield hreal honeof ih =>
    obtain ⟨file, inherited, around, hmade, rfl, hinherits⟩ := ih
    have hmember := isMadeOf_field hmade hfield
    rw [hreal] at hmember
    -- The oneof is in the message, and the field in the oneof.
    have hreflects := reflects_message hmade
    have hof := hreflects.inside _ (oneofs_subset_inside (List.mem_map.2 ⟨_, honeof, rfl⟩))
    have hinner := hof.reflects fun _ _ hother => by cases hother
    exact ⟨file, _, _, hmember, rfl, hinner.inherits (hreflects.inherits hinherits)⟩

/-- From edition 2023 on, an element `Inherits` through its scope. -/
theorem HasScope.inherits {element : Element} {sets : List FeatureSet}
    (hscope : schema.HasScope files top element sets) (hlevel : top.level.isLegacy = false) :
    Inherits rules row.features sets (schema.featuresOf element.handle) := by
  obtain ⟨file, inherited, around, hmade, rfl, hinherits⟩ := hscope.exists_inherited h hrules hcomplete
  have hedition := (FeatureRules.exists_row_of_ofTable hrules).1
  have hreflects := hmade.reflects fun _ _ _ => (congrArg Edition.isLegacy hedition).trans hlevel
  exact hreflects.inherits hinherits

end

/-! ## All elements have scopes -/

/-- What is listed as often as it is declared has a declaration. -/
theorem exists_mem_zip {ι δ : Type} {ids : List ι} {decls : List δ} (hlength : ids.length = decls.length) {id : ι}
    (hid : id ∈ ids) : ∃ decl, (id, decl) ∈ ids.zip decls := by
  obtain ⟨place, hplace, rfl⟩ := List.mem_iff_getElem.1 hid
  have hdecl : place < decls.length := hlength ▸ hplace
  exact ⟨decls[place], List.mem_iff_getElem.2
    ⟨place, by rw [List.length_zip]; omega, List.getElem_zip⟩⟩

/-- What is `inside` an element with a scope has a scope too. -/
theorem HasScope.exists_inside {ι δ : Type} {top : FileDecl} {outer : Element} {sets : List FeatureSet}
    (hscope : schema.HasScope files top outer sets) {ids : List ι} {decls : List δ} (make : ι → δ → Element)
    (hlength : ids.length = decls.length)
    (hinside : (ids.zip decls).map (fun entry => make entry.1 entry.2) ⊆ schema.inside outer) {id : ι}
    (hid : id ∈ ids) : ∃ top decl inner, schema.HasScope files top (make id decl) inner := by
  obtain ⟨decl, hdecl⟩ := exists_mem_zip hlength hid
  exact ⟨top, decl, _, hscope.inside (hinside (List.mem_map.2 ⟨_, hdecl, rfl⟩))⟩

section

variable (h : ofFiles config files = .ok schema) {top : FileDecl}

include h

/-- Elements with scopes satisfy `ListsAll`. -/
theorem HasScope.listsAll {element : Element} {sets : List FeatureSet}
    (hscope : schema.HasScope files top element sets) : schema.ListsAll element := by
  obtain ⟨rules, row, hrules, _, _, hcomplete⟩ := hscope.exists_rules h
  obtain ⟨file, inherited, around, hmade, _⟩ := hscope.exists_inherited h hrules hcomplete
  cases element
  case field => trivial
  all_goals exact (hmade.reflects fun _ _ hother => by cases hother).all

theorem exists_scope_file {id : FileId} (hid : schema.Has (.file id)) :
    ∃ top sets, schema.HasScope files top (.file id top) sets := by
  have hindex : id.index < files.length := Nat.lt_of_lt_of_eq hid (size_files_ofFiles h)
  exact ⟨_, _, .file (List.getElem?_eq_getElem hindex)⟩

/-- What is listed by some file is listed by a file with a scope. -/
theorem exists_scope_of_mem_files {ι : Type} {parts : FileNode → List ι} {number : ι → Nat} {index : Nat}
    (hindex : index ∈ (schema.files.toList.flatMap parts).map number) : ∃ id file top sets,
      number id = index ∧ id ∈ parts (schema.file file) ∧ schema.HasScope files top (.file file top) sets := by
  obtain ⟨id, hid, hnumber⟩ := List.mem_map.1 hindex
  obtain ⟨node, hnode, hid⟩ := List.mem_flatMap.1 hid
  obtain ⟨place, hplace⟩ := Array.mem_iff_getElem?.1 (Array.mem_toList_iff.1 hnode)
  have hhas : schema.Has (.file ⟨place⟩) := lt_size_of_exists ⟨node, hplace⟩
  obtain ⟨top, sets, hscope⟩ := exists_scope_file h hhas
  refine ⟨id, ⟨place⟩, top, sets, hnumber, ?_, hscope⟩
  rwa [file_of_getElem? hplace]

/-- What `Nests` in messages with scopes, or in none, stands in something with a scope. -/
theorem exists_scope_of_nests {ι β : Type} {parts : MessageNode → List ι} {fileParts : FileNode → List ι}
    {number : ι → Nat} {items : Array β} {owner : β → Option (Option Nat)}
    (hnests : Nests none 0 (schema.messages.toList.map fun message => (parts message).map number) 0
      (items.toList.map owner) ((schema.files.toList.flatMap fileParts).map number))
    {index : Nat} {item : β} (hitem : items[index]? = some item) {site : Option MessageId}
    (howner : owner item = some (site.map (·.index)))
    (hmessages : ∀ message, site = some message → schema.Has (.message message) →
      ∃ top decl sets, schema.HasScope files top (.message message decl) sets) :
    ∃ id, number id = index ∧
      ((∃ file top sets, id ∈ fileParts (schema.file file) ∧ schema.HasScope files top (.file file top) sets) ∨
        ∃ message top decl sets, id ∈ parts (schema.message message) ∧
          schema.HasScope files top (.message message decl) sets) := by
  cases site with
  | none =>
    obtain ⟨id, file, top, sets, hnumber, hlisted, hscope⟩ :=
      exists_scope_of_mem_files h (hnests.mem_loose_iff.2 ⟨item, hitem, howner⟩)
    exact ⟨id, hnumber, Or.inl ⟨file, top, sets, hlisted, hscope⟩⟩
  | some parent =>
    have hhas : schema.Has (.message parent) :=
      lt_size_of_exists (hnests.exists_owner (Array.mem_of_getElem? hitem) howner (by simp))
    have hparent := getElem?_of_mem_messageIds (mem_messageIds.2 hhas)
    obtain ⟨id, hlisted, hnumber⟩ := List.mem_map.1 ((hnests.mem_parts_iff hparent).2 ⟨item, hitem, howner⟩)
    obtain ⟨top, decl, sets, hscope⟩ := hmessages parent rfl hhas
    exact ⟨id, hnumber, Or.inr ⟨parent, top, decl, sets, hlisted, hscope⟩⟩

/-- Every message has a scope. By induction on the number, as messages around come first. -/
theorem exists_scope_message {id : MessageId} (hid : schema.Has (.message id)) :
    ∃ top decl sets, schema.HasScope files top (.message id decl) sets := by
  have hnested := isNested_ofFiles h
  obtain ⟨index⟩ := id
  induction index using Nat.strongRecOn with
  | ind index ih =>
    have hmessage := getElem?_of_mem_messageIds (mem_messageIds.2 hid)
    obtain ⟨⟨_⟩, rfl, hplace⟩ := exists_scope_of_nests h hnested.messages hmessage rfl
      fun parent hparent hhas => ih parent.index (hnested.before hmessage parent hparent) hhas
    rcases hplace with ⟨file, top, sets, hlisted, hscope⟩ | ⟨message, top, decl, sets, hlisted, hscope⟩
    · refine hscope.exists_inside Element.message (hscope.listsAll h).1 ?_ hlisted
      exact List.subset_append_of_subset_left _
        (List.subset_append_of_subset_left _ (List.subset_append_left _ _))
    · refine hscope.exists_inside Element.message (hscope.listsAll h).1 ?_ hlisted
      exact List.subset_append_of_subset_left _
        (List.subset_append_of_subset_left _ (List.subset_append_left _ _))

theorem exists_scope_enum {id : EnumId} (hid : schema.Has (.enum id)) :
    ∃ top decl sets, schema.HasScope files top (.enum id decl) sets := by
  have henum := getElem?_of_mem_enumIds (mem_enumIds.2 hid)
  obtain ⟨index⟩ := id
  obtain ⟨⟨_⟩, rfl, hplace⟩ := exists_scope_of_nests h (isNested_ofFiles h).enums henum rfl
    fun _ _ hhas => exists_scope_message h hhas
  rcases hplace with ⟨file, top, sets, hlisted, hscope⟩ | ⟨message, top, decl, sets, hlisted, hscope⟩
  · refine hscope.exists_inside Element.enum (hscope.listsAll h).2.1 ?_ hlisted
    exact List.subset_append_of_subset_left _
      (List.subset_append_of_subset_left _ (List.subset_append_right _ _))
  · refine hscope.exists_inside Element.enum (hscope.listsAll h).2.1 ?_ hlisted
    exact List.subset_append_of_subset_left _
      (List.subset_append_of_subset_left _ (List.subset_append_right _ _))

theorem exists_scope_extension {id : FieldId} {field : FieldNode} (hfield : schema.fields[id.index]? = some field)
    (hextension : field.isExtension = true) : ∃ top decl sets, schema.HasScope files top (.field id decl) sets := by
  have hsite : field.site?.map (fun site => site.map (·.index)) = some (field.declaredIn.map (·.index)) := by
    rw [FieldNode.site?, if_pos hextension, Option.map_some]
  obtain ⟨index⟩ := id
  obtain ⟨⟨_⟩, rfl, hplace⟩ := exists_scope_of_nests h (isNested_ofFiles h).extensions hfield hsite
    fun _ _ hhas => exists_scope_message h hhas
  rcases hplace with ⟨file, top, sets, hlisted, hscope⟩ | ⟨message, top, decl, sets, hlisted, hscope⟩
  · exact hscope.exists_inside Element.field (hscope.listsAll h).2.2.2 (List.subset_append_right _ _) hlisted
  · exact hscope.exists_inside Element.field (hscope.listsAll h).2.2.2.1 (List.subset_append_right _ _) hlisted

theorem exists_scope_service {id : ServiceId} (hid : schema.Has (.service id)) :
    ∃ top decl sets, schema.HasScope files top (.service id decl) sets := by
  obtain ⟨index⟩ := id
  have hloose : index ∈ (schema.files.toList.flatMap (·.services)).map (·.index) := by
    rw [(isNested_ofFiles h).services]
    exact List.mem_range.2 hid
  obtain ⟨⟨_⟩, file, top, sets, rfl, hlisted, hscope⟩ := exists_scope_of_mem_files h hloose
  refine hscope.exists_inside Element.service (hscope.listsAll h).2.2.1 ?_ hlisted
  exact List.subset_append_of_subset_left _ (List.subset_append_right _ _)

theorem exists_scope_oneof {id : OneofId} (hid : schema.Has (.oneof id)) :
    ∃ top decl sets, schema.HasScope files top (.oneof id decl) sets := by
  have howned := isOwned_ofFiles h
  have honeof : schema.oneofs[id.index]? = some schema.oneofs[id.index] := Array.getElem?_eq_getElem hid
  have hhas : schema.Has (.message schema.oneofs[id.index].containingType) :=
    lt_size_of_exists (howned.oneofs.exists_owner honeof rfl)
  have hlisted := (howned.mem_oneofs_iff (mem_messageIds.2 hhas)).2 ⟨_, honeof, rfl⟩
  obtain ⟨top, outer, sets, hscope⟩ := exists_scope_message h hhas
  exact hscope.exists_inside Element.oneof (hscope.listsAll h).2.2.1 oneofs_subset_inside hlisted

theorem exists_scope_value {id : EnumValueId} (hid : schema.Has (.value id)) :
    ∃ top decl sets, schema.HasScope files top (.value id decl) sets := by
  have howned := isOwned_ofFiles h
  have hvalue : schema.values[id.index]? = some schema.values[id.index] := Array.getElem?_eq_getElem hid
  have hhas : schema.Has (.enum schema.values[id.index].enum) :=
    lt_size_of_exists (howned.values.exists_owner hvalue rfl)
  have hlisted := (howned.mem_values_iff (mem_enumIds.2 hhas)).2 ⟨_, hvalue, rfl⟩
  obtain ⟨top, outer, sets, hscope⟩ := exists_scope_enum h hhas
  exact hscope.exists_inside Element.value (hscope.listsAll h) (List.Subset.refl _) hlisted

theorem exists_scope_method {id : MethodId} (hid : schema.Has (.method id)) :
    ∃ top decl sets, schema.HasScope files top (.method id decl) sets := by
  have howned := isOwned_ofFiles h
  obtain ⟨index⟩ := id
  have hmethod : schema.methods[index]? = some schema.methods[index] := Array.getElem?_eq_getElem hid
  obtain ⟨service, hservice⟩ := howned.methods.exists_owner hmethod rfl
  have hhas : schema.Has (.service schema.methods[index].service) := lt_size_of_exists ⟨service, hservice⟩
  obtain ⟨top, outer, sets, hscope⟩ := exists_scope_service h hhas
  obtain ⟨⟨_⟩, hlisted, rfl⟩ := List.mem_map.1 ((howned.methods.mem_parts_iff hservice).2 ⟨_, hmethod, rfl⟩)
  rw [← service_of_getElem? hservice] at hlisted
  exact hscope.exists_inside Element.method (hscope.listsAll h) (List.Subset.refl _) hlisted

/-- Every field has a scope. -/
theorem exists_scope_field {id : FieldId} (hid : schema.Has (.field id)) :
    ∃ top decl sets, schema.HasScope files top (.field id decl) sets := by
  have howned := isOwned_ofFiles h
  have hfield : schema.fields[id.index]? = some schema.fields[id.index] := Array.getElem?_eq_getElem hid
  have hlinks := (isLinked_ofFiles h).fields _ (Array.mem_of_getElem? hfield)
  -- Extensions are listed by what they stand in, other fields by the message that they belong to.
  cases hextension : schema.fields[id.index].isExtension with
  | true => exact exists_scope_extension h hfield hextension
  | false =>
    obtain ⟨home, hhome, _⟩ := hlinks.declaredIn hextension
    have hhas := hlinks.containingType home hhome
    have hhome? : schema.fields[id.index].home? = some home := by
      rw [FieldNode.home?, hextension, if_neg Bool.false_ne_true, hhome]
    have hlisted := (howned.mem_fields_iff (mem_messageIds.2 hhas)).2 ⟨_, hfield, hhome?⟩
    obtain ⟨top, outer, sets, hscope⟩ := exists_scope_message h hhas
    obtain ⟨decl, hdecl⟩ := exists_mem_zip (hscope.listsAll h).2.2.2.2 hlisted
    cases hreal : schema.realOneof? (schema.field id) with
    | none => exact ⟨top, decl, _, hscope.field hdecl hreal⟩
    -- A member of a real oneof has the scope of the oneof, which is in the same message.
    | some oneof =>
      have hof := (Option.filter_eq_some_iff.1 hreal).1
      rw [field_of_getElem? hfield] at hof
      obtain ⟨hsame, hin⟩ := containingType_of_oneof (isSound_ofFiles h) howned hfield hof
      rw [← Option.some.inj (hhome.symm.trans hsame)] at hin
      obtain ⟨oneofDecl, honeof⟩ := exists_mem_zip (hscope.listsAll h).2.2.1 hin
      exact ⟨top, decl, _, hscope.member hdecl hreal honeof⟩

/-- Every element of a schema of files has a scope. -/
theorem hasScope_of_has {handle : Handle} (hhas : schema.Has handle) :
    ∃ top element sets, element.handle = handle ∧ schema.HasScope files top element sets := by
  cases handle with
  | file id =>
    obtain ⟨top, sets, hscope⟩ := exists_scope_file h hhas
    exact ⟨top, _, sets, rfl, hscope⟩
  | message id =>
    obtain ⟨top, decl, sets, hscope⟩ := exists_scope_message h hhas
    exact ⟨top, _, sets, rfl, hscope⟩
  | field id =>
    obtain ⟨top, decl, sets, hscope⟩ := exists_scope_field h hhas
    exact ⟨top, _, sets, rfl, hscope⟩
  | oneof id =>
    obtain ⟨top, decl, sets, hscope⟩ := exists_scope_oneof h hhas
    exact ⟨top, _, sets, rfl, hscope⟩
  | enum id =>
    obtain ⟨top, decl, sets, hscope⟩ := exists_scope_enum h hhas
    exact ⟨top, _, sets, rfl, hscope⟩
  | value id =>
    obtain ⟨top, decl, sets, hscope⟩ := exists_scope_value h hhas
    exact ⟨top, _, sets, rfl, hscope⟩
  | service id =>
    obtain ⟨top, decl, sets, hscope⟩ := exists_scope_service h hhas
    exact ⟨top, _, sets, rfl, hscope⟩
  | method id =>
    obtain ⟨top, decl, sets, hscope⟩ := exists_scope_method h hhas
    exact ⟨top, _, sets, rfl, hscope⟩

end

/-- Every element has a scope, and from edition 2023 on it `Inherits` through this scope. -/
theorem features_inherit (h : ofFiles config files = .ok schema) :
    (∀ handle, schema.Has handle →
      ∃ top element sets, element.handle = handle ∧ schema.HasScope files top element sets) ∧
      ∀ {top : FileDecl} {element : Element} {sets : List FeatureSet}, schema.HasScope files top element sets →
        top.level.isLegacy = false → ∃ rules row,
          FeatureRules.ofTable top.level config.defaults config.extensions = .ok rules ∧
            config.defaults.rowFor? top.level = some row ∧
              Inherits rules row.features sets (schema.featuresOf element.handle) := by
  refine ⟨fun handle hhas => hasScope_of_has h hhas, fun {top element sets} hscope hlevel => ?_⟩
  obtain ⟨rules, row, hrules, _, hrow, hcomplete⟩ := hscope.exists_rules h
  exact ⟨rules, row, hrules, hrow, hscope.inherits h hrules hcomplete hlevel⟩

/-! ## A member of a oneof -/

/-- A noun, which has no `options`. -/
def nounDecl : FieldDecl where
  name := "noun"
  number := 1
  type := .string
  oneofIndex := some 0

/-- Words: the file, its message and the oneof in there all have features written on them. -/
def lexiconFile : FileDecl where
  name := "lexicon.proto"
  syntaxName := some "editions"
  edition := some .edition2023
  options := some { features := some { utf8Validation := some .none, jsonFormat := some .legacyBestEffort } }
  messageType := [
    { name := "Word"
      field := [nounDecl]
      oneofDecl := [{ name := "sense", options := some { features := some { utf8Validation := some .verify } } }]
      options := some {
        features := some {
          fieldPresence := some .implicit, utf8Validation := some .none
          extensions := [("lexicon.tone", .text "plain"), ("lexicon.pitch", .text "low")] } } }]

/-- Tones of words are extensions of `FeatureSet`. -/
def lexiconConfig : Config where
  extensions := [{ name := "lexicon.tone", extendee := "google.protobuf.FeatureSet" }]

/-- The rules of `lexiconFile` under `lexiconConfig`. -/
def lexiconRules : FeatureRules where
  edition := .edition2023
  defaults := {
    fieldPresence := .explicit, enumOpenness := .openEnded, repeatedEncoding := .packed
    utf8Validation := .verify, messageEncoding := .lengthPrefixed, jsonFormat := .allow
  }
  extensions := lexiconConfig.extensions

theorem ofTable_lexicon :
    FeatureRules.ofTable lexiconFile.level lexiconConfig.defaults lexiconConfig.extensions = .ok lexiconRules :=
  rfl

theorem exists_ofFiles_lexicon : ∃ schema, ofFiles lexiconConfig [lexiconFile] = .ok schema :=
  exists_ofFiles lexiconRules ofTable_lexicon rfl (by cbv)

/-- The scope of `nounDecl`: its oneof, its message and the file. -/
theorem hasScope_noun (h : ofFiles lexiconConfig [lexiconFile] = .ok schema) :
    schema.HasScope [lexiconFile] lexiconFile (.field ⟨0⟩ nounDecl) [
      { utf8Validation := some .verify },
      { fieldPresence := some .implicit, utf8Validation := some .none
        extensions := [("lexicon.tone", .text "plain"), ("lexicon.pitch", .text "low")] },
      { utf8Validation := some .none, jsonFormat := some .legacyBestEffort }] := by
  obtain ⟨dependencies, hfiles⟩ := files_of_ofFiles ofTable_lexicon h
  have hfile := @file_of_getElem? schema ⟨0⟩ _ (congrArg (·[0]?) hfiles)
  have hmessage := @message_of_getElem? schema ⟨0⟩ _ (congrArg (·[0]?) (messages_of_ofFiles ofTable_lexicon h))
  have honeof := @oneof_of_getElem? schema ⟨0⟩ _ (congrArg (·[0]?) (oneofs_of_ofFiles ofTable_lexicon h))
  have hfields := fields_of_ofFiles ofTable_lexicon h (by cbv)
  have hnoun : (schema.field ⟨0⟩).oneof = some ⟨0⟩ := by
    rw [Schema.field, ← Array.getElem?_toList, hfields]
    rfl
  have hreal : schema.realOneof? (schema.field ⟨0⟩) = some ⟨0⟩ := by
    rw [realOneof?, hnoun, Option.filter_some, honeof]
    rfl
  have hword : .message ⟨0⟩ lexiconFile.messageType[0] ∈ schema.inside (.file ⟨0⟩ lexiconFile) := by
    rw [Schema.inside, hfile]
    exact List.mem_cons_self
  have htop : schema.HasScope [lexiconFile] lexiconFile (.file ⟨0⟩ lexiconFile) _ := .file rfl
  let word := lexiconFile.messageType[0]
  have hmember : (⟨0⟩, nounDecl) ∈ (schema.message ⟨0⟩).fields.zip word.field := by
    rw [hmessage]
    exact List.mem_cons_self
  have hsense : (⟨0⟩, word.oneofDecl[0]) ∈ (schema.message ⟨0⟩).oneofs.zip word.oneofDecl := by
    rw [hmessage]
    exact List.mem_cons_self
  exact (htop.inside hword).member hmember hreal hsense

/-- `nounDecl` has `utf8Validation` of its oneof, `fieldPresence` and the tone of its message, and `jsonFormat`
of the file. Pitch is no feature. -/
theorem features_inherit_noun : ∃ schema, ofFiles lexiconConfig [lexiconFile] = .ok schema ∧
    lexiconFile.level.isLegacy = false ∧ schema.Has (.field ⟨0⟩) ∧
      (∃ top element sets, element.handle = .field ⟨0⟩ ∧ schema.HasScope [lexiconFile] top element sets) ∧
        ∃ sets row, schema.HasScope [lexiconFile] lexiconFile (.field ⟨0⟩ nounDecl) sets ∧
          Inherits lexiconRules row sets (schema.field ⟨0⟩).features ∧ (schema.field ⟨0⟩).features = {
            fieldPresence := .implicit, enumOpenness := .openEnded, repeatedEncoding := .packed
            utf8Validation := .verify, messageEncoding := .lengthPrefixed, jsonFormat := .legacyBestEffort
            extensions := [("lexicon.tone", .text "plain")] } := by
  obtain ⟨schema, hschema⟩ := exists_ofFiles_lexicon
  obtain ⟨hscopes, hinherits⟩ := features_inherit hschema
  have hfields := fields_of_ofFiles ofTable_lexicon hschema (by cbv)
  have hhas : schema.Has (.field ⟨0⟩) := by
    show 0 < schema.fields.size
    rw [← Array.length_toList, hfields]
    decide
  have hscope := hasScope_noun hschema
  obtain ⟨rules, row, hrules, _, hnoun⟩ := hinherits hscope rfl
  cases ofTable_lexicon.symm.trans hrules
  refine ⟨schema, hschema, rfl, hhas, hscopes _ hhas, _, row.features, hscope, hnoun, ?_⟩
  rw [Schema.field, ← Array.getElem?_toList, hfields]
  rfl

end SchemaLayout.Schema
