import SchemaLayout.Proofs.Compiler.Growth
import SchemaLayout.Proofs.Schema.References

/-!
# Scopes

What the elements of a schema were declared as, and which declarations are around them (`HasScope`). Schema and
declarations are gone through side by side, from the files down: what a message of the schema lists at a place was
made of what its declaration has at that place. That this is so comes from numbering, which gives an element
and everything in it numbers of their own (`HasAdded`, `IsMadeOf`).
-/

namespace SchemaLayout

/-! ## Elements and declarations -/

/-- An element of a schema, and what it was declared as. -/
inductive Element where
  | file (id : FileId) (decl : FileDecl)
  | message (id : MessageId) (decl : MessageDecl)
  | field (id : FieldId) (decl : FieldDecl)
  | oneof (id : OneofId) (decl : OneofDecl)
  | enum (id : EnumId) (decl : EnumDecl)
  | value (id : EnumValueId) (decl : EnumValueDecl)
  | service (id : ServiceId) (decl : ServiceDecl)
  | method (id : MethodId) (decl : MethodDecl)

namespace Element

/-- The number of an element. -/
def handle : Element → Handle
  | file id _ => .file id
  | message id _ => .message id
  | field id _ => .field id
  | oneof id _ => .oneof id
  | enum id _ => .enum id
  | value id _ => .value id
  | service id _ => .service id
  | method id _ => .method id

/-- The features that are written on an element. -/
def written : Element → Option FeatureSet
  | file _ decl => decl.options.bind (·.features)
  | message _ decl => decl.options.bind (·.features)
  | field _ decl => decl.options.bind (·.features)
  | oneof _ decl => decl.options.bind (·.features)
  | enum _ decl => decl.options.bind (·.features)
  | value _ decl => decl.options.bind (·.features)
  | service _ decl => decl.options.bind (·.features)
  | method _ decl => decl.options.bind (·.features)

end Element

namespace Schema

/-- The features of an element. -/
def featuresOf (schema : Schema) : Handle → Features
  | .file id => (schema.file id).features
  | .message id => (schema.message id).features
  | .field id => (schema.field id).features
  | .oneof id => (schema.oneof id).features
  | .enum id => (schema.enum id).features
  | .value id => (schema.value id).features
  | .service id => (schema.service id).features
  | .method id => (schema.method id).features

/-- The elements that stand directly in an element, apart from the fields of messages. -/
def inside (schema : Schema) : Element → List Element
  | .file id decl =>
    let file := schema.file id
    (file.messages.zip decl.messageType).map (fun entry => .message entry.1 entry.2)
      ++ (file.enums.zip decl.enumType).map (fun entry => .enum entry.1 entry.2)
      ++ (file.services.zip decl.service).map (fun entry => .service entry.1 entry.2)
      ++ (file.extensions.zip decl.extension).map (fun entry => .field entry.1 entry.2)
  | .message id decl =>
    let message := schema.message id
    (message.nestedTypes.zip decl.nestedType).map (fun entry => .message entry.1 entry.2)
      ++ (message.enums.zip decl.enumType).map (fun entry => .enum entry.1 entry.2)
      ++ (message.oneofs.zip decl.oneofDecl).map (fun entry => .oneof entry.1 entry.2)
      ++ (message.extensions.zip decl.extension).map (fun entry => .field entry.1 entry.2)
  | .enum id decl => ((schema.enum id).values.zip decl.value).map fun entry => .value entry.1 entry.2
  | .service id decl => ((schema.service id).methods.zip decl.method).map fun entry => .method entry.1 entry.2
  | _ => []

/-- The element is in the file `top`, and `sets` are written on it and on the elements around it, from the
innermost one on. A field is in its oneof if that is real, and otherwise directly in its message. -/
inductive HasScope (schema : Schema) (files : List FileDecl) (top : FileDecl) :
    Element → List FeatureSet → Prop
  | file {index : Nat} : files[index]? = some top →
    HasScope schema files top (.file ⟨index⟩ top) (Element.file ⟨index⟩ top).written.toList
  | inside {outer inner : Element} {sets : List FeatureSet} : HasScope schema files top outer sets →
    inner ∈ schema.inside outer → HasScope schema files top inner (inner.written.toList ++ sets)
  | field {message : MessageId} {decl : MessageDecl} {sets : List FeatureSet} {id : FieldId}
    {fieldDecl : FieldDecl} : HasScope schema files top (.message message decl) sets →
    (id, fieldDecl) ∈ (schema.message message).fields.zip decl.field →
    schema.realOneof? (schema.field id) = none →
    HasScope schema files top (.field id fieldDecl) ((Element.field id fieldDecl).written.toList ++ sets)
  | member {message : MessageId} {decl : MessageDecl} {sets : List FeatureSet} {oneof : OneofId}
    {oneofDecl : OneofDecl} {id : FieldId} {fieldDecl : FieldDecl} :
    HasScope schema files top (.message message decl) sets →
    (id, fieldDecl) ∈ (schema.message message).fields.zip decl.field →
    schema.realOneof? (schema.field id) = some oneof →
    (oneof, oneofDecl) ∈ (schema.message message).oneofs.zip decl.oneofDecl →
    HasScope schema files top (.field id fieldDecl) ((Element.field id fieldDecl).written.toList
      ++ ((Element.oneof oneof oneofDecl).written.toList ++ sets))

/-! ## Additions in a schema -/

/-- The schema has additions under the numbers from `start` on, fields and methods linked. -/
structure HasAdded (schema : Schema) (start : Counts) (additions : Additions) : Prop where
  messages : ∀ {index : Nat} {node : MessageNode},
    numbered? start.messages additions.messages index = some node → schema.messages[index]? = some node
  fields : ∀ {index : Nat} {draft : FieldDraft}, numbered? start.fields additions.fields index = some draft →
    ∃ linking field, schema.fields[index]? = some field ∧ Linking.field linking draft = .ok field
  oneofs : ∀ {index : Nat} {node : OneofNode},
    numbered? start.oneofs additions.oneofs index = some node → schema.oneofs[index]? = some node
  enums : ∀ {index : Nat} {node : EnumNode},
    numbered? start.enums additions.enums index = some node → schema.enums[index]? = some node
  values : ∀ {index : Nat} {node : EnumValueNode},
    numbered? start.values additions.values index = some node → schema.values[index]? = some node
  services : ∀ {index : Nat} {node : ServiceNode},
    numbered? start.services additions.services index = some node → schema.services[index]? = some node
  methods : ∀ {index : Nat} {draft : MethodDraft},
    numbered? start.methods additions.methods index = some draft →
    ∃ linking method, schema.methods[index]? = some method ∧ Linking.method linking draft = .ok method

namespace HasAdded

variable {schema : Schema} {start : Counts} {first second additions : Additions}

/-- `HasAdded` for the additions in front. -/
theorem left (h : schema.HasAdded start (first ++ second)) : schema.HasAdded start first where
  messages hnode := h.messages (numbered?_append.2 (Or.inl hnode))
  fields hdraft := h.fields (numbered?_append.2 (Or.inl hdraft))
  oneofs hnode := h.oneofs (numbered?_append.2 (Or.inl hnode))
  enums hnode := h.enums (numbered?_append.2 (Or.inl hnode))
  values hnode := h.values (numbered?_append.2 (Or.inl hnode))
  services hnode := h.services (numbered?_append.2 (Or.inl hnode))
  methods hdraft := h.methods (numbered?_append.2 (Or.inl hdraft))

/-- `HasAdded` for the additions behind. -/
theorem right (h : schema.HasAdded start (first ++ second)) : schema.HasAdded (start + first.counts) second where
  messages hnode := h.messages (numbered?_append.2 (Or.inr hnode))
  fields hdraft := h.fields (numbered?_append.2 (Or.inr hdraft))
  oneofs hnode := h.oneofs (numbered?_append.2 (Or.inr hnode))
  enums hnode := h.enums (numbered?_append.2 (Or.inr hnode))
  values hnode := h.values (numbered?_append.2 (Or.inr hnode))
  services hnode := h.services (numbered?_append.2 (Or.inr hnode))
  methods hdraft := h.methods (numbered?_append.2 (Or.inr hdraft))

theorem of_isPartOf {after : Schema} (h : schema.HasAdded start additions) (hpart : schema.IsPartOf after) :
    after.HasAdded start additions where
  messages hnode := hpart.messages (h.messages hnode)
  fields hdraft := by
    obtain ⟨linking, field, hfield, hlink⟩ := h.fields hdraft
    exact ⟨linking, field, hpart.fields hfield, hlink⟩
  oneofs hnode := hpart.oneofs (h.oneofs hnode)
  enums hnode := hpart.enums (h.enums hnode)
  values hnode := hpart.values (h.values hnode)
  services hnode := hpart.services (h.services hnode)
  methods hdraft := by
    obtain ⟨linking, method, hmethod, hlink⟩ := h.methods hdraft
    exact ⟨linking, method, hpart.methods hmethod, hlink⟩

end HasAdded

/-- `addDeclarations` gives `HasAdded` for what numbering makes of the file. -/
theorem hasAdded_addDeclarations {schema next : Schema} {rules : FeatureRules} {decl : FileDecl}
    (h : schema.addDeclarations rules decl = .ok next) :
    let numbered := Numbering.file ⟨rules, ⟨schema.files.size⟩⟩ schema.counts decl
    (∃ dependencies, next.files[schema.files.size]? = some { numbered.1 with dependencies }) ∧
      next.HasAdded schema.counts numbered.2 := by
  obtain ⟨directory, dependencies, fields, methods, _, _, hfields, hmethods, rfl⟩ :=
    addDeclarations_eq_ok_iff.1 h
  refine ⟨⟨dependencies, Array.getElem?_push_size⟩, ?_⟩
  constructor
  case fields =>
    intro index draft hdraft
    obtain ⟨field, hfield, hlink⟩ := exists_numbered?_of_mapM hfields hdraft
    exact ⟨_, field, getElem?_append_eq_some_iff.2 (Or.inr hfield), hlink⟩
  case methods =>
    intro index draft hdraft
    obtain ⟨method, hmethod, hlink⟩ := exists_numbered?_of_mapM hmethods hdraft
    exact ⟨_, method, getElem?_append_eq_some_iff.2 (Or.inr hmethod), hlink⟩
  all_goals
    intro index node hnode
    exact getElem?_append_eq_some_iff.2 (Or.inr hnode)

/-! ## What elements were made of -/

/-- The element was made of its declaration, where the features `inherited` are around it. -/
def IsMadeOf (schema : Schema) (context : Numbering.Context) (inherited : Features) : Element → Prop
  | .file id decl => inherited = context.rules.defaults ∧ ∃ start dependencies,
    schema.files[id.index]? = some { (Numbering.file context start decl).1 with dependencies } ∧
      schema.HasAdded start (Numbering.file context start decl).2
  | .message id decl => ∃ start container scope, id = ⟨start.messages⟩ ∧
    schema.HasAdded start (Numbering.message context start container scope inherited decl)
  | .enum id decl => ∃ start container scope, id = ⟨start.enums⟩ ∧
    schema.HasAdded start (Numbering.enum context start container scope inherited decl)
  | .service id decl => ∃ start scope, id = ⟨start.services⟩ ∧
    schema.HasAdded start (Numbering.service context start scope inherited decl)
  | .field id decl => (schema.field id).features = context.rules.resolveField decl inherited
  | element => schema.featuresOf element.handle = context.rules.resolve element.written inherited

section

variable {schema : Schema}

theorem file_of_getElem? {id : FileId} {file : FileNode} (h : schema.files[id.index]? = some file) :
    schema.file id = file := by
  rw [Schema.file, h]
  rfl

theorem enum_of_getElem? {id : EnumId} {enum : EnumNode} (h : schema.enums[id.index]? = some enum) :
    schema.enum id = enum := by
  rw [Schema.enum, h]
  rfl

theorem service_of_getElem? {id : ServiceId} {service : ServiceNode}
    (h : schema.services[id.index]? = some service) : schema.service id = service := by
  rw [Schema.service, h]
  rfl

end

section

variable {schema : Schema} {context : Numbering.Context} {start : Counts} {inherited : Features}

/-! ### Lists of declarations -/

/-- `IsMadeOf` for a list of messages. -/
theorem isMadeOf_of_mem_messages {container : Option MessageId} {scope : String} {decls : List MessageDecl}
    (h : schema.HasAdded start (Numbering.messages context start container scope inherited decls).2)
    {entry : MessageId × MessageDecl}
    (hentry : entry ∈ (Numbering.messages context start container scope inherited decls).1.zip decls) :
    schema.IsMadeOf context inherited (.message entry.1 entry.2) := by
  induction decls generalizing start with
  | nil => simp at hentry
  | cons decl rest ih =>
    rw [Numbering.messages] at h hentry
    rcases List.mem_cons.1 hentry with rfl | hentry
    · exact ⟨start, container, scope, rfl, h.left⟩
    · exact ih h.right hentry

theorem length_messages (context : Numbering.Context) (start : Counts) (container : Option MessageId)
    (scope : String) (inherited : Features) (decls : List MessageDecl) :
    (Numbering.messages context start container scope inherited decls).1.length = decls.length := by
  induction decls generalizing start with
  | nil => rfl
  | cons decl rest ih =>
    rw [Numbering.messages]
    exact congrArg Nat.succ (ih _)

/-- `IsMadeOf` for a list of enums. -/
theorem isMadeOf_of_mem_enums {container : Option MessageId} {scope : String} {decls : List EnumDecl}
    (h : schema.HasAdded start (Numbering.enums context start container scope inherited decls))
    {entry : EnumId × EnumDecl}
    (hentry : entry ∈ ((List.range' start.enums decls.length).map .mk).zip decls) :
    schema.IsMadeOf context inherited (.enum entry.1 entry.2) := by
  induction decls generalizing start with
  | nil => simp at hentry
  | cons decl rest ih =>
    rw [List.length_cons, List.range'_succ] at hentry
    rcases List.mem_cons.1 hentry with rfl | hentry
    · exact ⟨start, container, scope, rfl, h.left⟩
    · exact ih h.right hentry

theorem isMadeOf_of_mem_services {scope : String} {decls : List ServiceDecl}
    (h : schema.HasAdded start (Numbering.services context start scope inherited decls))
    {entry : ServiceId × ServiceDecl}
    (hentry : entry ∈ ((List.range' start.services decls.length).map .mk).zip decls) :
    schema.IsMadeOf context inherited (.service entry.1 entry.2) := by
  induction decls generalizing start with
  | nil => simp at hentry
  | cons decl rest ih =>
    rw [List.length_cons, List.range'_succ] at hentry
    rcases List.mem_cons.1 hentry with rfl | hentry
    · exact ⟨start, scope, rfl, h.left⟩
    · exact ih h.right hentry

/-- The numbers of `List.range' first list.length` are those of the elements beside them. -/
theorem exists_numbered?_of_mem_zip {ι α : Type} {mk : Nat → ι} {first : Nat} {list : List α} {entry : ι × α}
    (h : entry ∈ ((List.range' first list.length).map mk).zip list) :
    ∃ index, entry.1 = mk index ∧ numbered? first list index = some entry.2 := by
  obtain ⟨place, hplace⟩ := List.mem_iff_getElem?.1 h
  obtain ⟨hid, hlist⟩ := List.getElem?_zip_eq_some.1 hplace
  have hlt := (List.getElem?_eq_some_iff.1 hlist).1
  rw [List.getElem?_map, List.getElem?_range' hlt, Option.map_some, Option.some.injEq, Nat.one_mul] at hid
  exact ⟨first + place, hid.symm, (numbered?_add place list).trans hlist⟩

theorem numbered?_map {α β : Type} (f : α → β) (first : Nat) (list : List α) (index : Nat) :
    numbered? first (list.map f) index = (numbered? first list index).map f := by
  unfold numbered?
  split
  · rfl
  · exact List.getElem?_map ..

theorem numbered?_zipIdx {α : Type} (first : Nat) (list : List α) (index : Nat) :
    numbered? first list.zipIdx index = (numbered? first list index).map fun a => (a, index - first) := by
  unfold numbered?
  split
  · rfl
  · rw [List.getElem?_zipIdx, Nat.zero_add]

/-- `Linking.field` leaves the features and the oneof of a field alone. -/
theorem features_of_hasAdded {additions : Additions} (h : schema.HasAdded start additions) {index : Nat}
    {draft : FieldDraft} (hdraft : numbered? start.fields additions.fields index = some draft) :
    (schema.field ⟨index⟩).features = draft.node.features ∧ (schema.field ⟨index⟩).oneof = draft.node.oneof := by
  obtain ⟨linking, field, hfield, hlink⟩ := h.fields hdraft
  obtain ⟨_, _, _, _, rfl⟩ := Linking.field_eq_ok_iff.1 hlink
  have hnode : schema.field ⟨index⟩ = _ := field_of_getElem? hfield
  rw [hnode]
  exact ⟨rfl, rfl⟩

/-- `IsMadeOf` for a list of extensions. -/
theorem isMadeOf_of_mem_extensions {declaredIn : Option MessageId} {scope : String} {decls : List FieldDecl}
    (h : schema.HasAdded start (Numbering.extensions context declaredIn scope inherited decls))
    {entry : FieldId × FieldDecl} (hentry : entry ∈ (Numbering.fieldIds start.fields decls.length).zip decls) :
    schema.IsMadeOf context inherited (.field entry.1 entry.2) := by
  obtain ⟨index, hid, hdecl⟩ := exists_numbered?_of_mem_zip hentry
  have hdraft : numbered? start.fields (Numbering.extensions context declaredIn scope inherited decls).fields index =
      some _ := (numbered?_map _ _ _ _).trans (congrArg (Option.map _) hdecl)
  show (schema.field entry.1).features = _
  rw [hid]
  exact (features_of_hasAdded h hdraft).1

/-! ### What elements have of their declarations -/

/-- An element lists as many elements of each kind as its declaration. -/
def ListsAll (schema : Schema) : Element → Prop
  | .file id decl =>
    let file := schema.file id
    file.messages.length = decl.messageType.length ∧ file.enums.length = decl.enumType.length ∧
      file.services.length = decl.service.length ∧ file.extensions.length = decl.extension.length
  | .message id decl =>
    let message := schema.message id
    message.nestedTypes.length = decl.nestedType.length ∧ message.enums.length = decl.enumType.length ∧
      message.oneofs.length = decl.oneofDecl.length ∧ message.extensions.length = decl.extension.length ∧
      message.fields.length = decl.field.length
  | .enum id decl => (schema.enum id).values.length = decl.value.length
  | .service id decl => (schema.service id).methods.length = decl.method.length
  | _ => True

/-- An element has the features and the parts that its declaration gives it. -/
structure Reflects (schema : Schema) (context : Numbering.Context) (inherited : Features) (element : Element) :
    Prop where
  features : schema.featuresOf element.handle = context.rules.resolve element.written inherited
  all : schema.ListsAll element
  inside : ∀ inner ∈ schema.inside element,
    schema.IsMadeOf context (schema.featuresOf element.handle) inner

theorem reflects_enum {id : EnumId} {decl : EnumDecl} (h : schema.IsMadeOf context inherited (.enum id decl)) :
    schema.Reflects context inherited (.enum id decl) := by
  obtain ⟨start, container, scope, rfl, h⟩ := h
  have henum := @enum_of_getElem? schema ⟨start.enums⟩ _ (h.enums (numbered?_add 0 _))
  constructor
  case features => exact congrArg EnumNode.features henum
  case all =>
    show (schema.enum ⟨start.enums⟩).values.length = decl.value.length
    rw [henum]
    simp
  case inside =>
    simp only [Schema.inside, Element.handle, featuresOf, henum, List.forall_mem_map]
    intro entry hentry
    obtain ⟨index, hid, hdecl⟩ := exists_numbered?_of_mem_zip hentry
    have hvalue := h.values ((numbered?_map _ _ _ _).trans (congrArg (Option.map _) hdecl))
    show (schema.value entry.1).features = _
    rw [hid, Schema.value, hvalue]
    rfl

/-- `IsMadeOf` gives `Reflects` for services. -/
theorem reflects_service {id : ServiceId} {decl : ServiceDecl}
    (h : schema.IsMadeOf context inherited (.service id decl)) :
    schema.Reflects context inherited (.service id decl) := by
  obtain ⟨start, scope, rfl, h⟩ := h
  have hservice := @service_of_getElem? schema ⟨start.services⟩ _ (h.services (numbered?_add 0 _))
  constructor
  case features => exact congrArg ServiceNode.features hservice
  case all =>
    show (schema.service ⟨start.services⟩).methods.length = decl.method.length
    rw [hservice]
    simp
  case inside =>
    simp only [Schema.inside, Element.handle, featuresOf, hservice, List.forall_mem_map]
    intro entry hentry
    obtain ⟨index, hid, hdecl⟩ := exists_numbered?_of_mem_zip hentry
    obtain ⟨linking, method, hmethod, hlink⟩ :=
      h.methods ((numbered?_map _ _ _ _).trans (congrArg (Option.map _) hdecl))
    obtain ⟨_, _, _, _, rfl⟩ := Linking.method_eq_ok_iff.1 hlink
    show (schema.method entry.1).features = _
    rw [hid, Schema.method, hmethod]
    rfl

/-- `HasAdded` for the `head` of a message, for what is nested in it, its enums and its extensions. -/
theorem HasAdded.message_parts {container : Option MessageId} {scope : String} {decl : MessageDecl}
    (h : schema.HasAdded start (Numbering.message context start container scope inherited decl)) :
    let fullName := Name.qualify scope decl.name
    let features := context.rules.resolve (decl.options.bind (·.features)) inherited
    let own : Option MessageId := some ⟨start.messages⟩
    let inside := start + Numbering.headCounts decl
    let nested := Numbering.messages context inside own fullName features decl.nestedType
    let afterNested := inside + nested.2.counts
    let enums := Numbering.enums context afterNested own fullName features decl.enumType
    schema.HasAdded start (Numbering.head context start container fullName features nested.1
        ((List.range' afterNested.enums decl.enumType.length).map .mk)
        (Numbering.fieldIds afterNested.fields decl.extension.length) decl) ∧
      schema.HasAdded inside nested.2 ∧ schema.HasAdded afterNested enums ∧
      schema.HasAdded (afterNested + enums.counts)
        (Numbering.extensions context own fullName features decl.extension) := by
  intro fullName features own inside nested afterNested enums
  rw [Numbering.message_eq] at h
  refine ⟨h.left.left.left, ?_, ?_, ?_⟩
  · have hnested := h.left.left.right
    rwa [Numbering.counts_head] at hnested
  · have henums := h.left.right
    rwa [Additions.counts_append, Numbering.counts_head, ← Counts.add_assoc] at henums
  · have hextensions := h.right
    rwa [Additions.counts_append, Additions.counts_append, Numbering.counts_head, ← Counts.add_assoc,
      ← Counts.add_assoc] at hextensions

theorem length_oneofs (context : Numbering.Context) (start : Counts) (fullName : String) (features : Features)
    (decl : MessageDecl) :
    (Numbering.oneofs context start fullName features decl).length = decl.oneofDecl.length := by
  rw [Numbering.oneofs, List.length_map, List.length_zipIdx]

/-- `IsMadeOf` gives `Reflects` for messages. -/
theorem reflects_message {id : MessageId} {decl : MessageDecl}
    (h : schema.IsMadeOf context inherited (.message id decl)) :
    schema.Reflects context inherited (.message id decl) := by
  obtain ⟨start, container, scope, rfl, h⟩ := h
  obtain ⟨hhead, hnested, henums, hextensions⟩ := h.message_parts
  have hmessage := @message_of_getElem? schema ⟨start.messages⟩ _ (hhead.messages (numbered?_add 0 _))
  constructor
  case features => exact congrArg MessageNode.features hmessage
  case all =>
    simp only [ListsAll, hmessage, length_messages, List.length_map, List.length_range', Numbering.fieldIds,
      length_oneofs, and_self]
  case inside =>
    simp only [Schema.inside, Element.handle, featuresOf, hmessage, List.forall_mem_append, List.forall_mem_map]
    refine ⟨⟨⟨?_, ?_⟩, ?_⟩, ?_⟩
    · exact fun entry hentry => isMadeOf_of_mem_messages hnested hentry
    · exact fun entry hentry => isMadeOf_of_mem_enums henums hentry
    · -- Oneofs are made with their places, which `zipIdx` counts.
      intro entry hentry
      rw [length_oneofs] at hentry
      obtain ⟨index, hid, hdecl⟩ := exists_numbered?_of_mem_zip hentry
      have hplaced : numbered? start.oneofs decl.oneofDecl.zipIdx index = some (entry.2, index - start.oneofs) := by
        rw [numbered?_zipIdx, hdecl, Option.map_some]
      have honeof := hhead.oneofs ((numbered?_map _ _ _ _).trans (congrArg (Option.map _) hplaced))
      show (schema.oneof entry.1).features = _
      rw [hid, Schema.oneof, honeof]
      rfl
    · intro entry hentry
      rw [← Numbering.fields_add_counts (Numbering.fields_enums _ _ _)] at hentry
      exact isMadeOf_of_mem_extensions hextensions hentry

/-- `resolveField` starts from the oneof of the field if that is real, and otherwise from the message. -/
theorem features_of_head {container : Option MessageId} {fullName : String} {features : Features}
    {nestedTypes : List MessageId} {enums : List EnumId} {extensions : List FieldId} {decl : MessageDecl}
    (h : schema.HasAdded start
      (Numbering.head context start container fullName features nestedTypes enums extensions decl))
    {index : Nat} {member : FieldDecl} (hmember : numbered? start.fields decl.field index = some member) :
    (schema.field ⟨index⟩).features = context.rules.resolveField member
      ((schema.realOneof? (schema.field ⟨index⟩)).elim features fun oneof => (schema.oneof oneof).features) := by
  have hdraft : numbered? start.fields (Numbering.fields context start fullName features
      (Numbering.oneofs context start fullName features decl).toArray decl) index = some _ :=
    (numbered?_map _ _ _ _).trans (congrArg (Option.map _) hmember)
  obtain ⟨hfeatures, honeof⟩ := features_of_hasAdded h hdraft
  -- The oneofs of the head are in the schema under the numbers from the start on.
  have honeofs {place : Nat} {node : OneofNode}
      (hnode : (Numbering.oneofs context start fullName features decl)[place]? = some node) :
      schema.oneof ⟨start.oneofs + place⟩ = node :=
    oneof_of_getElem? (h.oneofs ((numbered?_add place _).trans hnode))
  rw [hfeatures, realOneof?, honeof]
  generalize Numbering.oneofs context start fullName features decl = nodes at *
  simp only [Numbering.field, List.size_toArray]
  cases hplace : member.oneofPlace? nodes.length with
  | none => rfl
  | some place =>
    have hnode := List.getElem?_eq_getElem (FieldDecl.lt_of_oneofPlace? hplace)
    simp only [Option.bind_some, Option.map_some, Option.filter_some, List.getElem?_toArray, hnode, honeofs hnode]
    split
    · exact congrArg (context.rules.resolveField member) (congrArg OneofNode.features (honeofs hnode).symm)
    · rfl

/-- `IsMadeOf` for the fields of a message. -/
theorem isMadeOf_field {id : MessageId} {decl : MessageDecl}
    (h : schema.IsMadeOf context inherited (.message id decl)) {entry : FieldId × FieldDecl}
    (hentry : entry ∈ (schema.message id).fields.zip decl.field) :
    schema.IsMadeOf context ((schema.realOneof? (schema.field entry.1)).elim (schema.message id).features
      fun oneof => (schema.oneof oneof).features) (.field entry.1 entry.2) := by
  obtain ⟨start, container, scope, rfl, h⟩ := h
  obtain ⟨hhead, _⟩ := h.message_parts
  have hmessage := @message_of_getElem? schema ⟨start.messages⟩ _ (hhead.messages (numbered?_add 0 _))
  rw [hmessage] at hentry ⊢
  obtain ⟨index, hid, hdecl⟩ := exists_numbered?_of_mem_zip hentry
  rw [hid]
  exact features_of_head hhead hdecl

/-- `HasAdded` for the messages, enums, services and extensions of a file. -/
theorem HasAdded.file_parts {decl : FileDecl} (h : schema.HasAdded start (Numbering.file context start decl).2) :
    let features := context.rules.resolve (decl.options.bind (·.features)) context.rules.defaults
    let messages := Numbering.messages context start none decl.package features decl.messageType
    let afterMessages := start + messages.2.counts
    let enums := Numbering.enums context afterMessages none decl.package features decl.enumType
    let afterEnums := afterMessages + enums.counts
    let services := Numbering.services context afterEnums decl.package features decl.service
    schema.HasAdded start messages.2 ∧ schema.HasAdded afterMessages enums ∧
      schema.HasAdded afterEnums services ∧
      schema.HasAdded (afterEnums + services.counts)
        (Numbering.extensions context none decl.package features decl.extension) := by
  intro features messages afterMessages enums afterEnums services
  rw [Numbering.file] at h
  refine ⟨h.left.left.left, h.left.left.right, ?_, ?_⟩
  · have hservices := h.left.right
    rwa [Additions.counts_append, ← Counts.add_assoc] at hservices
  · have hextensions := h.right
    rwa [Additions.counts_append, Additions.counts_append, ← Counts.add_assoc, ← Counts.add_assoc] at hextensions

/-- `IsMadeOf` gives `Reflects` for files. -/
theorem reflects_file {id : FileId} {decl : FileDecl} (h : schema.IsMadeOf context inherited (.file id decl)) :
    schema.Reflects context inherited (.file id decl) := by
  obtain ⟨rfl, start, dependencies, hfile, h⟩ := h
  obtain ⟨hmessages, henums, hservices, hextensions⟩ := h.file_parts
  have hfile := file_of_getElem? hfile
  rw [Numbering.file] at hfile
  constructor
  case features => exact congrArg FileNode.features hfile
  case all =>
    simp only [ListsAll, hfile, length_messages, List.length_map, List.length_range', Numbering.fieldIds, and_self]
  case inside =>
    simp only [Schema.inside, Element.handle, featuresOf, hfile, List.forall_mem_append, List.forall_mem_map]
    refine ⟨⟨⟨?_, ?_⟩, ?_⟩, ?_⟩
    · exact fun entry hentry => isMadeOf_of_mem_messages hmessages hentry
    · exact fun entry hentry => isMadeOf_of_mem_enums henums hentry
    · exact fun entry hentry => isMadeOf_of_mem_services hservices hentry
    · intro entry hentry
      rw [← Numbering.fields_add_counts (Numbering.fields_services _ _ _)] at hentry
      exact isMadeOf_of_mem_extensions hextensions hentry

end

end Schema

end SchemaLayout
