import SchemaLayout.Proofs.Schema.Scopes

/-!
# Full names

The full name of an element joins the names around it with its own: that of the package, those of the messages it
stands in from the outermost one on, and that of its service if it is a method (`isNamed_ofFiles`). Values of
enums are named as siblings of their enum. Numbering hands the name of what is around from a message to what is
in it, so the names are gone through along the nesting of messages.
-/

namespace SchemaLayout

/-! ## Joined names -/

namespace Name

/-- Names from the outside to the inside, put together by `qualify`. Empty names on the outside add no dot. -/
def join (names : List String) : String :=
  names.foldl qualify ""

theorem join_singleton (name : String) : join [name] = name := by
  show qualify "" name = name
  rw [qualify, if_pos rfl]

/-- `join` with one more name inside. -/
theorem join_concat (names : List String) (name : String) :
    join (names ++ [name]) = qualify (join names) name :=
  List.foldl_append

end Name

namespace Schema

/-! ## Names around elements -/

/-- The names around what stands in `container`, or at the top of the file: first the package, then the
messages, from the outermost one on. -/
inductive Encloses (schema : Schema) (file : FileId) : Option MessageId → List String → Prop
  | file {node : FileNode} : schema.files[file.index]? = some node → Encloses schema file none [node.package]
  | message {id : MessageId} {node : MessageNode} {names : List String} :
    schema.messages[id.index]? = some node → node.file = file → Encloses schema file node.containingType names →
    Encloses schema file (some id) (names ++ [node.name])

/-- `fullName` joins the names around and `name`. -/
def IsFullName (schema : Schema) (file : FileId) (container : Option MessageId) (name fullName : String) : Prop :=
  ∃ names, schema.Encloses file container names ∧ fullName = Name.join (names ++ [name])

/-- `scope` joins the names around. -/
def IsScope (schema : Schema) (file : FileId) (container : Option MessageId) (scope : String) : Prop :=
  ∃ names, schema.Encloses file container names ∧ scope = Name.join names

section

variable {schema after : Schema} {file : FileId} {container : Option MessageId}

theorem Encloses.of_isPartOf {names : List String} (h : schema.Encloses file container names)
    (hpart : schema.IsPartOf after) : after.Encloses file container names := by
  induction h with
  | file hnode => exact .file (hpart.files hnode)
  | message hnode hfile _ ih => exact .message (hpart.messages hnode) hfile ih

theorem IsFullName.of_isPartOf {name fullName : String} (h : schema.IsFullName file container name fullName)
    (hpart : schema.IsPartOf after) : after.IsFullName file container name fullName := by
  obtain ⟨names, hencloses, hname⟩ := h
  exact ⟨names, hencloses.of_isPartOf hpart, hname⟩

/-- The scope at the top of a file is its `package`. -/
theorem isScope_none {node : FileNode} (h : schema.files[file.index]? = some node) :
    schema.IsScope file none node.package :=
  ⟨_, .file h, (Name.join_singleton _).symm⟩

/-- `Name.qualify` makes full names of names in a scope. -/
theorem IsScope.isFullName {scope : String} (h : schema.IsScope file container scope) (name : String) :
    schema.IsFullName file container name (Name.qualify scope name) := by
  obtain ⟨names, hencloses, rfl⟩ := h
  exact ⟨names, hencloses, (Name.join_concat names name).symm⟩

/-- The scope in a message is the full name of the message. -/
theorem IsScope.inside {scope : String} (id : MessageId) {node : MessageNode}
    (hnode : schema.messages[id.index]? = some node) (h : schema.IsScope node.file node.containingType scope) :
    schema.IsScope node.file (some id) (Name.qualify scope node.name) := by
  obtain ⟨names, hencloses, rfl⟩ := h
  exact ⟨_, .message hnode rfl hencloses, (Name.join_concat names node.name).symm⟩

end

/-! ## Additions -/

/-- The full names of additions join the names around, in the schema. -/
structure NamesAdditions (schema : Schema) (additions : Additions) : Prop where
  messages : ∀ message ∈ additions.messages,
    schema.IsFullName message.file message.containingType message.name message.fullName
  fields : ∀ draft ∈ additions.fields,
    schema.IsFullName draft.node.file draft.node.declaredIn draft.node.name draft.node.fullName
  oneofs : ∀ oneof ∈ additions.oneofs, ∃ message, schema.messages[oneof.containingType.index]? = some message ∧
    schema.IsFullName message.file (some oneof.containingType) oneof.name oneof.fullName
  enums : ∀ enum ∈ additions.enums, schema.IsFullName enum.file enum.containingType enum.name enum.fullName
  values : ∀ value ∈ additions.values, ∃ enum, schema.enums[value.enum.index]? = some enum ∧
    schema.IsFullName enum.file enum.containingType value.name value.fullName
  services : ∀ service ∈ additions.services, schema.IsFullName service.file none service.name service.fullName
  methods : ∀ draft ∈ additions.methods, ∃ service, schema.services[draft.service.index]? = some service ∧
    draft.fullName = Name.qualify service.fullName draft.name

section

variable {schema : Schema} {context : Numbering.Context} {start : Counts} {container : Option MessageId}
  {scope : String}

theorem namesAdditions_nothing : schema.NamesAdditions {} := by
  constructor <;> exact List.forall_mem_nil _

theorem NamesAdditions.append {first second : Additions} (h : schema.NamesAdditions first)
    (hmore : schema.NamesAdditions second) : schema.NamesAdditions (first ++ second) where
  messages := List.forall_mem_append.2 ⟨h.messages, hmore.messages⟩
  fields := List.forall_mem_append.2 ⟨h.fields, hmore.fields⟩
  oneofs := List.forall_mem_append.2 ⟨h.oneofs, hmore.oneofs⟩
  enums := List.forall_mem_append.2 ⟨h.enums, hmore.enums⟩
  values := List.forall_mem_append.2 ⟨h.values, hmore.values⟩
  services := List.forall_mem_append.2 ⟨h.services, hmore.services⟩
  methods := List.forall_mem_append.2 ⟨h.methods, hmore.methods⟩

/-- The values of an enum are named in the scope of the enum. -/
theorem namesAdditions_enum (hscope : schema.IsScope context.file container scope) (inherited : Features)
    (decl : EnumDecl) (h : schema.HasAdded start (Numbering.enum context start container scope inherited decl)) :
    schema.NamesAdditions (Numbering.enum context start container scope inherited decl) := by
  constructor
  case enums =>
    intro enum henum
    cases List.mem_singleton.1 henum
    exact hscope.isFullName decl.name
  case values =>
    intro value hvalue
    obtain ⟨value, _, rfl⟩ := List.mem_map.1 hvalue
    exact ⟨_, h.enums (numbered?_add 0 _), hscope.isFullName value.name⟩
  all_goals exact List.forall_mem_nil _

theorem namesAdditions_enums (hscope : schema.IsScope context.file container scope) (inherited : Features)
    (decls : List EnumDecl)
    (h : schema.HasAdded start (Numbering.enums context start container scope inherited decls)) :
    schema.NamesAdditions (Numbering.enums context start container scope inherited decls) := by
  induction decls generalizing start with
  | nil => exact namesAdditions_nothing
  | cons decl rest ih => exact (namesAdditions_enum hscope inherited decl h.left).append (ih h.right)

/-- The methods of a service are named in the service. -/
theorem namesAdditions_service (hscope : schema.IsScope context.file none scope) (inherited : Features)
    (decl : ServiceDecl) (h : schema.HasAdded start (Numbering.service context start scope inherited decl)) :
    schema.NamesAdditions (Numbering.service context start scope inherited decl) := by
  constructor
  case services =>
    intro service hservice
    cases List.mem_singleton.1 hservice
    exact hscope.isFullName decl.name
  case methods =>
    intro draft hdraft
    obtain ⟨method, _, rfl⟩ := List.mem_map.1 hdraft
    exact ⟨_, h.services (numbered?_add 0 _), rfl⟩
  all_goals exact List.forall_mem_nil _

theorem namesAdditions_services (hscope : schema.IsScope context.file none scope) (inherited : Features)
    (decls : List ServiceDecl)
    (h : schema.HasAdded start (Numbering.services context start scope inherited decls)) :
    schema.NamesAdditions (Numbering.services context start scope inherited decls) := by
  induction decls generalizing start with
  | nil => exact namesAdditions_nothing
  | cons decl rest ih => exact (namesAdditions_service hscope inherited decl h.left).append (ih h.right)

/-- Extensions are named where they are declared. -/
theorem namesAdditions_extensions (hscope : schema.IsScope context.file container scope) (inherited : Features)
    (decls : List FieldDecl) :
    schema.NamesAdditions (Numbering.extensions context container scope inherited decls) := by
  constructor
  case fields =>
    intro draft hdraft
    obtain ⟨decl, _, rfl⟩ := List.mem_map.1 hdraft
    exact hscope.isFullName decl.name
  all_goals exact List.forall_mem_nil _

/-- The fields and oneofs of a message are named in the message. -/
theorem namesAdditions_head (hscope : schema.IsScope context.file container scope) {features : Features}
    {nestedTypes : List MessageId} {enums : List EnumId} {extensions : List FieldId} {decl : MessageDecl}
    (h : schema.HasAdded start (Numbering.head context start container (Name.qualify scope decl.name) features
      nestedTypes enums extensions decl)) :
    schema.IsScope context.file (some ⟨start.messages⟩) (Name.qualify scope decl.name) ∧
      schema.NamesAdditions (Numbering.head context start container (Name.qualify scope decl.name) features
        nestedTypes enums extensions decl) := by
  have hmessage := h.messages (numbered?_add 0 _)
  have hinside := hscope.inside ⟨start.messages⟩ hmessage
  refine ⟨hinside, ?_⟩
  constructor
  case messages =>
    intro message hmember
    cases List.mem_singleton.1 hmember
    exact hscope.isFullName decl.name
  case fields =>
    intro draft hdraft
    obtain ⟨member, _, rfl⟩ := List.mem_map.1 hdraft
    exact hinside.isFullName member.name
  case oneofs =>
    intro oneof honeof
    obtain ⟨entry, _, rfl⟩ := List.mem_map.1 honeof
    exact ⟨_, hmessage, hinside.isFullName entry.1.name⟩
  all_goals exact List.forall_mem_nil _

/-- `namesAdditions_message` if it holds of `decl.nestedType`. -/
theorem namesAdditions_message_of_nested (hscope : schema.IsScope context.file container scope)
    (inherited : Features) (decl : MessageDecl)
    (hnested : ∀ start container scope inherited, schema.IsScope context.file container scope →
      schema.HasAdded start (Numbering.messages context start container scope inherited decl.nestedType).2 →
      schema.NamesAdditions (Numbering.messages context start container scope inherited decl.nestedType).2)
    (h : schema.HasAdded start (Numbering.message context start container scope inherited decl)) :
    schema.NamesAdditions (Numbering.message context start container scope inherited decl) := by
  obtain ⟨hhead, hmessages, henums, _⟩ := h.message_parts
  obtain ⟨hinside, hnames⟩ := namesAdditions_head hscope hhead
  rw [Numbering.message_eq]
  exact ((hnames.append (hnested _ _ _ _ hinside hmessages)).append
    (namesAdditions_enums hinside _ decl.enumType henums)).append
    (namesAdditions_extensions hinside _ decl.extension)

end

mutual

/-- A message and everything in it is named in its scope. -/
theorem namesAdditions_message {schema : Schema} {context : Numbering.Context} {start : Counts}
    {container : Option MessageId} {scope : String} (hscope : schema.IsScope context.file container scope)
    (inherited : Features) (decl : MessageDecl)
    (h : schema.HasAdded start (Numbering.message context start container scope inherited decl)) :
    schema.NamesAdditions (Numbering.message context start container scope inherited decl) := by
  match decl with
  | ⟨_, _, _, nestedType, _, _, _, _, _, _⟩ =>
    exact namesAdditions_message_of_nested hscope inherited _ (fun _ _ _ inherited hscope h =>
      namesAdditions_messages hscope inherited nestedType h) h

theorem namesAdditions_messages {schema : Schema} {context : Numbering.Context} {start : Counts}
    {container : Option MessageId} {scope : String} (hscope : schema.IsScope context.file container scope)
    (inherited : Features) (decls : List MessageDecl)
    (h : schema.HasAdded start (Numbering.messages context start container scope inherited decls).2) :
    schema.NamesAdditions (Numbering.messages context start container scope inherited decls).2 := by
  match decls with
  | [] => exact namesAdditions_nothing
  | decl :: rest =>
    rw [Numbering.messages] at h ⊢
    exact (namesAdditions_message hscope inherited decl h.left).append
      (namesAdditions_messages hscope inherited rest h.right)

end

/-- Everything in a file is named in `decl.package`. -/
theorem namesAdditions_file {schema : Schema} (context : Numbering.Context) {start : Counts} {decl : FileDecl}
    (hscope : schema.IsScope context.file none decl.package)
    (h : schema.HasAdded start (Numbering.file context start decl).2) :
    schema.NamesAdditions (Numbering.file context start decl).2 := by
  obtain ⟨hmessages, henums, hservices, _⟩ := h.file_parts
  exact (((namesAdditions_messages hscope _ decl.messageType hmessages).append
    (namesAdditions_enums hscope _ decl.enumType henums)).append
    (namesAdditions_services hscope _ decl.service hservices)).append
    (namesAdditions_extensions hscope _ decl.extension)

/-! ## Schemas -/

/-- The full names of a schema join the names around. -/
structure IsNamed (schema : Schema) : Prop where
  messages : ∀ message ∈ schema.messages,
    schema.IsFullName message.file message.containingType message.name message.fullName
  /-- Fields are named where they are declared, also extensions. -/
  fields : ∀ field ∈ schema.fields, schema.IsFullName field.file field.declaredIn field.name field.fullName
  oneofs : ∀ oneof ∈ schema.oneofs, ∃ message, schema.messages[oneof.containingType.index]? = some message ∧
    schema.IsFullName message.file (some oneof.containingType) oneof.name oneof.fullName
  enums : ∀ enum ∈ schema.enums, schema.IsFullName enum.file enum.containingType enum.name enum.fullName
  /-- The values of an enum are named as its siblings. -/
  values : ∀ value ∈ schema.values, ∃ enum, schema.enums[value.enum.index]? = some enum ∧
    schema.IsFullName enum.file enum.containingType value.name value.fullName
  services : ∀ service ∈ schema.services, schema.IsFullName service.file none service.name service.fullName
  methods : ∀ method ∈ schema.methods, ∃ service, schema.services[method.service.index]? = some service ∧
    method.fullName = Name.qualify service.fullName method.name

theorem isNamed_empty : empty.IsNamed := by
  constructor <;> simp [empty]

/-- `addDeclarations` keeps `IsNamed`. -/
theorem isNamed_addDeclarations {schema next : Schema} {rules : FeatureRules} {decl : FileDecl}
    (h : schema.IsNamed) (hadd : schema.addDeclarations rules decl = .ok next) : next.IsNamed := by
  obtain ⟨⟨dependencies, hfile⟩, hadded⟩ := hasAdded_addDeclarations hadd
  have hnames := namesAdditions_file ⟨rules, ⟨schema.files.size⟩⟩ (isScope_none hfile) hadded
  obtain ⟨directory, dependencies, fields, methods, _, _, hfields, hmethods, rfl⟩ :=
    addDeclarations_eq_ok_iff.1 hadd
  have hpart := isPartOf_extend schema directory
    { (Numbering.file ⟨rules, ⟨schema.files.size⟩⟩ schema.counts decl).1 with dependencies }
    (Numbering.file ⟨rules, ⟨schema.files.size⟩⟩ schema.counts decl).2 fields methods
  -- Old elements keep their names as the schema grows, and new ones have those of the file.
  constructor
  case messages =>
    intro message hmessage
    exact (mem_append_list_iff.1 hmessage).elim (fun hold => (h.messages message hold).of_isPartOf hpart)
      (hnames.messages message)
  case fields =>
    intro field hfield
    rcases mem_append_list_iff.1 hfield with hold | hfield
    · exact (h.fields field hold).of_isPartOf hpart
    · obtain ⟨draft, hdraft, hlink⟩ := exists_mem_of_mapM hfields hfield
      -- Linking changes neither the name of a field nor where it was declared.
      obtain ⟨_, _, _, _, rfl⟩ := Linking.field_eq_ok_iff.1 hlink
      exact hnames.fields draft hdraft
  case oneofs =>
    intro oneof honeof
    rcases mem_append_list_iff.1 honeof with hold | honeof
    · obtain ⟨message, hmessage, hname⟩ := h.oneofs oneof hold
      exact ⟨message, hpart.messages hmessage, hname.of_isPartOf hpart⟩
    · exact hnames.oneofs oneof honeof
  case enums =>
    intro enum henum
    exact (mem_append_list_iff.1 henum).elim (fun hold => (h.enums enum hold).of_isPartOf hpart)
      (hnames.enums enum)
  case values =>
    intro value hvalue
    rcases mem_append_list_iff.1 hvalue with hold | hvalue
    · obtain ⟨enum, henum, hname⟩ := h.values value hold
      exact ⟨enum, hpart.enums henum, hname.of_isPartOf hpart⟩
    · exact hnames.values value hvalue
  case services =>
    intro service hservice
    exact (mem_append_list_iff.1 hservice).elim (fun hold => (h.services service hold).of_isPartOf hpart)
      (hnames.services service)
  case methods =>
    intro method hmethod
    rcases mem_append_list_iff.1 hmethod with hold | hmethod
    · obtain ⟨service, hservice, hname⟩ := h.methods method hold
      exact ⟨service, hpart.services hservice, hname⟩
    · obtain ⟨draft, hdraft, hlink⟩ := exists_mem_of_mapM hmethods hmethod
      obtain ⟨_, _, _, _, rfl⟩ := Linking.method_eq_ok_iff.1 hlink
      exact hnames.methods draft hdraft

/-- `IsNamed` holds of every schema of files. -/
theorem isNamed_ofFiles {config : Config} {files : List FileDecl} {schema : Schema}
    (h : ofFiles config files = .ok schema) : schema.IsNamed := by
  refine foldlM_preserves (fun schema decl next hschema hnext => ?_) isNamed_empty h
  obtain ⟨rules, _, hadd⟩ := addFile_eq_ok_iff.1 hnext
  exact isNamed_addDeclarations hschema hadd

end Schema

end SchemaLayout
