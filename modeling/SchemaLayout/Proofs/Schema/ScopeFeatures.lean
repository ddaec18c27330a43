import SchemaLayout.Proofs.Feature.Inheritance
import SchemaLayout.Proofs.Schema.Assembly

/-!
# Features of scopes before edition 2023

Below edition 2023 a field takes its features from the edition and from its own declaration, so what is written on
the elements around it does not reach it. Two files of such an edition may differ in the features that are written on
anything but fields (`FileDecl.stripped`); what they add to a schema differs in the features of these elements and
in nothing else (`Schema.bare`).
-/

namespace SchemaLayout

/-! ## Declarations -/

/-- Options without `features`. No options are what they say by default. -/
def PlainOptions.bare (options : Option PlainOptions) : PlainOptions :=
  { options.getD {} with features := none }

/-- Options without `features`. -/
def FileOptions.bare (options : Option FileOptions) : FileOptions :=
  { options.getD {} with features := none }

/-- Options without `features`. -/
def MessageOptions.bare (options : Option MessageOptions) : MessageOptions :=
  { options.getD {} with features := none }

/-- Options without `features`. -/
def EnumOptions.bare (options : Option EnumOptions) : EnumOptions :=
  { options.getD {} with features := none }

/-- A oneof without the `features` that are written on it. -/
def OneofDecl.bare (decl : OneofDecl) : OneofDecl :=
  { decl with options := some (PlainOptions.bare decl.options) }

/-- An enum value without the `features` that are written on it. -/
def EnumValueDecl.bare (decl : EnumValueDecl) : EnumValueDecl :=
  { decl with options := some (PlainOptions.bare decl.options) }

/-- An enum without the `features` that are written on it and its values. -/
def EnumDecl.bare (decl : EnumDecl) : EnumDecl :=
  { decl with value := decl.value.map EnumValueDecl.bare, options := some (EnumOptions.bare decl.options) }

mutual

/-- A message without the `features` that are written on it and on all in it but fields. -/
def MessageDecl.bare : MessageDecl → MessageDecl
  | decl@⟨_, _, _, nestedType, _, _, _, _, _, _⟩ => { decl with
      nestedType := MessageDecl.allBare nestedType
      enumType := decl.enumType.map EnumDecl.bare
      oneofDecl := decl.oneofDecl.map OneofDecl.bare
      options := some (MessageOptions.bare decl.options) }

/-- `bare` of each message. -/
def MessageDecl.allBare : List MessageDecl → List MessageDecl
  | [] => []
  | decl :: rest => decl.bare :: MessageDecl.allBare rest

end

/-- A method without the `features` that are written on it. -/
def MethodDecl.bare (decl : MethodDecl) : MethodDecl :=
  { decl with options := some (PlainOptions.bare decl.options) }

/-- A service without the `features` that are written on it and its methods. -/
def ServiceDecl.bare (decl : ServiceDecl) : ServiceDecl :=
  { decl with method := decl.method.map MethodDecl.bare, options := some (PlainOptions.bare decl.options) }

/-- A file without the `features` that are written on it and on all in it but fields. -/
def FileDecl.bare (decl : FileDecl) : FileDecl :=
  { decl with
    messageType := MessageDecl.allBare decl.messageType
    enumType := decl.enumType.map EnumDecl.bare
    service := decl.service.map ServiceDecl.bare
    options := some (FileOptions.bare decl.options) }

/-- `bare` of a file before edition 2023, and any other file as it is. -/
def FileDecl.stripped (decl : FileDecl) : FileDecl :=
  if decl.level.isLegacy then decl.bare else decl

/-- `stripped` keeps the name, the imports and the edition. -/
theorem FileDecl.same_of_stripped_eq {decl other : FileDecl} (h : other.stripped = decl.stripped) :
    other.name = decl.name ∧ other.dependency = decl.dependency ∧ other.level = decl.level := by
  have hkept (file : FileDecl) : file.stripped.name = file.name ∧ file.stripped.dependency = file.dependency ∧
      file.stripped.level = file.level := by
    rw [stripped]
    split <;> exact ⟨rfl, rfl, rfl⟩
  obtain ⟨hname, hdependency, hlevel⟩ := hkept decl
  obtain ⟨hotherName, hotherDependency, hotherLevel⟩ := hkept other
  rw [← hname, ← hdependency, ← hlevel, ← hotherName, ← hotherDependency, ← hotherLevel, h]
  exact ⟨rfl, rfl, rfl⟩

theorem EnumDecl.allowAlias_bare (decl : EnumDecl) :
    decl.bare.options.any (·.allowAlias) = decl.options.any (·.allowAlias) := by
  obtain ⟨_, _, _ | options, _, _⟩ := decl <;> rfl

namespace MessageDecl

/-- `MessageDecl.bare` without a match. -/
theorem bare_eq (decl : MessageDecl) : decl.bare = { decl with
    nestedType := allBare decl.nestedType, enumType := decl.enumType.map EnumDecl.bare
    oneofDecl := decl.oneofDecl.map OneofDecl.bare, options := some (MessageOptions.bare decl.options) } := by
  obtain ⟨_, _, _, _, _, _, _, _, _, _⟩ := decl
  rw [bare]

/-- `bare` keeps `isMapEntry`. -/
theorem isMapEntry_bare (decl : MessageDecl) : decl.bare.isMapEntry = decl.isMapEntry := by
  rw [bare_eq, isMapEntry, isMapEntry]
  cases decl.options <;> rfl

theorem isSynthetic_bare (decl : MessageDecl) (place : Nat) : decl.bare.isSynthetic place = decl.isSynthetic place := by
  rw [bare_eq, isSynthetic, isSynthetic]

theorem synthetic_bare (decl : MessageDecl) : decl.bare.synthetic = decl.synthetic := by
  rw [synthetic, synthetic, funext decl.isSynthetic_bare, bare_eq, List.length_map]

/-- `ofMessageHead` asks nothing of features. -/
theorem ofMessageHead_bare (fullName : String) (id : MessageId) (decl : MessageDecl) :
    Registration.ofMessageHead fullName id decl.bare = Registration.ofMessageHead fullName id decl := by
  rw [Registration.ofMessageHead, Registration.ofMessageHead, isMapEntry_bare, syntheticLast, syntheticLast,
    synthetic_bare, bare_eq, List.length_map]
  rfl

end MessageDecl

/-! ## Elements -/

/-- A file with the `default` features. -/
def FileNode.bare (file : FileNode) : FileNode :=
  { file with features := default }

/-- A message with the `default` features. -/
def MessageNode.bare (message : MessageNode) : MessageNode :=
  { message with features := default }

/-- A oneof with the `default` features. -/
def OneofNode.bare (oneof : OneofNode) : OneofNode :=
  { oneof with features := default }

/-- An enum with the `default` features. -/
def EnumNode.bare (enum : EnumNode) : EnumNode :=
  { enum with features := default }

/-- An enum value with the `default` features. -/
def EnumValueNode.bare (value : EnumValueNode) : EnumValueNode :=
  { value with features := default }

/-- A service with the `default` features. -/
def ServiceNode.bare (service : ServiceNode) : ServiceNode :=
  { service with features := default }

/-- A method with the `default` features. -/
def MethodNode.bare (method : MethodNode) : MethodNode :=
  { method with features := default }

/-- A method that is not linked yet, with the `default` features. -/
def MethodDraft.bare (draft : MethodDraft) : MethodDraft :=
  { draft with features := default }

namespace Additions

/-- `bare` of all additions but fields. -/
def bare (additions : Additions) : Additions :=
  { additions with
    messages := additions.messages.map MessageNode.bare
    oneofs := additions.oneofs.map OneofNode.bare
    enums := additions.enums.map EnumNode.bare
    values := additions.values.map EnumValueNode.bare
    services := additions.services.map ServiceNode.bare
    methods := additions.methods.map MethodDraft.bare }

theorem bare_append (first second : Additions) : (first ++ second).bare = first.bare ++ second.bare := by
  show Additions.mk _ _ _ _ _ _ _ _ = Additions.mk _ _ _ _ _ _ _ _
  congr 1 <;> exact List.map_append

theorem counts_bare (additions : Additions) : additions.bare.counts = additions.counts := by
  simp only [counts, bare, List.length_map]

theorem counts_eq_of_bare_eq {first second : Additions} (h : second.bare = first.bare) :
    second.counts = first.counts := by
  rw [← counts_bare, h, counts_bare]

/-- Additions that are the same but for features stay so with more of them. -/
theorem append_bare_congr {first second moreFirst moreSecond : Additions} (h : second.bare = first.bare)
    (hmore : moreSecond.bare = moreFirst.bare) : (second ++ moreSecond).bare = (first ++ moreFirst).bare := by
  rw [bare_append, bare_append, h, hmore]

end Additions

/-! ## Numbering -/

/-- Before edition 2023, `resolveField` does not depend on what is inherited. -/
theorem FeatureRules.resolveField_eq_of_isLegacy {rules : FeatureRules} (h : rules.edition.isLegacy = true)
    (decl : FieldDecl) (inherited other : Features) :
    rules.resolveField decl other = rules.resolveField decl inherited := by
  rw [resolveField, resolveField, if_pos h, if_pos h]

namespace Numbering

variable {context : Context}

/-! ### Enums and services -/

/-- `enum` of a `bare` declaration, with whatever is inherited. -/
theorem bare_enum (start : Counts) (container : Option MessageId) (scope : String) (inherited other : Features)
    (decl : EnumDecl) :
    (enum context start container scope other decl.bare).bare =
      (enum context start container scope inherited decl).bare := by
  simp only [enum, Additions.bare, enumValues, EnumDecl.allowAlias_bare]
  simp only [EnumDecl.bare, List.map_map, List.length_map]
  rfl

theorem bare_enums (start : Counts) (container : Option MessageId) (scope : String) (inherited other : Features)
    (decls : List EnumDecl) :
    (enums context start container scope other (decls.map EnumDecl.bare)).bare =
      (enums context start container scope inherited decls).bare := by
  induction decls generalizing start with
  | nil => rfl
  | cons decl rest ih =>
    have hfirst := @bare_enum context start container scope inherited other decl
    rw [List.map_cons, enums, enums, Additions.counts_eq_of_bare_eq hfirst]
    exact Additions.append_bare_congr hfirst (ih _)

/-- `service` of a `bare` declaration, with whatever is inherited. -/
theorem bare_service (start : Counts) (scope : String) (inherited other : Features) (decl : ServiceDecl) :
    (service context start scope other decl.bare).bare = (service context start scope inherited decl).bare := by
  simp only [service, Additions.bare, methods, ServiceDecl.bare, List.map_map, List.length_map]
  rfl

theorem bare_services (start : Counts) (scope : String) (inherited other : Features) (decls : List ServiceDecl) :
    (services context start scope other (decls.map ServiceDecl.bare)).bare =
      (services context start scope inherited decls).bare := by
  induction decls generalizing start with
  | nil => rfl
  | cons decl rest ih =>
    have hfirst := @bare_service context start scope inherited other decl
    rw [List.map_cons, services, services, Additions.counts_eq_of_bare_eq hfirst]
    exact Additions.append_bare_congr hfirst (ih _)

/-! ### Fields and messages -/

/-- `oneofs` of a `bare` declaration, with whatever is inherited. -/
theorem bare_oneofs (start : Counts) (fullName : String) (inherited other : Features) (decl : MessageDecl) :
    (oneofs context start fullName other decl.bare).map OneofNode.bare =
      (oneofs context start fullName inherited decl).map OneofNode.bare := by
  rw [oneofs, oneofs, funext decl.isSynthetic_bare, MessageDecl.bare_eq, List.zipIdx_map, List.map_map,
    List.map_map, List.map_map, List.length_map]
  rfl

/-- `bare` keeps which oneofs are real. -/
theorem isReal_bare (start : Counts) (fullName : String) (inherited other : Features) (decl : MessageDecl)
    (place : Nat) :
    ((oneofs context start fullName other decl.bare).toArray[place]?).any (!·.isSynthetic) =
      ((oneofs context start fullName inherited decl).toArray[place]?).any (!·.isSynthetic) := by
  have hbare (oneof : Option OneofNode) :
      oneof.any (!·.isSynthetic) = (oneof.map OneofNode.bare).any (!·.isSynthetic) := by
    cases oneof <;> rfl
  rw [List.getElem?_toArray, List.getElem?_toArray, hbare, hbare (oneofs _ _ _ inherited decl)[place]?,
    ← List.getElem?_map, ← List.getElem?_map, bare_oneofs start fullName inherited other]

section

variable (hlegacy : context.rules.edition.isLegacy = true)

include hlegacy

/-- Before edition 2023, `field` does not depend on what is inherited. -/
theorem field_eq_of_isLegacy (declaredIn : Option MessageId) (scope : String) (inherited other : Features)
    (isExtension : Bool) (oneof realOneof : Option OneofId) (decl : FieldDecl) :
    field context declaredIn scope other isExtension oneof realOneof decl =
      field context declaredIn scope inherited isExtension oneof realOneof decl := by
  rw [field, field, FeatureRules.resolveField_eq_of_isLegacy hlegacy decl inherited other]

theorem extensions_eq_of_isLegacy (declaredIn : Option MessageId) (scope : String) (inherited other : Features)
    (decls : List FieldDecl) :
    extensions context declaredIn scope other decls = extensions context declaredIn scope inherited decls := by
  rw [extensions, extensions]
  congr 1
  exact List.map_congr_left fun decl _ =>
    field_eq_of_isLegacy hlegacy declaredIn scope inherited other true none none decl

/-- Before edition 2023, the `fields` of a message are the same whatever it and its oneofs inherit. -/
theorem fields_bare (start : Counts) (fullName : String) (inherited other : Features) (decl : MessageDecl) :
    fields context start fullName other (oneofs context start fullName other decl.bare).toArray decl.bare =
      fields context start fullName inherited (oneofs context start fullName inherited decl).toArray decl := by
  have hsize : (oneofs context start fullName other decl.bare).toArray.size =
      (oneofs context start fullName inherited decl).toArray.size := by
    rw [List.size_toArray, List.size_toArray, ← List.length_map OneofNode.bare, bare_oneofs, List.length_map]
  have hfield : decl.bare.field = decl.field := by
    rw [MessageDecl.bare_eq]
  simp only [fields, hsize, hfield, isReal_bare start fullName inherited other decl]
  exact List.map_congr_left fun member _ => field_eq_of_isLegacy hlegacy _ fullName _ _ false _ _ member

/-- `head` of a `bare` declaration, with whatever is inherited. -/
theorem bare_head (start : Counts) (container : Option MessageId) (fullName : String) (inherited other : Features)
    (nestedTypes : List MessageId) (enums : List EnumId) (extensions : List FieldId) (decl : MessageDecl) :
    (head context start container fullName other nestedTypes enums extensions decl.bare).bare =
      (head context start container fullName inherited nestedTypes enums extensions decl).bare := by
  have honeofs := @bare_oneofs context start fullName inherited other decl
  have hcount := congrArg List.length honeofs
  rw [List.length_map, List.length_map] at hcount
  simp only [head, Additions.bare, fields_bare hlegacy start fullName inherited other decl, honeofs, hcount,
    MessageDecl.ofMessageHead_bare, MessageDecl.synthetic_bare, MessageDecl.isMapEntry_bare]
  rw [MessageDecl.bare_eq]
  rfl

/-- `bare_message` if it holds of `decl.nestedType`. -/
theorem bare_message_of_nested (start : Counts) (container : Option MessageId) (scope : String)
    (inherited other : Features) {decl : MessageDecl}
    (hnested : ∀ start container scope inherited other,
      (messages context start container scope other (MessageDecl.allBare decl.nestedType)).1 =
          (messages context start container scope inherited decl.nestedType).1 ∧
        (messages context start container scope other (MessageDecl.allBare decl.nestedType)).2.bare =
          (messages context start container scope inherited decl.nestedType).2.bare) :
    (message context start container scope other decl.bare).bare =
      (message context start container scope inherited decl).bare := by
  have hcounts : headCounts decl.bare = headCounts decl := by
    rw [MessageDecl.bare_eq, headCounts, headCounts, List.length_map]
  have hbare := decl.bare_eq
  rw [message_eq, message_eq, hcounts]
  -- The features on both sides do not matter any more.
  generalize context.rules.resolve (decl.bare.options.bind (·.features)) other = outer
  generalize context.rules.resolve (decl.options.bind (·.features)) inherited = features
  have hname : decl.bare.name = decl.name := by rw [hbare]
  have hnestedType : decl.bare.nestedType = MessageDecl.allBare decl.nestedType := by rw [hbare]
  have henumType : decl.bare.enumType = decl.enumType.map EnumDecl.bare := by rw [hbare]
  have hextension : decl.bare.extension = decl.extension := by rw [hbare]
  obtain ⟨hids, hinside⟩ := hnested (start + headCounts decl) (some ⟨start.messages⟩)
    (Name.qualify scope decl.name) features outer
  simp only [hname, hnestedType, henumType, hextension, hids, Additions.counts_eq_of_bare_eq hinside, List.length_map,
    extensions_eq_of_isLegacy hlegacy _ _ features outer]
  refine Additions.append_bare_congr (Additions.append_bare_congr (Additions.append_bare_congr ?_ hinside) ?_) rfl
  · exact bare_head hlegacy start container _ features outer _ _ _ decl
  · exact bare_enums _ _ _ features outer decl.enumType

end

mutual

/-- `message` of a `bare` declaration, with whatever is inherited. -/
theorem bare_message (hlegacy : context.rules.edition.isLegacy = true) (start : Counts)
    (container : Option MessageId) (scope : String) (inherited other : Features) (decl : MessageDecl) :
    (message context start container scope other decl.bare).bare =
      (message context start container scope inherited decl).bare := by
  match decl with
  | ⟨_, _, _, nestedType, _, _, _, _, _, _⟩ =>
    exact bare_message_of_nested hlegacy start container scope inherited other
      fun start container scope inherited other =>
        bare_messages hlegacy start container scope inherited other nestedType

/-- `bare_message` for lists, whose messages get the same numbers. -/
theorem bare_messages (hlegacy : context.rules.edition.isLegacy = true) (start : Counts)
    (container : Option MessageId) (scope : String) (inherited other : Features) (decls : List MessageDecl) :
    (messages context start container scope other (MessageDecl.allBare decls)).1 =
        (messages context start container scope inherited decls).1 ∧
      (messages context start container scope other (MessageDecl.allBare decls)).2.bare =
        (messages context start container scope inherited decls).2.bare := by
  match decls with
  | [] => exact ⟨rfl, rfl⟩
  | decl :: rest =>
    have hfirst := bare_message hlegacy start container scope inherited other decl
    rw [MessageDecl.allBare, messages, messages, Additions.counts_eq_of_bare_eq hfirst]
    obtain ⟨hids, hrest⟩ := bare_messages hlegacy _ container scope inherited other rest
    exact ⟨congrArg (List.cons _) hids, Additions.append_bare_congr hfirst hrest⟩

end

/-! ### Files -/

/-- `file` of a `bare` declaration. -/
theorem bare_file (hlegacy : context.rules.edition.isLegacy = true) (start : Counts) (decl : FileDecl) :
    (file context start decl.bare).1.bare = (file context start decl).1.bare ∧
      (file context start decl.bare).2.bare = (file context start decl).2.bare := by
  simp only [file, FileDecl.bare, List.length_map]
  generalize context.rules.resolve (decl.options.bind (·.features)) context.rules.defaults = features
  generalize context.rules.resolve _ context.rules.defaults = outer
  obtain ⟨hids, hmessages⟩ := bare_messages hlegacy start none decl.package features outer decl.messageType
  have hafter := Additions.counts_eq_of_bare_eq hmessages
  have henums := @bare_enums context (start + (messages context start none decl.package features
    decl.messageType).2.counts) none decl.package features outer decl.enumType
  simp only [hids, hafter, Additions.counts_eq_of_bare_eq henums,
    extensions_eq_of_isLegacy hlegacy _ _ features outer]
  refine ⟨rfl, Additions.append_bare_congr (Additions.append_bare_congr
    (Additions.append_bare_congr hmessages henums) ?_) rfl⟩
  exact bare_services _ _ features outer decl.service

/-- Files that are the same when `stripped` add the same but for features. -/
theorem bare_file_of_stripped (start : Counts) {decl other : FileDecl} (hedition : context.rules.edition = decl.level)
    (h : other.stripped = decl.stripped) :
    (file context start other).1.bare = (file context start decl).1.bare ∧
      (file context start other).2.bare = (file context start decl).2.bare := by
  obtain ⟨_, _, hlevel⟩ := FileDecl.same_of_stripped_eq h
  rw [FileDecl.stripped, FileDecl.stripped, hlevel] at h
  split at h
  · next hlegacy =>
    rw [← hedition] at hlegacy
    obtain ⟨hnode, hadditions⟩ := bare_file hlegacy start decl
    obtain ⟨hother, hothers⟩ := bare_file hlegacy start other
    rw [← hnode, ← hadditions, ← hother, ← hothers, h]
    exact ⟨rfl, rfl⟩
  · rw [h]
    exact ⟨rfl, rfl⟩

end Numbering

/-! ## Linking -/

/-- Total lookup goes through `Array.map` if `change` keeps the default. -/
theorem getElem?_map_getD {α β : Type} [Inhabited α] [Inhabited β] (change : α → β)
    (h : change (default : α) = (default : β)) (array : Array α) (index : Nat) :
    (array.map change)[index]?.getD default = change (array[index]?.getD default) := by
  rw [Array.getElem?_map, ← h, Option.getD_map]

namespace Linking

/-- `Linking.field` asks nothing of the features of messages. -/
theorem field_eq_of_bare (directory : Directory) {messages others : Array MessageNode}
    (h : others.map MessageNode.bare = messages.map MessageNode.bare) :
    Linking.field ⟨directory, others⟩ = Linking.field ⟨directory, messages⟩ := by
  apply field_congr
  intro id
  have hread (array : Array MessageNode) := getElem?_map_getD MessageNode.bare rfl array id.index
  have hsame : (Context.message ⟨directory, others⟩ id).bare = (Context.message ⟨directory, messages⟩ id).bare := by
    rw [Context.message, Context.message, ← hread, ← hread, h]
  have hentry := congrArg MessageNode.isMapEntry hsame
  have hname := congrArg MessageNode.name hsame
  have hfile := congrArg MessageNode.file hsame
  have hcontainer := congrArg MessageNode.containingType hsame
  exact ⟨hentry, hname, hfile, hcontainer⟩

/-- `Linking.method` asks for names only, and keeps the features of the method. -/
theorem exists_method_of_bare {directory : Directory} {messages others : Array MessageNode}
    {draft other : MethodDraft} {node : MethodNode} (hbare : other.bare = draft.bare)
    (h : Linking.method ⟨directory, messages⟩ draft = .ok node) :
    ∃ otherNode, Linking.method ⟨directory, others⟩ other = .ok otherNode ∧ otherNode.bare = node.bare := by
  obtain ⟨inputType, outputType, hinput, houtput, rfl⟩ := method_eq_ok_iff.1 h
  obtain ⟨_, _, _, _, _, _, _, _⟩ := draft
  obtain ⟨_, _, _, _, _, _, _, _⟩ := other
  simp only [MethodDraft.bare, MethodDraft.mk.injEq] at hbare
  obtain ⟨rfl, rfl, rfl, _, rfl, rfl, rfl, rfl⟩ := hbare
  exact ⟨_, method_eq_ok_iff.2 ⟨inputType, outputType, hinput, houtput, rfl⟩, rfl⟩

end Linking

/-! ## Schemas -/

namespace Schema

/-- A schema with the `default` features on all elements but fields. -/
def bare (schema : Schema) : Schema :=
  { schema with
    files := schema.files.map FileNode.bare
    messages := schema.messages.map MessageNode.bare
    oneofs := schema.oneofs.map OneofNode.bare
    enums := schema.enums.map EnumNode.bare
    values := schema.values.map EnumValueNode.bare
    services := schema.services.map ServiceNode.bare
    methods := schema.methods.map MethodNode.bare }

theorem counts_bare (schema : Schema) : schema.bare.counts = schema.counts := by
  simp only [counts, bare, Array.size_map]

theorem map_append_list {α β : Type} (f : α → β) (array : Array α) (list : List α) :
    (array ++ list).map f = array.map f ++ list.map f := by
  apply Array.toList_inj.1
  rw [Array.toList_map, Array.toList_appendList, List.map_append, Array.toList_appendList, Array.toList_map]

/-- `bare` goes through `extend`. -/
theorem bare_extend (schema : Schema) (directory : Directory) (file : FileNode) (additions : Additions)
    (fields : List FieldNode) (methods : List MethodNode) :
    (schema.extend directory file additions fields methods).bare =
      schema.bare.extend directory file.bare additions.bare fields (methods.map MethodNode.bare) := by
  simp only [bare, extend, Additions.bare, map_append_list, Array.map_push]

section

variable {schema other : Schema} (h : other.bare = schema.bare)

include h

theorem counts_eq_of_bare_eq : other.counts = schema.counts := by
  rw [← counts_bare, h, counts_bare]

theorem size_files_of_bare_eq : other.files.size = schema.files.size := by
  have hfiles := congrArg (·.files.size) h
  simpa only [bare, Array.size_map] using hfiles

/-- Additions that are the same when `bare` are linked to the same, but for the features of methods. -/
theorem exists_links_of_bare {first second : Additions} (hbare : second.bare = first.bare) {directory : Directory}
    {fields : List FieldNode} {methods : List MethodNode}
    (hfields : first.fields.mapM (Linking.field ⟨directory, schema.messages ++ first.messages⟩) = .ok fields)
    (hmethods : first.methods.mapM (Linking.method ⟨directory, schema.messages ++ first.messages⟩) = .ok methods) :
    second.fields.mapM (Linking.field ⟨directory, other.messages ++ second.messages⟩) = .ok fields ∧
      ∃ otherMethods, second.methods.mapM (Linking.method ⟨directory, other.messages ++ second.messages⟩) =
        .ok otherMethods ∧ otherMethods.map MethodNode.bare = methods.map MethodNode.bare := by
  have hmessages : (other.messages ++ second.messages).map MessageNode.bare =
      (schema.messages ++ first.messages).map MessageNode.bare := by
    have hbefore := congrArg Schema.messages h
    have hadded := congrArg Additions.messages hbare
    rw [map_append_list, map_append_list]
    exact congrArg₂ (· ++ ·) hbefore hadded
  constructor
  · have hdrafts := congrArg Additions.fields hbare
    change second.fields = first.fields at hdrafts
    rw [hdrafts, Linking.field_eq_of_bare directory hmessages, hfields]
  · have hdrafts := forall₂_of_map_eq (congrArg Additions.methods hbare)
    obtain ⟨otherMethods, hothers, hsame⟩ := exists_mapM_of_forall₂
      (fun draft other node (hdraft : other.bare = draft.bare) hlink =>
        Linking.exists_method_of_bare hdraft hlink) hdrafts hmethods
    exact ⟨otherMethods, hothers, map_eq_of_forall₂ _ _ hsame fun _ _ _ hnode => hnode⟩

/-- `addDeclarations` treats files alike that are the same when `stripped`. -/
theorem exists_addDeclarations_of_stripped {next : Schema} {rules : FeatureRules} {decl otherDecl : FileDecl}
    (hedition : rules.edition = decl.level) (hdecl : otherDecl.stripped = decl.stripped)
    (hadd : schema.addDeclarations rules decl = .ok next) :
    ∃ otherNext, other.addDeclarations rules otherDecl = .ok otherNext ∧ otherNext.bare = next.bare := by
  obtain ⟨directory, dependencies, fields, methods, hregister, hdependencies, hfields, hmethods, rfl⟩ :=
    addDeclarations_eq_ok_iff.1 hadd
  obtain ⟨hnode, hbare⟩ := @Numbering.bare_file_of_stripped ⟨rules, ⟨schema.files.size⟩⟩ schema.counts _ _
    hedition hdecl
  obtain ⟨hlinked, otherMethods, hothers, hsame⟩ := exists_links_of_bare h hbare hfields hmethods
  obtain ⟨hname, himports, _⟩ := FileDecl.same_of_stripped_eq hdecl
  have hsteps := congrArg Additions.steps hbare
  change (Numbering.file _ _ otherDecl).2.steps = (Numbering.file _ _ decl).2.steps at hsteps
  have hdirectory := congrArg Schema.directory h
  change other.directory = schema.directory at hdirectory
  let numbered := Numbering.file ⟨rules, ⟨schema.files.size⟩⟩ schema.counts otherDecl
  -- The same names are registered and imported, and linking has the same outcome.
  have hother : other.addDeclarations rules otherDecl =
      .ok (other.extend directory { numbered.1 with dependencies } numbered.2 fields otherMethods) := by
    rw [addDeclarations_eq_ok_iff, size_files_of_bare_eq h, counts_eq_of_bare_eq h]
    refine ⟨directory, dependencies, fields, otherMethods, ?_, ?_, hlinked, hothers, rfl⟩
    · rw [register, size_files_of_bare_eq h, hdirectory, hname, hsteps]
      exact hregister
    · rw [Linking.dependencies, hname, himports]
      exact hdependencies
  refine ⟨_, hother, ?_⟩
  have hfile := congrArg (fun file : FileNode => { file with dependencies }) hnode
  rw [bare_extend, bare_extend, h, hbare, hsame]
  exact congrArg (schema.bare.extend directory · _ fields _) hfile

end

/-- `ofFiles` accepts files that are the same when `stripped`, and the schemas are the same when `bare`. -/
theorem exists_ofFiles_of_stripped {config : Config} {files others : List FileDecl} {schema : Schema}
    (hfiles : others.map FileDecl.stripped = files.map FileDecl.stripped) (h : ofFiles config files = .ok schema) :
    ∃ other, ofFiles config others = .ok other ∧ other.bare = schema.bare := by
  let related (before after : Schema) : Prop := after.bare = before.bare
  have hempty : related empty empty := rfl
  refine exists_foldlM_of_forall₂ (fun before after decl otherDecl next hbefore hdecl hnext => ?_)
    (forall₂_of_map_eq hfiles) hempty h
  obtain ⟨rules, hrules, hadd⟩ := addFile_eq_ok_iff.1 hnext
  obtain ⟨_, _, hlevel⟩ := FileDecl.same_of_stripped_eq hdecl
  have hedition : rules.edition = decl.level := (FeatureRules.exists_row_of_ofTable hrules).1
  obtain ⟨otherNext, hother, hsame⟩ := exists_addDeclarations_of_stripped hbefore hedition hdecl hadd
  exact ⟨otherNext, addFile_eq_ok_iff.2 ⟨rules, hlevel ▸ hrules, hother⟩, hsame⟩

end Schema

end SchemaLayout
