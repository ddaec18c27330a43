import SchemaLayout.Schema.Additions

/-!
# Numbering

How declarations become elements. Numbers are given from top to bottom: a message comes before what is
nested in it, and its own fields come before those of the messages in it and these before the
extensions it declares. `start` says everywhere how many elements there are already, so the number of
an element is known before the elements after it are.

Features are resolved on the way, each element inheriting from the one around it.
-/

namespace SchemaLayout.Numbering

/-- What all declarations of a file share: the `rules` for its features, and its number. -/
structure Context where
  rules : FeatureRules
  file : FileId

/-! ## Fields -/

/-- The type of a field: a `.message` that is written with delimiters is a `.group`. -/
def fieldType (field : FieldDecl) (features : Features) : FieldType :=
  if field.type = .message && features.messageEncoding = .delimited then .group else field.type

/-- The label of a field: an `.optional` one that must be set is `.required`. -/
def fieldLabel (field : FieldDecl) (features : Features) : Label :=
  if features.fieldPresence = .legacyRequired && field.label = .optional then .required
  else field.label

/-- A field declared in the message `declaredIn`, or outside any message. -/
def field (context : Context) (declaredIn : Option MessageId) (scope : String)
    (inherited : Features) (isExtension : Bool) (oneof realOneof : Option OneofId) (decl : FieldDecl) :
    FieldDraft :=
  let features := context.rules.resolveField decl inherited
  let type := fieldType decl features
  {
    node := {
      name := decl.name
      fullName := Name.qualify scope decl.name
      number := decl.number
      label := fieldLabel decl features
      type
      jsonName := decl.jsonName.getD (Name.json decl.name)
      file := context.file
      features
      isExtension
      oneof
      realOneof
      proto3Optional := decl.proto3Optional
      defaultValue := decl.defaultValue
      declaredIn
      containingType := if isExtension then none else declaredIn
      target := none
      isMap := false
      isGroupLike := false
    }
    typeName := if type.isMessageLike || type = .enum then decl.typeName else none
    extendee := if isExtension then decl.extendee else none
  }

/-- Extension fields, each a `field` without oneof. -/
def extensions (context : Context) (declaredIn : Option MessageId) (scope : String)
    (inherited : Features) (decls : List FieldDecl) : Additions where
  fields := decls.map (field context declaredIn scope inherited true none none)

/-- The numbers of `count` fields from `start` on. -/
def fieldIds (start count : Nat) : List FieldId :=
  (List.range' start count).map .mk

/-! ## Heads of messages -/

/-- The oneofs of a message. -/
def oneofs (context : Context) (start : Counts) (fullName : String) (features : Features)
    (decl : MessageDecl) : List OneofNode :=
  decl.oneofDecl.zipIdx.map fun (oneof, place) => {
    name := oneof.name
    fullName := Name.qualify fullName oneof.name
    containingType := ⟨start.messages⟩
    features := context.rules.resolve (oneof.options.bind (·.features)) features
    fields :=
      ((decl.field.zip (fieldIds start.fields decl.field.length)).filter fun (member, _) =>
        member.oneofPlace? decl.oneofDecl.length = some place).map (·.2)
    isSynthetic := decl.isSynthetic place
  }

/-- The fields of a message with the given `oneofs`. Members of a oneof that was written inherit from it. -/
def fields (context : Context) (start : Counts) (fullName : String) (features : Features)
    (oneofs : Array OneofNode) (decl : MessageDecl) : List FieldDraft :=
  decl.field.map fun member =>
    let place := member.oneofPlace? oneofs.size
    let inherited := ((place.bind (oneofs[·]?)).filter (!·.isSynthetic)).elim features (·.features)
    let realPlace := place.filter fun place => oneofs[place]?.any (!·.isSynthetic)
    field context (some ⟨start.messages⟩) fullName inherited false
      (place.map fun place => ⟨start.oneofs + place⟩)
      (realPlace.map fun place => ⟨start.oneofs + place⟩) member

/-- The numbers of the fields of a message in ascending order of their field numbers. -/
def idsByNumber (start : Counts) (decl : MessageDecl) : List FieldId :=
  ((decl.field.zip (fieldIds start.fields decl.field.length)).mergeSort fun a b =>
    a.1.number ≤ b.1.number).map (·.2)

/-! ## Enums and services -/

/-- The values of an enum. -/
def enumValues (context : Context) (id : EnumId) (scope : String) (features : Features)
    (decl : EnumDecl) : List EnumValueNode :=
  decl.value.map fun value => {
    name := value.name
    fullName := Name.qualify scope value.name
    number := value.number
    enum := id
    features := context.rules.resolve (value.options.bind (·.features)) features
  }

/-- An enum and its values. -/
def enum (context : Context) (start : Counts) (container : Option MessageId) (scope : String)
    (inherited : Features) (decl : EnumDecl) : Additions :=
  let id : EnumId := ⟨start.enums⟩
  let features := context.rules.resolve (decl.options.bind (·.features)) inherited
  let fullName := Name.qualify scope decl.name
  {
    enums := [{
      name := decl.name
      fullName
      file := context.file
      containingType := container
      features
      values := (List.range' start.values decl.value.length).map .mk
      reservedRanges := decl.reservedRange
      reservedNames := decl.reservedName
      allowAlias := decl.options.any (·.allowAlias)
    }]
    values := enumValues context id scope features decl
    steps := [.enter (Name.key fullName) (.enum id)]
  }

/-- Enums, one after the other. -/
def enums (context : Context) (start : Counts) (container : Option MessageId) (scope : String)
    (inherited : Features) : List EnumDecl → Additions
  | [] => {}
  | decl :: rest =>
    let first := enum context start container scope inherited decl
    first ++ enums context (start + first.counts) container scope inherited rest

/-- The methods of a service. -/
def methods (context : Context) (id : ServiceId) (fullName : String) (features : Features)
    (decl : ServiceDecl) : List MethodDraft :=
  decl.method.map fun method => {
    name := method.name
    fullName := Name.qualify fullName method.name
    service := id
    features := context.rules.resolve (method.options.bind (·.features)) features
    clientStreaming := method.clientStreaming
    serverStreaming := method.serverStreaming
    inputName := method.inputType
    outputName := method.outputType
  }

/-- A service and its methods. -/
def service (context : Context) (start : Counts) (scope : String) (inherited : Features)
    (decl : ServiceDecl) : Additions :=
  let id : ServiceId := ⟨start.services⟩
  let features := context.rules.resolve (decl.options.bind (·.features)) inherited
  let fullName := Name.qualify scope decl.name
  {
    services := [{
      name := decl.name
      fullName
      file := context.file
      features
      methods := (List.range' start.methods decl.method.length).map .mk
    }]
    methods := methods context id fullName features decl
    steps := [.enter (Name.key fullName) (.service id)]
  }

/-- Services, one after the other. -/
def services (context : Context) (start : Counts) (scope : String) (inherited : Features) :
    List ServiceDecl → Additions
  | [] => {}
  | decl :: rest =>
    let first := service context start scope inherited decl
    first ++ services context (start + first.counts) scope inherited rest

/-! ## Messages -/

/-- A message with its oneofs and fields, given the numbers of what is nested in it. -/
def head (context : Context) (start : Counts) (container : Option MessageId) (fullName : String)
    (features : Features) (nestedTypes : List MessageId) (enums : List EnumId)
    (extensions : List FieldId) (decl : MessageDecl) : Additions :=
  let oneofs := oneofs context start fullName features decl
  {
    messages := [{
      name := decl.name
      fullName
      file := context.file
      containingType := container
      features
      fields := fieldIds start.fields decl.field.length
      fieldsByNumber := idsByNumber start decl
      oneofs := (List.range' start.oneofs oneofs.length).map .mk
      realOneofCount := decl.synthetic.count false
      nestedTypes
      enums
      extensions
      extensionRanges := decl.extensionRange.map fun range => ⟨range.start, range.stop⟩
      reservedRanges := decl.reservedRange
      reservedNames := decl.reservedName
      isMapEntry := decl.isMapEntry
    }]
    fields := fields context start fullName features oneofs.toArray decl
    oneofs
    steps := Registration.ofMessageHead fullName ⟨start.messages⟩ decl
  }

/-- How many elements the `head` of a message adds. -/
def headCounts (decl : MessageDecl) : Counts where
  messages := 1
  fields := decl.field.length
  oneofs := decl.oneofDecl.length

mutual

/-- A message and everything in it: its `head`, then what is nested in it. -/
def message (context : Context) (start : Counts) (container : Option MessageId) (scope : String)
    (inherited : Features) : MessageDecl → Additions
  | decl@⟨_, _, _, nestedType, _, _, _, _, _, _⟩ =>
    let fullName := Name.qualify scope decl.name
    let features := context.rules.resolve (decl.options.bind (·.features)) inherited
    let own : Option MessageId := some ⟨start.messages⟩
    let inside := start + headCounts decl
    let (nestedIds, nested) := messages context inside own fullName features nestedType
    let afterNested := inside + nested.counts
    let enums := enums context afterNested own fullName features decl.enumType
    let enumIds := (List.range' afterNested.enums decl.enumType.length).map .mk
    let extensionIds := fieldIds afterNested.fields decl.extension.length
    let extensions := extensions context own fullName features decl.extension
    head context start container fullName features nestedIds enumIds extensionIds decl
      ++ nested ++ enums ++ extensions

/-- Messages, one after the other, and the numbers of those that are not nested in each other. -/
def messages (context : Context) (start : Counts) (container : Option MessageId) (scope : String)
    (inherited : Features) : List MessageDecl → List MessageId × Additions
  | [] => ([], {})
  | decl :: rest =>
    let first := message context start container scope inherited decl
    let (ids, others) := messages context (start + first.counts) container scope inherited rest
    (⟨start.messages⟩ :: ids, first ++ others)

end

/-! ## Files -/

/-- A file without its dependencies, and everything in it. -/
def file (context : Context) (start : Counts) (decl : FileDecl) : FileNode × Additions :=
  let features := context.rules.resolve (decl.options.bind (·.features)) context.rules.defaults
  let (messageIds, messages) := messages context start none decl.package features decl.messageType
  let afterMessages := start + messages.counts
  let enums := enums context afterMessages none decl.package features decl.enumType
  let afterEnums := afterMessages + enums.counts
  let services := services context afterEnums decl.package features decl.service
  let extensions := extensions context none decl.package features decl.extension
  let node : FileNode := {
    name := decl.name
    package := decl.package
    edition := context.rules.edition
    features
    messages := messageIds
    enums := (List.range' afterMessages.enums decl.enumType.length).map .mk
    services := (List.range' afterEnums.services decl.service.length).map .mk
    extensions := fieldIds afterEnums.fields decl.extension.length
    dependencies := []
    publicIndices := decl.publicDependency
    weakIndices := decl.weakDependency
  }
  (node, messages ++ enums ++ services ++ extensions)

end SchemaLayout.Numbering
