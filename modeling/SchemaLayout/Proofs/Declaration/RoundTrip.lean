import SchemaLayout.Declaration.Reading
import SchemaLayout.Proofs.Feature.Document

/-!
# Declarations are read back from documents

Each kind of declaration is read back from its document if the feature sets in it are writable (`IsWritable`), and so
is a set of files. Both a set of files and a default table are read back from their texts if these nest no deeper than
texts may (`ofText_render_encode`).
-/

namespace SchemaLayout

open Json (Decoder)
open Json.Decoder (reads_text reads_bool reads_int32 reads_oneOf reads_optional reads_optional_text reads_list
  reads_list_text reads_list_int32 reads_object)

/-! ## Labels and field types -/

/-- Labels are told apart by their constants. -/
theorem Label.reads_constant (label : Label) : (Decoder.oneOf Label.names).Reads (.text label.constant) label :=
  reads_oneOf (by cases label <;> rfl)

/-- Field types are told apart by their constants. -/
theorem FieldType.reads_constant (type : FieldType) :
    (Decoder.oneOf FieldType.names).Reads (.text type.constant) type :=
  reads_oneOf (by cases type <;> rfl)

/-! ## Options -/

namespace PlainOptions

/-- The feature set of `PlainOptions`. -/
def featureSets (options : PlainOptions) : List FeatureSet :=
  options.features.toList

/-- `decode` reads back `encode` for options without anything but features. -/
theorem reads_encode (options : PlainOptions) (h : ∀ set ∈ options.featureSets, set.IsWritable) :
    decode.Reads options.encode options := by
  have hfeatures := FeatureSet.reads_ofOption h
  have hdeprecated := reads_bool options.deprecated
  refine reads_object (by simp [hfeatures.whole, hdeprecated.whole]) fun room hroom => ?_
  refine Json.members?_bind_eq_some rfl (by decide) ?_
  refine Json.member_bind_eq_some hfeatures hroom rfl ?_
  refine Json.member_bind_eq_some hdeprecated hroom rfl ?_
  rfl

end PlainOptions

namespace FileOptions

/-- The feature set of `FileOptions`. -/
def featureSets (options : FileOptions) : List FeatureSet :=
  options.features.toList

theorem reads_encode (options : FileOptions) (h : ∀ set ∈ options.featureSets, set.IsWritable) :
    decode.Reads options.encode options := by
  have hfeatures := FeatureSet.reads_ofOption h
  have hdeprecated := reads_bool options.deprecated
  refine reads_object (by simp [hfeatures.whole, hdeprecated.whole]) fun room hroom => ?_
  -- The members are read in the order in which they are written.
  refine Json.members?_bind_eq_some rfl (by decide) ?_
  refine Json.member_bind_eq_some hfeatures hroom rfl ?_
  refine Json.member_bind_eq_some hdeprecated hroom rfl ?_
  rfl

end FileOptions

namespace MessageOptions

/-- The feature set of `MessageOptions`. -/
def featureSets (options : MessageOptions) : List FeatureSet :=
  options.features.toList

theorem reads_encode (options : MessageOptions) (h : ∀ set ∈ options.featureSets, set.IsWritable) :
    decode.Reads options.encode options := by
  have hfeatures := FeatureSet.reads_ofOption h
  have hmapEntry := reads_bool options.mapEntry
  have hdeprecated := reads_bool options.deprecated
  refine reads_object (by simp [hfeatures.whole, hmapEntry.whole, hdeprecated.whole]) fun room hroom => ?_
  refine Json.members?_bind_eq_some rfl (by decide) ?_
  refine Json.member_bind_eq_some hfeatures hroom rfl ?_
  refine Json.member_bind_eq_some hmapEntry hroom rfl ?_
  refine Json.member_bind_eq_some hdeprecated hroom rfl ?_
  rfl

end MessageOptions

namespace FieldOptions

/-- The feature set of `FieldOptions`. -/
def featureSets (options : FieldOptions) : List FeatureSet :=
  options.features.toList

theorem reads_encode (options : FieldOptions) (h : ∀ set ∈ options.featureSets, set.IsWritable) :
    decode.Reads options.encode options := by
  have hfeatures := FeatureSet.reads_ofOption h
  have hpacked : (Decoder.optional .bool).Reads (Json.ofOption .bool options.packed) options.packed :=
    reads_optional (fun packed _ => reads_bool packed) (fun _ => nofun)
  have hdeprecated := reads_bool options.deprecated
  refine reads_object (by simp [hfeatures.whole, hpacked.whole, hdeprecated.whole]) fun room hroom => ?_
  refine Json.members?_bind_eq_some rfl (by decide) ?_
  refine Json.member_bind_eq_some hfeatures hroom rfl ?_
  refine Json.member_bind_eq_some hpacked hroom rfl ?_
  refine Json.member_bind_eq_some hdeprecated hroom rfl ?_
  rfl

end FieldOptions

namespace EnumOptions

/-- The feature set of `EnumOptions`. -/
def featureSets (options : EnumOptions) : List FeatureSet :=
  options.features.toList

theorem reads_encode (options : EnumOptions) (h : ∀ set ∈ options.featureSets, set.IsWritable) :
    decode.Reads options.encode options := by
  have hfeatures := FeatureSet.reads_ofOption h
  have hallowAlias := reads_bool options.allowAlias
  have hdeprecated := reads_bool options.deprecated
  refine reads_object (by simp [hfeatures.whole, hallowAlias.whole, hdeprecated.whole]) fun room hroom => ?_
  refine Json.members?_bind_eq_some rfl (by decide) ?_
  refine Json.member_bind_eq_some hfeatures hroom rfl ?_
  refine Json.member_bind_eq_some hallowAlias hroom rfl ?_
  refine Json.member_bind_eq_some hdeprecated hroom rfl ?_
  rfl

end EnumOptions

/-- `Decoder.optional` reads back options that may be absent. -/
theorem PlainOptions.reads_ofOption {options : Option PlainOptions}
    (h : ∀ set ∈ options.toList.flatMap featureSets, set.IsWritable) :
    (Decoder.optional decode).Reads (Json.ofOption encode options) options :=
  FeatureSet.reads_option_of_forall reads_encode (fun _ => nofun) h

/-! ## Fields, oneofs and enums -/

namespace FieldDecl

/-- The feature set of a field, in its options. -/
def featureSets (field : FieldDecl) : List FeatureSet :=
  field.options.toList.flatMap (·.featureSets)

/-- `decode` reads back `encode` for a field. -/
theorem reads_encode (field : FieldDecl) (h : ∀ set ∈ field.featureSets, set.IsWritable) :
    decode.Reads field.encode field := by
  have hname := reads_text field.name
  have hnumber := reads_int32 field.number
  have hlabel := field.label.reads_constant
  have htype := field.type.reads_constant
  have htypeName := reads_optional_text field.typeName
  have hextendee := reads_optional_text field.extendee
  have hdefault := reads_optional_text field.defaultValue
  have honeof : (Decoder.optional .int32).Reads (Json.ofOption Json.ofInt32 field.oneofIndex) field.oneofIndex :=
    reads_optional (fun index _ => reads_int32 index) (fun _ => nofun)
  have hjsonName := reads_optional_text field.jsonName
  have hoptions := FeatureSet.reads_option_of_forall FieldOptions.reads_encode (fun _ => nofun) h
  have hproto3 := reads_bool field.proto3Optional
  refine reads_object (by simp [hname.whole, hnumber.whole, hlabel.whole, htype.whole, htypeName.whole,
    hextendee.whole, hdefault.whole, honeof.whole, hjsonName.whole, hoptions.whole, hproto3.whole])
    fun room hroom => ?_
  refine Json.members?_bind_eq_some rfl (by decide) ?_
  refine Json.member_bind_eq_some hname hroom rfl ?_
  refine Json.member_bind_eq_some hnumber hroom rfl ?_
  refine Json.member_bind_eq_some hlabel hroom rfl ?_
  refine Json.member_bind_eq_some htype hroom rfl ?_
  refine Json.member_bind_eq_some htypeName hroom rfl ?_
  refine Json.member_bind_eq_some hextendee hroom rfl ?_
  refine Json.member_bind_eq_some hdefault hroom rfl ?_
  refine Json.member_bind_eq_some honeof hroom rfl ?_
  refine Json.member_bind_eq_some hjsonName hroom rfl ?_
  refine Json.member_bind_eq_some hoptions hroom rfl ?_
  refine Json.member_bind_eq_some hproto3 hroom rfl ?_
  rfl

end FieldDecl

namespace OneofDecl

/-- The feature set of a oneof. -/
def featureSets (oneof : OneofDecl) : List FeatureSet :=
  oneof.options.toList.flatMap (·.featureSets)

theorem reads_encode (oneof : OneofDecl) (h : ∀ set ∈ oneof.featureSets, set.IsWritable) :
    decode.Reads oneof.encode oneof := by
  have hname := reads_text oneof.name
  have hoptions := PlainOptions.reads_ofOption h
  refine reads_object (by simp [hname.whole, hoptions.whole]) fun room hroom => ?_
  refine Json.members?_bind_eq_some rfl (by decide) ?_
  refine Json.member_bind_eq_some hname hroom rfl ?_
  refine Json.member_bind_eq_some hoptions hroom rfl ?_
  rfl

end OneofDecl

namespace EnumValueDecl

/-- The feature set of an enum value. -/
def featureSets (value : EnumValueDecl) : List FeatureSet :=
  value.options.toList.flatMap (·.featureSets)

theorem reads_encode (value : EnumValueDecl) (h : ∀ set ∈ value.featureSets, set.IsWritable) :
    decode.Reads value.encode value := by
  have hname := reads_text value.name
  have hnumber := reads_int32 value.number
  have hoptions := PlainOptions.reads_ofOption h
  refine reads_object (by simp [hname.whole, hnumber.whole, hoptions.whole]) fun room hroom => ?_
  refine Json.members?_bind_eq_some rfl (by decide) ?_
  refine Json.member_bind_eq_some hname hroom rfl ?_
  refine Json.member_bind_eq_some hnumber hroom rfl ?_
  refine Json.member_bind_eq_some hoptions hroom rfl ?_
  rfl

end EnumValueDecl

namespace NumberRange

/-- `decode` reads back `encode` for a range, which has no features. -/
theorem reads_encode (range : NumberRange) : decode.Reads range.encode range := by
  have hstart := reads_int32 range.start
  have hstop := reads_int32 range.stop
  refine reads_object (by simp [hstart.whole, hstop.whole]) fun room hroom => ?_
  refine Json.members?_bind_eq_some rfl (by decide) ?_
  refine Json.member_bind_eq_some hstart hroom rfl ?_
  refine Json.member_bind_eq_some hstop hroom rfl ?_
  rfl

theorem reads_ofList (ranges : List NumberRange) : (Decoder.list decode).Reads (Json.ofList encode ranges) ranges :=
  reads_list fun range _ => range.reads_encode

end NumberRange

namespace EnumDecl

/-- The feature sets of an enum and of its values. -/
def featureSets (enum : EnumDecl) : List FeatureSet :=
  enum.options.toList.flatMap (·.featureSets) ++ enum.value.flatMap (·.featureSets)

theorem reads_encode (enum : EnumDecl) (h : ∀ set ∈ enum.featureSets, set.IsWritable) :
    decode.Reads enum.encode enum := by
  obtain ⟨hown, hinner⟩ := List.forall_mem_append.1 h
  have hname := reads_text enum.name
  have hvalue := FeatureSet.reads_list_of_forall EnumValueDecl.reads_encode hinner
  have hoptions := FeatureSet.reads_option_of_forall EnumOptions.reads_encode (fun _ => nofun) hown
  have hranges := NumberRange.reads_ofList enum.reservedRange
  have hnames := reads_list_text enum.reservedName
  refine reads_object (by simp [hname.whole, hvalue.whole, hoptions.whole, hranges.whole, hnames.whole])
    fun room hroom => ?_
  refine Json.members?_bind_eq_some rfl (by decide) ?_
  refine Json.member_bind_eq_some hname hroom rfl ?_
  refine Json.member_bind_eq_some hvalue hroom rfl ?_
  refine Json.member_bind_eq_some hoptions hroom rfl ?_
  refine Json.member_bind_eq_some hranges hroom rfl ?_
  refine Json.member_bind_eq_some hnames hroom rfl ?_
  rfl

end EnumDecl

/-! ## Messages -/

namespace ExtensionRange

/-- The feature set of a range of extension numbers. -/
def featureSets (range : ExtensionRange) : List FeatureSet :=
  range.options.toList.flatMap (·.featureSets)

theorem reads_encode (range : ExtensionRange) (h : ∀ set ∈ range.featureSets, set.IsWritable) :
    decode.Reads range.encode range := by
  have hstart := reads_int32 range.start
  have hstop := reads_int32 range.stop
  have hoptions := PlainOptions.reads_ofOption h
  refine reads_object (by simp [hstart.whole, hstop.whole, hoptions.whole]) fun room hroom => ?_
  refine Json.members?_bind_eq_some rfl (by decide) ?_
  refine Json.member_bind_eq_some hstart hroom rfl ?_
  refine Json.member_bind_eq_some hstop hroom rfl ?_
  refine Json.member_bind_eq_some hoptions hroom rfl ?_
  rfl

end ExtensionRange

namespace MessageDecl

mutual

/-- The feature sets of a message and of all that is in it. -/
def featureSets : MessageDecl → List FeatureSet
  | ⟨_, field, extension, nestedType, enumType, extensionRange, oneofDecl, options, _, _⟩ =>
    options.toList.flatMap (·.featureSets) ++ field.flatMap (·.featureSets) ++ extension.flatMap (·.featureSets)
      ++ featureSetsOfAll nestedType ++ enumType.flatMap (·.featureSets) ++ extensionRange.flatMap (·.featureSets)
      ++ oneofDecl.flatMap (·.featureSets)

/-- `featureSets` of messages, one after the other. -/
def featureSetsOfAll : List MessageDecl → List FeatureSet
  | [] => []
  | message :: rest => featureSets message ++ featureSetsOfAll rest

end

/-- `decode` with `room` for a list of messages: those inside have two levels less. -/
theorem decode_add_two (room : Nat) (document : Json) : decode (room + 2) document = (do
    let all ← document.members? ["name", "field", "extension", "nestedType", "enumType",
      "extensionRange", "oneofDecl", "options", "reservedRange", "reservedName"]
    let nestedType ←
      match all.lookup "nestedType" with
      | none => some []
      | some (.array items) => items.mapM (decode room)
      | some _ => none
    return {
      name := ← Json.member all "name" (room + 1) .text ""
      field := ← Json.member all "field" (room + 1) (.list FieldDecl.decode) []
      extension := ← Json.member all "extension" (room + 1) (.list FieldDecl.decode) []
      nestedType
      enumType := ← Json.member all "enumType" (room + 1) (.list EnumDecl.decode) []
      extensionRange := ← Json.member all "extensionRange" (room + 1) (.list ExtensionRange.decode) []
      oneofDecl := ← Json.member all "oneofDecl" (room + 1) (.list OneofDecl.decode) []
      options := ← Json.member all "options" (room + 1) (.optional MessageOptions.decode) none
      reservedRange := ← Json.member all "reservedRange" (room + 1) (.list NumberRange.decode) []
      reservedName := ← Json.member all "reservedName" (room + 1) (.list .text) []
    }) := by
  delta decode
  refine congrArg (Json.members? _ document >>= ·) (funext fun all => ?_)
  cases all.lookup "nestedType" with
  | none => rfl
  | some nested => cases nested <;> rfl

/-- `encodeAll` encodes each message. -/
theorem encodeAll_eq_map (messages : List MessageDecl) : encodeAll messages = messages.map encode := by
  induction messages with
  | nil => rw [encodeAll, List.map_nil]
  | cons message rest ih => rw [encodeAll, ih, List.map_cons]

/-- `decode` reads back a list of messages if it does so with each of them. -/
theorem reads_encodeAll {messages : List MessageDecl}
    (h : ∀ message ∈ messages, Decoder.Reads decode message.encode message) :
    (Decoder.list decode).Reads (.array (encodeAll messages)) messages := by
  rw [encodeAll_eq_map]
  exact reads_list h

mutual

/-- `decode` reads back `encode` for a message, by induction on the messages inside. -/
theorem reads_encode (message : MessageDecl) (h : ∀ set ∈ message.featureSets, set.IsWritable) :
    Decoder.Reads decode message.encode message := by
  match message with
  | ⟨name, field, extension, nestedType, enumType, extensionRange, oneofDecl, options, reservedRange,
      reservedName⟩ =>
    simp only [featureSets, List.forall_mem_append] at h
    obtain ⟨⟨⟨⟨⟨⟨hown, hfields⟩, hextensions⟩, hinner⟩, henums⟩, hextensionRanges⟩, honeofs⟩ := h
    have hname := reads_text name
    have hfield := FeatureSet.reads_list_of_forall FieldDecl.reads_encode hfields
    have hextension := FeatureSet.reads_list_of_forall FieldDecl.reads_encode hextensions
    have hnested := reads_encodeAll (reads_encode_of_mem nestedType hinner)
    have henum := FeatureSet.reads_list_of_forall EnumDecl.reads_encode henums
    have hextensionRange := FeatureSet.reads_list_of_forall ExtensionRange.reads_encode hextensionRanges
    have honeof := FeatureSet.reads_list_of_forall OneofDecl.reads_encode honeofs
    have hoptions := FeatureSet.reads_option_of_forall MessageOptions.reads_encode (fun _ => nofun) hown
    have hranges := NumberRange.reads_ofList reservedRange
    have hnames := reads_list_text reservedName
    rw [encode]
    refine reads_object (by simp [hname.whole, hfield.whole, hextension.whole, hnested.whole, henum.whole,
      hextensionRange.whole, honeof.whole, hoptions.whole, hranges.whole, hnames.whole]) fun room hroom => ?_
    -- The list of nested messages is not read by a decoder of lists, since the recursion must show.
    have hroom' := hroom ("nestedType", .array (encodeAll nestedType)) (by simp)
    obtain ⟨left, rfl, _⟩ := Json.exists_of_nesting_array_le hroom'
    rw [decode_add_two]
    refine Json.members?_bind_eq_some rfl (by decide) ?_
    have hmessages : (encodeAll nestedType).mapM (decode left) = some nestedType := hnested.eq_some hroom'
    show ((encodeAll nestedType).mapM (decode left) >>= _) = _
    rw [hmessages, Option.bind_eq_bind, Option.bind_some]
    refine Json.member_bind_eq_some hname hroom rfl ?_
    refine Json.member_bind_eq_some hfield hroom rfl ?_
    refine Json.member_bind_eq_some hextension hroom rfl ?_
    refine Json.member_bind_eq_some henum hroom rfl ?_
    refine Json.member_bind_eq_some hextensionRange hroom rfl ?_
    refine Json.member_bind_eq_some honeof hroom rfl ?_
    refine Json.member_bind_eq_some hoptions hroom rfl ?_
    refine Json.member_bind_eq_some hranges hroom rfl ?_
    refine Json.member_bind_eq_some hnames hroom rfl ?_
    rfl

/-- The messages in a list are read back. -/
theorem reads_encode_of_mem (messages : List MessageDecl) (h : ∀ set ∈ featureSetsOfAll messages, set.IsWritable) :
    ∀ message ∈ messages, Decoder.Reads decode message.encode message := by
  match messages with
  | [] => exact List.forall_mem_nil _
  | message :: rest =>
    simp only [featureSetsOfAll, List.forall_mem_append] at h
    exact List.forall_mem_cons.2 ⟨reads_encode message h.1, reads_encode_of_mem rest h.2⟩

end

end MessageDecl

/-! ## Services and files -/

namespace MethodDecl

/-- The feature set of a method. -/
def featureSets (method : MethodDecl) : List FeatureSet :=
  method.options.toList.flatMap (·.featureSets)

theorem reads_encode (method : MethodDecl) (h : ∀ set ∈ method.featureSets, set.IsWritable) :
    decode.Reads method.encode method := by
  have hname := reads_text method.name
  have hinput := reads_text method.inputType
  have houtput := reads_text method.outputType
  have hclient := reads_bool method.clientStreaming
  have hserver := reads_bool method.serverStreaming
  have hoptions := PlainOptions.reads_ofOption h
  refine reads_object (by simp [hname.whole, hinput.whole, houtput.whole, hclient.whole, hserver.whole,
    hoptions.whole]) fun room hroom => ?_
  refine Json.members?_bind_eq_some rfl (by decide) ?_
  refine Json.member_bind_eq_some hname hroom rfl ?_
  refine Json.member_bind_eq_some hinput hroom rfl ?_
  refine Json.member_bind_eq_some houtput hroom rfl ?_
  refine Json.member_bind_eq_some hclient hroom rfl ?_
  refine Json.member_bind_eq_some hserver hroom rfl ?_
  refine Json.member_bind_eq_some hoptions hroom rfl ?_
  rfl

end MethodDecl

namespace ServiceDecl

/-- The feature sets of a service and of its methods. -/
def featureSets (service : ServiceDecl) : List FeatureSet :=
  service.options.toList.flatMap (·.featureSets) ++ service.method.flatMap (·.featureSets)

theorem reads_encode (service : ServiceDecl) (h : ∀ set ∈ service.featureSets, set.IsWritable) :
    decode.Reads service.encode service := by
  obtain ⟨hown, hinner⟩ := List.forall_mem_append.1 h
  have hname := reads_text service.name
  have hmethod := FeatureSet.reads_list_of_forall MethodDecl.reads_encode hinner
  have hoptions := PlainOptions.reads_ofOption hown
  refine reads_object (by simp [hname.whole, hmethod.whole, hoptions.whole]) fun room hroom => ?_
  refine Json.members?_bind_eq_some rfl (by decide) ?_
  refine Json.member_bind_eq_some hname hroom rfl ?_
  refine Json.member_bind_eq_some hmethod hroom rfl ?_
  refine Json.member_bind_eq_some hoptions hroom rfl ?_
  rfl

end ServiceDecl

namespace FileDecl

/-- The feature sets of a file and of all that is in it. -/
def featureSets (file : FileDecl) : List FeatureSet :=
  file.options.toList.flatMap (·.featureSets) ++ MessageDecl.featureSetsOfAll file.messageType
    ++ file.enumType.flatMap (·.featureSets) ++ file.service.flatMap (·.featureSets)
    ++ file.extension.flatMap (·.featureSets)

/-- `decode` reads back `encode` for a file. -/
theorem reads_encode (file : FileDecl) (h : ∀ set ∈ file.featureSets, set.IsWritable) :
    decode.Reads file.encode file := by
  simp only [featureSets, List.forall_mem_append] at h
  obtain ⟨⟨⟨⟨hown, hmessages⟩, henums⟩, hservices⟩, hextensions⟩ := h
  have hname := reads_text file.name
  have hpackage := reads_text file.package
  have hdependency := reads_list_text file.dependency
  have hpublic := reads_list_int32 file.publicDependency
  have hweak := reads_list_int32 file.weakDependency
  have hmessage := MessageDecl.reads_encodeAll (MessageDecl.reads_encode_of_mem file.messageType hmessages)
  have henum := FeatureSet.reads_list_of_forall EnumDecl.reads_encode henums
  have hservice := FeatureSet.reads_list_of_forall ServiceDecl.reads_encode hservices
  have hextension := FeatureSet.reads_list_of_forall FieldDecl.reads_encode hextensions
  have hoptions := FeatureSet.reads_option_of_forall FileOptions.reads_encode (fun _ => nofun) hown
  have hsyntax := reads_optional_text file.syntaxName
  have hedition : (Decoder.optional (.oneOf Edition.names)).Reads (Json.ofOption (.text ·.keyword) file.edition)
      file.edition := reads_optional (fun edition _ => edition.reads_keyword) (fun _ => nofun)
  refine reads_object (by simp [hname.whole, hpackage.whole, hdependency.whole, hpublic.whole, hweak.whole,
    hmessage.whole, henum.whole, hservice.whole, hextension.whole, hoptions.whole, hsyntax.whole, hedition.whole])
    fun room hroom => ?_
  refine Json.members?_bind_eq_some rfl (by decide) ?_
  refine Json.member_bind_eq_some hname hroom rfl ?_
  refine Json.member_bind_eq_some hpackage hroom rfl ?_
  refine Json.member_bind_eq_some hdependency hroom rfl ?_
  refine Json.member_bind_eq_some hpublic hroom rfl ?_
  refine Json.member_bind_eq_some hweak hroom rfl ?_
  refine Json.member_bind_eq_some hmessage hroom rfl ?_
  refine Json.member_bind_eq_some henum hroom rfl ?_
  refine Json.member_bind_eq_some hservice hroom rfl ?_
  refine Json.member_bind_eq_some hextension hroom rfl ?_
  refine Json.member_bind_eq_some hoptions hroom rfl ?_
  refine Json.member_bind_eq_some hsyntax hroom rfl ?_
  refine Json.member_bind_eq_some hedition hroom rfl ?_
  rfl

end FileDecl

namespace FileSet

/-- The feature sets of all files. -/
def featureSets (set : FileSet) : List FeatureSet :=
  set.file.flatMap (·.featureSets)

/-- `decode` reads back `encode` for a set of files. -/
theorem reads_encode (set : FileSet) (h : ∀ features ∈ set.featureSets, features.IsWritable) :
    decode.Reads set.encode set := by
  have hfile := FeatureSet.reads_list_of_forall FileDecl.reads_encode h
  refine reads_object (by simp [hfile.whole]) fun room hroom => ?_
  refine Json.members?_bind_eq_some rfl (by decide) ?_
  refine Json.member_bind_eq_some hfile hroom rfl ?_
  rfl

end FileSet

/-! ## Texts -/

/-- `FileSet.ofText` and `DefaultsTable.ofText` read back `encode.render`, if the feature sets are writable and
arrays and objects nest no deeper than `Json.nestingLimit`. -/
theorem ofText_render_encode :
    (∀ set : FileSet, (∀ features ∈ set.featureSets, features.IsWritable) →
      set.encode.nesting ≤ Json.nestingLimit → FileSet.ofText set.encode.render = some set) ∧
    (∀ table : DefaultsTable, (∀ features ∈ table.featureSets, features.IsWritable) →
      table.encode.nesting ≤ Json.nestingLimit → DefaultsTable.ofText table.encode.render = some table) := by
  constructor
  case left => exact fun set h hnesting => (FileSet.reads_encode set h).parse_render_bind hnesting
  case right => exact fun table h hnesting => (DefaultsTable.reads_encode table h).parse_render_bind hnesting

/-- Features with an extension, whose value has the least and the largest number. -/
def inkFeatures : FeatureSet where
  fieldPresence := some .implicit
  jsonFormat := some .legacyBestEffort
  extensions := [
    ("[ink.width]", .object [
      ("least", .int (-0x8000000000000000)), ("most", .array [.int 0xFFFFFFFFFFFFFFFF, .null])]),
    ("[ink.colour]", .text "Bläulich \"\\\n")]

theorem isWritable_inkFeatures : inkFeatures.IsWritable where
  keys := by decide
  names := by decide
  whole := by simp [inkFeatures, Json.IsWhole, Json.IsWholeItems, Json.IsWholeMembers, Json.IsWord]
  sorted := List.forall_mem_cons.2
    ⟨⟨by decide, trivial, ⟨trivial, trivial, trivial⟩, trivial⟩, List.forall_mem_singleton.2 trivial⟩

theorem isWritable_empty : FeatureSet.empty.IsWritable where
  keys := List.nodup_nil
  names := List.forall_mem_nil _
  whole := List.forall_mem_nil _
  sorted := List.forall_mem_nil _

/-- A file with a message inside another one, an enum and a service. -/
def inkFile : FileDecl where
  name := "ink.proto"
  package := "ink"
  dependency := ["paper.proto"]
  weakDependency := [0]
  messageType := [{
    name := "Drawing"
    field := [{
      name := "strokes", number := 1, label := .repeated, type := .message, typeName := some ".ink.Drawing.Stroke"
      options := some { features := some inkFeatures, packed := some false } }]
    nestedType := [{
      name := "Stroke", oneofDecl := [{ name := "colour" }], reservedRange := [{ start := -7, stop := -1 }] }]
    options := some { features := some inkFeatures } }]
  enumType := [{ name := "Pen", value := [{ name := "PEN_NONE", number := -0x80000000 }], reservedName := ["PEN"] }]
  service := [{ name := "Studio", method := [{ name := "Draw", inputType := "Drawing", serverStreaming := true }] }]
  options := some { features := some {}, deprecated := true }
  syntaxName := some "editions"
  edition := some .edition2023

/-- A table in which `inkFeatures` are fixed. -/
def inkTable : DefaultsTable where
  rows := [{ edition := .proto3, fixed := inkFeatures }]
  minimum := .proto3
  maximum := .edition2024

/-- `inkFile` and `inkTable` are read back from their texts. -/
theorem ofText_render_encode_ink :
    (∀ features ∈ FileSet.featureSets ⟨[inkFile]⟩, features.IsWritable) ∧
    (FileSet.encode ⟨[inkFile]⟩).nesting ≤ Json.nestingLimit ∧
    FileSet.ofText (FileSet.encode ⟨[inkFile]⟩).render = some ⟨[inkFile]⟩ ∧
    (∀ features ∈ inkTable.featureSets, features.IsWritable) ∧ inkTable.encode.nesting ≤ Json.nestingLimit ∧
    DefaultsTable.ofText inkTable.encode.render = some inkTable := by
  have hfile : ∀ features ∈ FileSet.featureSets ⟨[inkFile]⟩, features.IsWritable := by
    show ∀ features ∈ [FeatureSet.empty, inkFeatures, inkFeatures], features.IsWritable
    simp [isWritable_empty, isWritable_inkFeatures]
  have htable : ∀ features ∈ inkTable.featureSets, features.IsWritable := by
    show ∀ features ∈ [inkFeatures, FeatureSet.empty], features.IsWritable
    simp [isWritable_empty, isWritable_inkFeatures]
  have hnesting : (FileSet.encode ⟨[inkFile]⟩).nesting ≤ Json.nestingLimit := by decide
  have hnesting' : inkTable.encode.nesting ≤ Json.nestingLimit := by decide
  exact ⟨hfile, hnesting, ofText_render_encode.1 _ hfile hnesting,
    htable, hnesting', ofText_render_encode.2 _ htable hnesting'⟩

end SchemaLayout
