import SchemaLayout.Proofs.Compiler.Agreement
import SchemaLayout.Proofs.Schema.ScopeFeatures
import SchemaLayout.Proofs.Schema.SingleFile

/-!
# Features of scopes before edition 2023 do not matter

What messages and enums are compiled to is told from fields, and from other elements without their features. So
whatever features are written on files, messages, oneofs, enums and services before edition 2023, where fields do
not inherit them, all messages and enums are compiled to the same results (`alone_eq_of_stripped`).
-/

namespace SchemaLayout.Schema

/-! ## Elements -/

theorem message_bare (schema : Schema) (id : MessageId) : schema.bare.message id = (schema.message id).bare :=
  getElem?_map_getD MessageNode.bare rfl schema.messages id.index

theorem oneof_bare (schema : Schema) (id : OneofId) : schema.bare.oneof id = (schema.oneof id).bare :=
  getElem?_map_getD OneofNode.bare rfl schema.oneofs id.index

theorem enum_bare (schema : Schema) (id : EnumId) : schema.bare.enum id = (schema.enum id).bare :=
  getElem?_map_getD EnumNode.bare rfl schema.enums id.index

theorem value_bare (schema : Schema) (id : EnumValueId) : schema.bare.value id = (schema.value id).bare :=
  getElem?_map_getD EnumValueNode.bare rfl schema.values id.index

/-! ## Enums -/

/-- `compileEnum` does not look at features. -/
theorem compileEnum_bare (schema : Schema) (id : EnumId) :
    Compiler.compileEnum schema.bare id = Compiler.compileEnum schema id := by
  have hfirst (enum : EnumId) (number : Int32) :
      schema.bare.valueWithNumber? enum number = schema.valueWithNumber? enum number := by
    rw [valueWithNumber?, valueWithNumber?, enum_bare]
    simp only [value_bare, EnumNode.bare, EnumValueNode.bare]
  have hcanonical : schema.bare.isCanonical = schema.isCanonical := by
    funext value
    rw [isCanonical, isCanonical, hfirst, value_bare]
    rfl
  have haliases : schema.bare.aliases = schema.aliases := by
    funext value
    simp only [aliases, hcanonical, enum_bare, value_bare, EnumNode.bare, EnumValueNode.bare]
  have hentry : schema.bare.valueEntry = schema.valueEntry := by
    funext value
    simp only [valueEntry, haliases, value_bare, EnumValueNode.bare]
  have hnames : schema.bare.enumNames id = schema.enumNames id := by
    simp only [enumNames, canonicalValues, hcanonical, hentry, enum_bare, value_bare, EnumNode.bare,
      EnumValueNode.bare]
  rw [Compiler.compileEnum, Compiler.compileEnum, enumNameProgram, enumNameProgram, hnames, enum_bare]
  rfl

/-! ## Messages -/

/-- Schemas with the same `bare` satisfy `Agrees`. -/
theorem agrees_of_bare_eq {schema other : Schema} (h : other.bare = schema.bare) : schema.Agrees other := by
  have hfields : other.fields = schema.fields := congrArg (·.fields) h
  have hmessage (id : MessageId) : (other.message id).bare = (schema.message id).bare := by
    rw [← message_bare, h, message_bare]
  have honeof (id : OneofId) : (other.oneof id).bare = (schema.oneof id).bare := by
    rw [← oneof_bare, h, oneof_bare]
  have hfield : other.field = schema.field := by
    funext id
    rw [Schema.field, Schema.field, hfields]
  constructor
  case mem =>
    intro id hid
    rwa [messageIds_eq_of_counts_eq (counts_eq_of_bare_eq h)]
  case message =>
    intro id _
    -- The features of the other message are put into both, since `bare` drops them.
    have hsame := congrArg (fun message : MessageNode => { message with features := (other.message id).features })
      (hmessage id)
    have horder := congrArg MessageNode.fieldsByNumber (hmessage id)
    change (other.message id).fieldsByNumber = (schema.message id).fieldsByNumber at horder
    rw [horder]
    exact hsame
  case fieldsByNumber =>
    intro id _
    have horder := congrArg MessageNode.fieldsByNumber (hmessage id)
    rw [fieldsByNumber, fieldsByNumber, hfield]
    exact congrArg (List.map schema.field) horder
  case members =>
    intro id _ oneof _
    have hmembers := congrArg OneofNode.fields (honeof oneof)
    rw [hfield]
    exact .of_eq (congrArg (List.map schema.field) hmembers)

/-- Of two lists of files with the same `stripped`, either both can be put together or neither. Then the schemas
have the same `bare`, the same fields, and the same results of `compileEnum` and `Compiler.alone`. -/
theorem alone_eq_of_stripped (building : Config) {files others : List FileDecl}
    (hfiles : others.map FileDecl.stripped = files.map FileDecl.stripped) :
    ((∃ schema, ofFiles building files = .ok schema) ↔ ∃ other, ofFiles building others = .ok other) ∧
      ∀ {schema other : Schema}, ofFiles building files = .ok schema → ofFiles building others = .ok other →
        other.bare = schema.bare ∧ other.fields = schema.fields ∧
          (∀ id, Compiler.compileEnum other id = Compiler.compileEnum schema id) ∧
            ∀ id ∈ schema.messageIds, ∀ config : Config, config.costThreshold < 2 ^ 32 →
              Compiler.alone config other id = Compiler.alone config schema id := by
  refine ⟨⟨fun h => ?_, fun h => ?_⟩, fun {schema other} hschema hother => ?_⟩
  · obtain ⟨schema, hschema⟩ := h
    obtain ⟨other, hother, _⟩ := exists_ofFiles_of_stripped hfiles hschema
    exact ⟨other, hother⟩
  · obtain ⟨other, hother⟩ := h
    obtain ⟨schema, hschema, _⟩ := exists_ofFiles_of_stripped hfiles.symm hother
    exact ⟨schema, hschema⟩
  · obtain ⟨_, hsame, h⟩ := exists_ofFiles_of_stripped hfiles hschema
    cases hother.symm.trans hsame
    refine ⟨h, congrArg (·.fields) h, fun id => ?_, fun id hid config hthreshold => ?_⟩
    · rw [← compileEnum_bare, h, compileEnum_bare]
    · exact (agrees_of_bare_eq h).alone_eq (isSound_ofFiles hschema) (isSound_ofFiles hother)
        (Nat.le_of_lt_succ hthreshold) hid

/-- `pathFile`, where the file, a line and its oneof say something of features that lines would inherit from
edition 2023 on. -/
def pathFileFeatured : FileDecl where
  name := "path.proto"
  options := some { features := some { fieldPresence := some .implicit, messageEncoding := some .delimited } }
  messageType := [
    { name := "Point", field := [{ name := "x", number := 1 }, { name := "y", number := 2 }] },
    { name := "Line"
      field := [
        { name := "start", number := 1, type := .message, typeName := some "Point" },
        { name := "stop", number := 3, type := .message, typeName := some "Point",
          oneofIndex := some 0 },
        { name := "open", number := 2, type := .bool, oneofIndex := some 0 }]
      oneofDecl := [
        { name := "end", options := some { features := some { messageEncoding := some .delimited } } }]
      options := some { features := some { fieldPresence := some .legacyRequired } } },
    { name := "Path"
      field := [
        { name := "first", number := 1, type := .message, typeName := some "Line" },
        { name := "rest", number := 2, type := .message, typeName := some ".Path" }] }]

theorem stripped_pathFileFeatured :
    [pathFileFeatured].map FileDecl.stripped = [pathFile].map FileDecl.stripped :=
  rfl

/-- `pathFileFeatured` gives lines other features than `pathFile`, and the same results. -/
theorem alone_eq_of_stripped_path :
    ∃ schema other, ofFiles {} [pathFile] = .ok schema ∧ ofFiles {} [pathFileFeatured] = .ok other ∧
      (other.message ⟨1⟩).features ≠ (schema.message ⟨1⟩).features ∧ other.fields = schema.fields ∧
        ∀ id ∈ schema.messageIds, Compiler.alone {} other id = Compiler.alone {} schema id := by
  obtain ⟨schema, hschema⟩ := exists_ofFiles_path
  obtain ⟨hiff, hresults⟩ := alone_eq_of_stripped {} stripped_pathFileFeatured
  obtain ⟨other, hother⟩ := hiff.1 ⟨schema, hschema⟩
  obtain ⟨_, hfields, _, halone⟩ := hresults hschema hother
  refine ⟨schema, other, hschema, hother, ?_, hfields, fun id hid => halone id hid {} (by decide)⟩
  rw [Schema.message, Schema.message, messages_of_ofFiles (ofTable_proto2 rfl) hother,
    messages_of_ofFiles (ofTable_proto2 rfl) hschema]
  decide

end SchemaLayout.Schema
