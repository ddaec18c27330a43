import SchemaLayout.CommandLine.Report
import SchemaLayout.Proofs.Compiler.Description
import SchemaLayout.Proofs.NameTable.OfEnum
import SchemaLayout.Proofs.NameTable.OfMessage
import SchemaLayout.Proofs.Schema.Lookup

/-!
# Reports of all types and of single ones

A report of all types is made in one session, and a report of a single type in a session of its own, which finds the
type by its name. The session makes no difference, because its answers are those of a fresh start, and neither does
the way in which the type was found, because looking up a name is the inverse of naming. So the report of all types
consists of the reports of the single ones (`joined_of_each`).
-/

namespace SchemaLayout

namespace Compiler

/-- If each `f a` keeps `P`, and with `P` answers `g a`, then `list.mapM f` answers `list.mapM g`. -/
theorem answer_mapM {α β : Type} {P : Session → Prop} {f : α → Compiling β} {g : α → Except ProgramError β}
    {list : List α}
    (h : ∀ a ∈ list, ∀ session, P session → answer (f a) session = g a ∧ P (after (f a) session))
    {session : Session} (hsession : P session) : answer (list.mapM f) session = list.mapM g := by
  induction list generalizing session with
  | nil => rfl
  | cons a rest ih =>
    obtain ⟨hfirst, hrest⟩ := List.forall_mem_cons.1 h
    obtain ⟨hanswer, hnext⟩ := hfirst session hsession
    rw [List.mapM_cons, List.mapM_cons, answer_bind, hanswer]
    cases g a with
    | error error => rfl
    | ok b =>
      show answer (rest.mapM f >>= fun others => pure (b :: others)) (after (f a) session) =
        rest.mapM g >>= fun others => pure (b :: others)
      rw [answer_bind, ih hrest hnext]
      cases rest.mapM g <;> rfl

end Compiler

/-! ## Finding what is listed -/

namespace Schema

variable {schema : Schema}

/-- Asking by number, for all numbers, is asking all elements in order. -/
theorem map_range_getElem? {α β : Type} [Inhabited α] (array : Array α) (f : α → β) :
    (List.range array.size).map (fun index => f (array[index]?.getD default)) = array.toList.map f := by
  refine List.ext_getElem (by simp) fun index hleft hright => ?_
  have hindex : index < array.size := by simpa using hleft
  rw [List.getElem_map, List.getElem_map, List.getElem_range, Array.getElem?_eq_getElem hindex, Array.getElem_toList]
  rfl

theorem messageIds_map_fullName :
    schema.messageIds.map (fun id => (schema.message id).fullName) = schema.messages.toList.map (·.fullName) := by
  rw [messageIds, List.map_map]
  exact map_range_getElem? schema.messages (·.fullName)

theorem enumIds_map_fullName :
    schema.enumIds.map (fun id => (schema.enum id).fullName) = schema.enums.toList.map (·.fullName) := by
  rw [enumIds, List.map_map]
  exact map_range_getElem? schema.enums (·.fullName)

namespace IsIndexed

variable (h : schema.IsIndexed) (hplain : ∀ name ∈ schema.typeNames, Name.IsPlain name)

include h hplain

theorem findMessage?_fullName {id : MessageId} (hid : id ∈ schema.messageIds) :
    schema.findMessage? (schema.message id).fullName = some id := by
  have hmessage := getElem?_of_mem_messageIds hid
  refine h.findMessage?_eq_some_iff.2 ⟨_, hmessage, Name.keyOf_of_isPlain (hplain _ ?_)⟩
  simp only [typeNames, List.mem_append, List.mem_map, Array.mem_toList_iff]
  exact Or.inl (Or.inl ⟨_, Array.mem_of_getElem? hmessage, rfl⟩)

/-- `findEnum?` finds an enum by its full name, and `findMessage?` finds nothing there. -/
theorem findEnum?_fullName {id : EnumId} (hid : id ∈ schema.enumIds) :
    schema.findEnum? (schema.enum id).fullName = some id ∧ schema.findMessage? (schema.enum id).fullName = none := by
  have henum := getElem?_of_mem_enumIds hid
  have hmem : (schema.enum id).fullName ∈ schema.enums.toList.map (·.fullName) :=
    List.mem_map_of_mem (Array.mem_toList_iff.2 (Array.mem_of_getElem? henum))
  have hkey := Name.keyOf_of_isPlain (hplain _ (List.mem_append_left _ (List.mem_append_right _ hmem)))
  refine ⟨h.findEnum?_eq_some_iff.2 ⟨_, henum, hkey⟩, Option.eq_none_iff_forall_ne_some.2 fun other hother => ?_⟩
  obtain ⟨message, hmessage, hsame⟩ := h.findMessage?_eq_some_iff.1 hother
  -- A message of the enum's name would be another type of the same name.
  have hnames := (List.nodup_append.1 (List.nodup_append.1 h.nodup_typeNames).1).2.2
  refine hnames message.fullName ?_ _ hmem (Name.key_injective (hkey ▸ hsame)).symm
  exact List.mem_map_of_mem (Array.mem_toList_iff.2 (Array.mem_of_getElem? hmessage))

end IsIndexed

end Schema

namespace Report

open Compiler (Compiling alone answer after compileMessage)

variable {config : Config} {schema : Schema} {style : Style}

/-! ## Sections -/

/-- The section of layouts of a message that is compiled by `alone`. -/
def layoutAlone (config : Config) (schema : Schema) (style : Style) (id : MessageId) : Except ProgramError String :=
  alone config schema id >>= messageSection style

/-- The section of names of a compiled message. -/
def messageNamesSection (style : Style) (compiled : CompiledMessage) : Except ProgramError String :=
  namesSection style "message" compiled.fullName compiled.names

/-- The section of names of a message that is compiled by `alone`. -/
def messageNamesAlone (config : Config) (schema : Schema) (style : Style) (id : MessageId) :
    Except ProgramError String :=
  alone config schema id >>= messageNamesSection style

/-- The section of names of an enum. -/
def enumNames (schema : Schema) (style : Style) (id : EnumId) : Except ProgramError String :=
  namesSection style "enum" (schema.enum id).fullName (schema.enumNameProgram id)

/-- `inSession` gives the `answer` from `.start`. -/
theorem inSession_eq_ok_iff {α : Type} {action : Compiling α} {a : α} :
    inSession action = .ok a ↔ answer action .start = .ok a := by
  have hrun : action.run .start = action .start := rfl
  rw [inSession, answer, hrun]
  cases action .start with
  | ok value next => simp
  | error error next => simp

section

variable {building : Config} {files : List FileDecl} (hfiles : Schema.ofFiles building files = .ok schema)
  (hthreshold : config.costThreshold < 2 ^ 32)

include hfiles hthreshold

/-- Some property of sessions holds of `.start`, is kept by `compileMessage`, and with it the answers are those
of `alone`. -/
theorem exists_steady : ∃ P : Session → Prop, P .start ∧ ∀ id ∈ schema.messageIds, ∀ session, P session →
    answer (compileMessage config schema id) session = alone config schema id ∧
      P (after (compileMessage config schema id) session) := by
  have hsound := Schema.isSound_ofFiles hfiles
  have hlimit : config.costThreshold ≤ Storage.maxCost := Nat.le_of_lt_succ hthreshold
  obtain ⟨decisions, hrule, _⟩ := Storage.existsUnique_followsRule hsound config.costThreshold
  refine ⟨fun session => ∃ compiled, Compiler.Remembers config schema decisions compiled session,
    ⟨[], Compiler.remembers_start⟩, ?_⟩
  rintro id hid session ⟨compiled, hremembers⟩
  obtain ⟨hanswer, hnext⟩ := Compiler.compileMessage_spec hsound hlimit hrule hremembers hid
  exact ⟨hanswer, _, hnext⟩

/-- `layouts` joins the sections `layoutAlone` of the chosen messages. -/
theorem layouts_eq_ok_iff {type : Option String} {ids : List MessageId}
    (hchosen : chosenMessages schema type = .ok ids) (hids : ∀ id ∈ ids, id ∈ schema.messageIds) {text : String} :
    layouts config schema type style = .ok text ↔
      ∃ sections, ids.mapM (layoutAlone config schema style) = .ok sections ∧ text = joined sections := by
  obtain ⟨P, hstart, hsteady⟩ := exists_steady hfiles hthreshold
  -- Whatever was compiled before, each message has the answer of a fresh compiler.
  have hanswer : answer (ids.mapM fun id => do
      let compiled ← compileMessage config schema id
      MonadExcept.ofExcept (messageSection style compiled)) .start = ids.mapM (layoutAlone config schema style) := by
    refine Compiler.answer_mapM (fun id hid session hsession => ?_) hstart
    obtain ⟨hanswer, hnext⟩ := hsteady id (hids id hid) session hsession
    rw [Compiler.answer_bind, Compiler.after_bind, hanswer, layoutAlone]
    cases alone config schema id with
    | error error => exact ⟨rfl, hnext⟩
    | ok compiled =>
      show answer (MonadExcept.ofExcept (messageSection style compiled)) _ = messageSection style compiled ∧
        P (after (MonadExcept.ofExcept (messageSection style compiled)) _)
      cases messageSection style compiled <;> exact ⟨rfl, hnext⟩
  -- Sections are joined once all messages are compiled.
  have hlayouts : layouts config schema type style = (inSession (ids.mapM fun id => do
      let compiled ← compileMessage config schema id
      MonadExcept.ofExcept (messageSection style compiled)) >>= fun sections => pure (joined sections)) := by
    rw [layouts, hchosen]
    rfl
  rw [hlayouts, except_bind_eq_ok_iff]
  simp only [inSession_eq_ok_iff, hanswer]
  exact exists_congr fun sections => and_congr_right fun _ => ⟨fun h => (Except.ok.inj h).symm, fun h => h ▸ rfl⟩

/-- `names` joins the sections `messageNamesAlone` of the chosen messages and then `enumNames` of the chosen
enums. -/
theorem names_eq_ok_iff {type : Option String} {messageIds : List MessageId} {enumIds : List EnumId}
    (hchosen : chosenTypes schema type = .ok (messageIds, enumIds))
    (hids : ∀ id ∈ messageIds, id ∈ schema.messageIds) {text : String} :
    names config schema type style = .ok text ↔
      ∃ first second, messageIds.mapM (messageNamesAlone config schema style) = .ok first ∧
        enumIds.mapM (enumNames schema style) = .ok second ∧ text = joined (first ++ second) := by
  obtain ⟨P, hstart, hsteady⟩ := exists_steady hfiles hthreshold
  have hanswer : answer (messageIds.mapM (compileMessage config schema)) .start =
      messageIds.mapM (alone config schema) :=
    Compiler.answer_mapM (fun id hid session hsession => hsteady id (hids id hid) session hsession) hstart
  -- Messages and enums become one list of programs, which are disassembled in that order.
  have hnames : names config schema type style =
      (inSession (messageIds.mapM (compileMessage config schema)) >>= fun messages =>
        ((messages.map (fun compiled : CompiledMessage => ("message", compiled.fullName, compiled.names))
          ++ (enumIds.map (Compiler.compileEnum schema)).map fun compiled : CompiledEnum =>
            ("enum", compiled.fullName, compiled.names)).mapM fun entry =>
              namesSection style entry.1 entry.2.1 entry.2.2).mapError CommandError.program >>= fun texts =>
                pure (joined texts)) := by
    rw [names, hchosen]
    rfl
  rw [hnames, except_bind_eq_ok_iff]
  simp only [inSession_eq_ok_iff, hanswer, except_bind_eq_ok_iff, mapError_eq_ok_iff, mapM_append_eq_ok_iff,
    List.mapM_map]
  constructor
  · rintro ⟨messages, hmessages, texts, ⟨first, second, hfirst, hsecond, rfl⟩, htext⟩
    cases htext
    exact ⟨first, second, mapM_bind_eq_ok_iff.2 ⟨messages, hmessages, hfirst⟩, hsecond, rfl⟩
  · rintro ⟨first, second, hfirst, hsecond, rfl⟩
    obtain ⟨messages, hmessages, hfirst⟩ := mapM_bind_eq_ok_iff.1 hfirst
    exact ⟨messages, hmessages, _, ⟨first, second, hfirst, hsecond, rfl⟩, rfl⟩

/-- The result of `alone` is assembled from some layout and decision. -/
theorem exists_assemble_of_alone {id : MessageId} (hid : id ∈ schema.messageIds) {compiled : CompiledMessage}
    (h : alone config schema id = .ok compiled) :
    ∃ layout decision, Compiler.assemble config schema id layout decision = .ok compiled := by
  -- What is compiled alone is compiled after no calls.
  have hcalls : ∀ other, Compiler.Call.message other ∈ [] → other ∈ schema.messageIds := by simp
  obtain ⟨storage, hanswer⟩ := Compiler.exists_answer_eq_assemble hfiles hthreshold hcalls hid
  exact ⟨_, storage, hanswer.symm.trans h⟩

/-- What `alone` compiles has a section `layoutAlone`, since all its programs are read back. -/
theorem exists_layoutAlone {id : MessageId} (hid : id ∈ schema.messageIds)
    (hcompiles : ∃ compiled, alone config schema id = .ok compiled) :
    ∃ text, layoutAlone config schema style id = .ok text := by
  obtain ⟨compiled, hcompiled⟩ := hcompiles
  obtain ⟨layout, decision, hmade⟩ := exists_assemble_of_alone hfiles hthreshold hid hcompiled
  obtain ⟨programs, hencode, rfl⟩ := Compiler.assemble_eq_ok_iff.1 hmade
  have hparts : ∃ parts, (config.targets.map fun target => (target, programs.get target)).mapM
      (fun entry => targetPart style entry.1 entry.2) = .ok parts := by
    refine exists_mapM fun entry hentry => ?_
    obtain ⟨target, _, rfl⟩ := List.mem_map.1 hentry
    have hwritten := PerTarget.mapExcept_eq_ok_iff.1 hencode target
    have hread := LayoutPlan.decode_eq_ok_iff.2 ((LayoutPlan.writesExactly_encode _ _).1 hwritten)
    exact ⟨_, except_bind_eq_ok_iff.2 ⟨_, hread, rfl⟩⟩
  obtain ⟨parts, hparts⟩ := hparts
  exact ⟨_, except_bind_eq_ok_iff.2 ⟨_, hcompiled, except_bind_eq_ok_iff.2 ⟨parts, hparts, rfl⟩⟩⟩

/-- What `alone` compiles has a section `messageNamesAlone` if all names are free of zeros. -/
theorem exists_messageNamesAlone (hnames : schema.HasZeroFreeNames) {id : MessageId} (hid : id ∈ schema.messageIds)
    (hcompiles : ∃ compiled, alone config schema id = .ok compiled) :
    ∃ text, messageNamesAlone config schema style id = .ok text := by
  obtain ⟨compiled, hcompiled⟩ := hcompiles
  obtain ⟨layout, decision, hmade⟩ := exists_assemble_of_alone hfiles hthreshold hid hcompiled
  obtain ⟨programs, _, rfl⟩ := Compiler.assemble_eq_ok_iff.1 hmade
  have hread := NameTable.decode_encode (Schema.isWritable_of_mem_messageNames hfiles hnames hid)
  exact ⟨_, except_bind_eq_ok_iff.2 ⟨_, hcompiled, except_bind_eq_ok_iff.2 ⟨_, hread, rfl⟩⟩⟩

omit hthreshold in
/-- An enum has a section `enumNames` if all names of values are free of zeros. -/
theorem exists_enumNames (hnames : schema.HasZeroFreeValueNames) (hcount : schema.values.size < Program.wordLimit)
    {id : EnumId} (hid : id ∈ schema.enumIds) : ∃ text, enumNames schema style id = .ok text := by
  have hread := NameTable.decode_encode (Schema.isWritable_of_mem_enumNames hfiles hnames hcount hid)
  exact ⟨_, except_bind_eq_ok_iff.2 ⟨_, hread, rfl⟩⟩

variable (hplain : ∀ name ∈ schema.typeNames, Name.IsPlain name)

include hplain

theorem layouts_some_eq_ok_iff {id : MessageId} (hid : id ∈ schema.messageIds) {part : String} :
    layouts config schema (some (schema.message id).fullName) style = .ok part ↔
      layoutAlone config schema style id = .ok part := by
  have hchosen : chosenMessages schema (some (schema.message id).fullName) = .ok [id] := by
    rw [chosenMessages, (Schema.isIndexed_ofFiles hfiles).findMessage?_fullName hplain hid]
    rfl
  rw [layouts_eq_ok_iff hfiles hthreshold hchosen (List.forall_mem_singleton.2 hid)]
  constructor
  · rintro ⟨sections, hsections, rfl⟩
    obtain ⟨text, htext, rfl⟩ := mapM_singleton_eq_ok_iff.1 hsections
    exact htext
  · exact fun hpart => ⟨[part], mapM_singleton_eq_ok_iff.2 ⟨part, hpart, rfl⟩, rfl⟩

theorem names_some_message_eq_ok_iff {id : MessageId} (hid : id ∈ schema.messageIds) {part : String} :
    names config schema (some (schema.message id).fullName) style = .ok part ↔
      messageNamesAlone config schema style id = .ok part := by
  have hchosen : chosenTypes schema (some (schema.message id).fullName) = .ok ([id], []) := by
    rw [chosenTypes, (Schema.isIndexed_ofFiles hfiles).findMessage?_fullName hplain hid]
    rfl
  rw [names_eq_ok_iff hfiles hthreshold hchosen (List.forall_mem_singleton.2 hid)]
  constructor
  · rintro ⟨first, second, hfirst, hsecond, rfl⟩
    obtain ⟨text, htext, rfl⟩ := mapM_singleton_eq_ok_iff.1 hfirst
    cases hsecond
    exact htext
  · exact fun hpart => ⟨[part], [], mapM_singleton_eq_ok_iff.2 ⟨part, hpart, rfl⟩, rfl, rfl⟩

theorem names_some_enum_eq_ok_iff {id : EnumId} (hid : id ∈ schema.enumIds) {part : String} :
    names config schema (some (schema.enum id).fullName) style = .ok part ↔
      enumNames schema style id = .ok part := by
  obtain ⟨henum, hmessage⟩ := (Schema.isIndexed_ofFiles hfiles).findEnum?_fullName hplain hid
  have hchosen : chosenTypes schema (some (schema.enum id).fullName) = .ok ([], [id]) := by
    rw [chosenTypes, henum, hmessage]
    rfl
  rw [names_eq_ok_iff hfiles hthreshold hchosen (List.forall_mem_nil _)]
  constructor
  · rintro ⟨first, second, hfirst, hsecond, rfl⟩
    cases hfirst
    obtain ⟨text, htext, rfl⟩ := mapM_singleton_eq_ok_iff.1 hsecond
    exact htext
  · exact fun hpart => ⟨[], [part], rfl, mapM_singleton_eq_ok_iff.2 ⟨part, hpart, rfl⟩, rfl⟩

end

/-! ## Reports of all types -/

/-- `report none` is made exactly if `report (some name)` is for each of `names`, and is these joined by `"\n"`.
-/
def IsJoinedOfEach (report : Option String → Except CommandError String) (names : List String) : Prop :=
  ∀ text, report none = .ok text ↔
    ∃ parts, List.Forall₂ (fun name part => report (some name) = .ok part) names parts ∧
      text = String.intercalate "\n" parts

/-- If no message, enum or service has a name with a dot in front, `layouts` of everything joins those of each
message, and `names` those of each message and then of each enum, in the order of the schema. -/
theorem joined_of_each {building : Config} {files : List FileDecl}
    (hfiles : Schema.ofFiles building files = .ok schema) (hplain : ∀ name ∈ schema.typeNames, Name.IsPlain name)
    (hthreshold : config.costThreshold < 2 ^ 32) (style : Style) :
    IsJoinedOfEach (layouts config schema · style) (schema.messages.toList.map (·.fullName)) ∧
      IsJoinedOfEach (names config schema · style)
        (schema.messages.toList.map (·.fullName) ++ schema.enums.toList.map (·.fullName)) := by
  -- Asking one by one is a `mapM` over the names, hence one over the ids.
  simp only [IsJoinedOfEach, ← mapM_eq_ok_iff]
  rw [← Schema.messageIds_map_fullName, ← Schema.enumIds_map_fullName]
  constructor
  · intro text
    rw [layouts_eq_ok_iff hfiles hthreshold rfl fun id hid => hid]
    refine exists_congr fun sections => and_congr_left fun _ => ?_
    rw [List.mapM_map]
    exact mapM_eq_ok_iff_of_forall fun id hid part => (layouts_some_eq_ok_iff hfiles hthreshold hplain hid).symm
  · intro text
    rw [names_eq_ok_iff hfiles hthreshold rfl fun id hid => hid]
    have hmessages (first : List String) :
        schema.messageIds.mapM (messageNamesAlone config schema style) = .ok first ↔
          schema.messageIds.mapM (fun id => names config schema (some (schema.message id).fullName) style) =
            .ok first :=
      mapM_eq_ok_iff_of_forall fun id hid part => (names_some_message_eq_ok_iff hfiles hthreshold hplain hid).symm
    have henums (second : List String) : schema.enumIds.mapM (enumNames schema style) = .ok second ↔
        schema.enumIds.mapM (fun id => names config schema (some (schema.enum id).fullName) style) = .ok second :=
      mapM_eq_ok_iff_of_forall fun id hid part => (names_some_enum_eq_ok_iff hfiles hthreshold hplain hid).symm
    simp only [mapM_append_eq_ok_iff, List.mapM_map, hmessages, henums]
    constructor
    · rintro ⟨first, second, hfirst, hsecond, rfl⟩
      exact ⟨_, ⟨first, second, hfirst, hsecond, rfl⟩, rfl⟩
    · rintro ⟨_, ⟨first, second, hfirst, hsecond, rfl⟩, rfl⟩
      exact ⟨first, second, hfirst, hsecond, rfl⟩

/-- `IsJoinedOfEach` for the garden, in colour and with the programs spelt out. -/
theorem joined_of_each_garden :
    let style : Style := ⟨.of true, true⟩
    ∃ schema, Schema.ofFiles {} [Schema.gardenFile] = .ok schema ∧
      (∀ name ∈ schema.typeNames, Name.IsPlain name) ∧ ({} : Config).costThreshold < 2 ^ 32 ∧
      (∃ parts, layouts {} schema none style = .ok (String.intercalate "\n" parts) ∧
        List.Forall₂ (fun name part => layouts {} schema (some name) style = .ok part)
          ["garden.Bed", "garden.Bed.Row"] parts) ∧
      ∃ parts, names {} schema none style = .ok (String.intercalate "\n" parts) ∧
        List.Forall₂ (fun name part => names {} schema (some name) style = .ok part)
          ["garden.Bed", "garden.Bed.Row", "garden.Bed.Row.State", "garden.Bed.Row_State"] parts := by
  intro style
  obtain ⟨schema, hschema⟩ := Schema.exists_ofFiles_garden
  have hmessages := Schema.messages_of_ofFiles (Schema.ofTable_proto2 rfl) hschema
  have henums := Schema.enums_of_ofFiles (Schema.ofTable_proto2 rfl) hschema
  have hservices := Schema.services_of_ofFiles (Schema.ofTable_proto2 rfl) hschema
  have hplain : ∀ name ∈ schema.typeNames, Name.IsPlain name := by
    rw [Schema.typeNames, hmessages, henums, hservices]
    decide
  have hthreshold : ({} : Config).costThreshold < 2 ^ 32 := by decide
  have hsound := Schema.isSound_ofFiles hschema
  obtain ⟨decisions, hrule, _⟩ := Storage.existsUnique_followsRule hsound ({} : Config).costThreshold
  have hids : schema.messageIds = [⟨0⟩, ⟨1⟩] := by
    rw [Schema.messageIds, hmessages]
    decide
  -- Both messages are small, so they compile.
  have hcompiles : ∀ id ∈ schema.messageIds, ∃ compiled, alone {} schema id = .ok compiled := by
    intro id hid
    have hsmall : (schema.fieldsOf id).length ≤ 1900 ∧ (schema.message id).realOneofs.length ≤ 1900 := by
      rw [Schema.fieldsOf, List.length_map, Schema.message, hmessages]
      rw [hids] at hid
      revert id
      decide
    exact (Compiler.exists_alone_eq_ok_iff hsound (by decide) hrule hid).2
      (Schema.fits_layout hschema hsmall.1 hsmall.2)
  have hnames : schema.HasZeroFreeNames :=
    Schema.hasZeroFreeNames_of_ofFiles (Schema.ofTable_proto2 rfl) hschema (by decide) (by decide)
  have hvalueNames : schema.HasZeroFreeValueNames := by
    refine ⟨fun value hvalue => ?_, fun enum henum => ?_⟩
    · rw [Schema.values_of_ofFiles (Schema.ofTable_proto2 rfl) hschema, List.mem_toArray] at hvalue
      revert value
      decide
    · rw [henums, List.mem_toArray] at henum
      revert enum
      decide
  have hcount : schema.values.size < Program.wordLimit := by
    rw [Schema.values_of_ofFiles (Schema.ofTable_proto2 rfl) hschema]
    decide
  -- Everything that is listed has a section.
  obtain ⟨sections, hsections⟩ : ∃ sections, schema.messageIds.mapM (layoutAlone {} schema style) = .ok sections :=
    exists_mapM fun id hid => exists_layoutAlone hschema hthreshold hid (hcompiles id hid)
  obtain ⟨first, hfirst⟩ : ∃ first, schema.messageIds.mapM (messageNamesAlone {} schema style) = .ok first :=
    exists_mapM fun id hid => exists_messageNamesAlone hschema hthreshold hnames hid (hcompiles id hid)
  obtain ⟨second, hsecond⟩ : ∃ second, schema.enumIds.mapM (enumNames schema style) = .ok second :=
    exists_mapM fun id hid => exists_enumNames hschema hvalueNames hcount hid
  have hlayouts : layouts {} schema none style = .ok (joined sections) :=
    (layouts_eq_ok_iff hschema hthreshold rfl fun id hid => hid).2 ⟨sections, hsections, rfl⟩
  have hall : names {} schema none style = .ok (joined (first ++ second)) :=
    (names_eq_ok_iff hschema hthreshold rfl fun id hid => hid).2 ⟨first, second, hfirst, hsecond, rfl⟩
  obtain ⟨heachLayout, heachNames⟩ := joined_of_each hschema hplain hthreshold style
  obtain ⟨parts, hparts, htext⟩ := (heachLayout _).1 hlayouts
  obtain ⟨nameParts, hnameParts, hnameText⟩ := (heachNames _).1 hall
  rw [hmessages] at hparts
  rw [hmessages, henums] at hnameParts
  exact ⟨schema, hschema, hplain, hthreshold, ⟨parts, htext ▸ hlayouts, hparts⟩,
    nameParts, hnameText ▸ hall, hnameParts⟩

end Report

end SchemaLayout
