import SchemaLayout.Proofs.Compiler.Session
import SchemaLayout.Proofs.Layout.Bounds
import SchemaLayout.Proofs.Layout.Lookup
import SchemaLayout.Proofs.Schema.References

/-!
# Programs describe the fields of a message

What is read from a layout program of a compiled message is the plan it was written from, and this plan has a
record for each field of the message and no other one: with the number and the type of the field, in ascending
order of number, and found by its number (`Describes`). So neither the order of storage, in which the fields were
placed, nor the way through a program drops, doubles or mixes up a field (`compileMessage_describes`).
-/

namespace SchemaLayout

/-! ## Fields -/

namespace FieldNode

/-- A field has a `messageType?` exactly if its type is `.message` or `.group`. -/
theorem TargetFits.isSome_messageType?_iff {field : FieldNode} (h : field.TargetFits) :
    field.messageType?.isSome = true ↔ field.type = .message ∨ field.type = .group := by
  unfold TargetFits at h
  cases htype : field.type <;> rw [htype] at h <;> unfold messageType?
  case message | group =>
    obtain ⟨id, hid⟩ := h
    simp [hid]
  case enum =>
    obtain ⟨id, hid⟩ := h
    simp [hid]
  all_goals
    simp only at h
    simp [h]

/-- A field with `isPacked` has cardinality `.array` and a packable type. -/
theorem cardinality_of_isPacked {field : FieldNode} (hmap : field.isMap = true → field.type = .message)
    (h : field.isPacked = true) : field.cardinality = .array ∧ field.type.isPackable = true := by
  unfold isPacked isPackable at h
  simp only [Bool.and_eq_true] at h
  obtain ⟨⟨hrepeated, hpackable⟩, _⟩ := h
  refine ⟨?_, hpackable⟩
  have hsingle : field.isMap = false := by
    by_contra hmapped
    rw [hmap (Bool.eq_true_of_not_eq_false hmapped)] at hpackable
    exact absurd hpackable (by decide)
  unfold cardinality
  rw [hsingle, hrepeated]
  rfl

end FieldNode

/-! ## Records -/

namespace Placement

/-- `found` is a `record` of `shape`, at some offset and with some presence. -/
def IsRecordOf (table : SubmessageTable) (shape : FieldShape) (found : FieldRecord) : Prop :=
  ∃ offset presence, found = record table shape offset presence

/-- The records of a `plan` are those of the `shapes`, one by one. -/
theorem forall₂_records (shapes : List FieldShape) (table : SubmessageTable) (target : Target) :
    List.Forall₂ (IsRecordOf table) shapes (plan shapes table target).records := by
  rw [plan_records]
  have hplaced : List.Forall₂ (IsRecordOf table) ((placements shapes target).map (·.1.1))
      ((placements shapes target).map fun entry => record table entry.1.1 entry.1.2 entry.2) := by
    rw [List.forall₂_map_left_iff, List.forall₂_map_right_iff, List.forall₂_same]
    intro entry _
    exact ⟨entry.1.2, entry.2, rfl⟩
  rwa [placements_map_shape] at hplaced

end Placement

/-- Number, type and mode of the record are those of `field`. -/
structure FieldRecord.IsOf (field : FieldNode) (record : FieldRecord) : Prop where
  number : (record.number : Int) = field.number.toInt
  type : record.type = field.type
  mode : record.mode = field.mode

namespace Schema

/-- The records of `plan` are those of the fields of `id`, in ascending order, with modes and submessages as
their types admit, and `find?` finds each by its number. -/
structure Describes (schema : Schema) (id : MessageId) (plan : LayoutPlan) : Prop where
  /-- There is a record for each field and no other one. -/
  fields : ∃ fields, fields.Perm (schema.fieldsOf id) ∧ List.Forall₂ FieldRecord.IsOf fields plan.records
  ascending : plan.IsAscending
  /-- Values are written in one run only where there can be many and their type admits it. -/
  packed : ∀ record ∈ plan.records, record.mode.isPacked = true →
    record.mode.cardinality = .array ∧ record.type.isPackable = true
  /-- Messages and groups, and only they, have a submessage. -/
  submessage : ∀ record ∈ plan.records, record.submessage ≠ 0 ↔ record.type = .message ∨ record.type = .group
  find : ∀ number record, plan.find? number = some record ↔ record ∈ plan.records ∧ record.number = number
  /-- Something is found exactly for the numbers of fields. -/
  declared : ∀ number : Nat, (plan.find? number).isSome = true ↔
    ∃ field ∈ schema.fieldsOf id, field.number.toInt = number

/-- The shape of a field, from an empty memo. -/
def shapeOf (schema : Schema) (id : MessageId) (field : FieldNode) : FieldShape :=
  ((schema.shape (schema.message id).realOneofs field).run ∅).1

theorem get_layout (schema : Schema) (id : MessageId) (target : Target) :
    let shapes := (schema.fieldsByNumber id).map (schema.shapeOf id)
    ((schema.layout id).run ∅).1.plans.get target =
      Placement.plan shapes (Placement.submessages shapes) target := by
  intro shapes
  rw [run_layout]
  exact PerTarget.get_ofTarget _ target

section

variable {building : Config} {files : List FileDecl} {schema : Schema}
  (hfiles : ofFiles building files = .ok schema) {id : MessageId}

include hfiles

/-- A record of `shapeOf id field` is a record of `field`. -/
theorem isOf_of_isRecordOf {table : SubmessageTable} {field : FieldNode} {record : FieldRecord}
    (hfield : field ∈ schema.fieldsOf id) (h : Placement.IsRecordOf table (schema.shapeOf id field) record) :
    record.IsOf field := by
  obtain ⟨offset, presence, rfl⟩ := h
  have hnumber := toNat_toUInt32_of_isFieldNumber (isFieldNumber_of_mem_fieldsOf hfiles hfield)
  exact ⟨hnumber, rfl, rfl⟩

theorem isSome_submessage_iff {field : FieldNode} (hfield : field ∈ schema.fieldsOf id) :
    (schema.shapeOf id field).submessage.isSome = true ↔ field.type = .message ∨ field.type = .group := by
  have hmem := (isSound_ofFiles hfiles).mem_fields_of_mem_fieldsOf hfield
  have hfits := ((isLinked_ofFiles hfiles).fields field hmem).fits
  have hshape : (schema.shapeOf id field).submessage = ((schema.submessageRef field).run ∅).1 := rfl
  rw [hshape, run_submessageRef, Option.isSome_map, hfits.isSome_messageType?_iff]

/-- Records of `fieldsByNumber` are in ascending order of number. -/
theorem isAscending_of_forall₂ (hid : id ∈ schema.messageIds) {plan : LayoutPlan}
    (h : List.Forall₂ FieldRecord.IsOf (schema.fieldsByNumber id) plan.records) : plan.IsAscending := by
  have hnumbers : (plan.records.map (·.number)).map (fun number : Nat => (number : Int)) =
      (schema.fieldsByNumber id).map (·.number.toInt) := by
    rw [List.map_map]
    exact map_eq_of_forall₂ _ _ h fun _ _ _ hisOf => hisOf.number
  exact List.pairwise_map.1 (pairwise_lt_of_map_eq hfiles hid hnumbers)

/-- `layout` satisfies `Describes` on every target. -/
theorem describes_layout (hid : id ∈ schema.messageIds) (target : Target) :
    schema.Describes id (((schema.layout id).run ∅).1.plans.get target) := by
  rw [get_layout]
  have hperm := (isSound_ofFiles hfiles).fieldsByNumber_perm id
  have hmade := Placement.forall₂_records ((schema.fieldsByNumber id).map (schema.shapeOf id))
    (Placement.submessages ((schema.fieldsByNumber id).map (schema.shapeOf id))) target
  generalize hplan : Placement.plan _ _ target = plan at hmade ⊢
  rw [List.forall₂_map_left_iff] at hmade
  -- Fields and records go together one by one, so each is told from the other.
  have hrecords : List.Forall₂ FieldRecord.IsOf (schema.fieldsByNumber id) plan.records := by
    have hboth := (List.forall₂_and_left _ _).2 ⟨fun _ hfield => hperm.subset hfield, hmade⟩
    exact hboth.imp fun field record h => isOf_of_isRecordOf hfiles h.1 h.2
  have hascending := isAscending_of_forall₂ hfiles hid hrecords
  constructor
  case fields => exact ⟨schema.fieldsByNumber id, hperm, hrecords⟩
  case ascending => exact hascending
  case packed =>
    intro record hrecord hpacked
    obtain ⟨field, hfield, hisOf⟩ := exists_of_mem_right hrecords hrecord
    rw [hisOf.mode] at hpacked ⊢
    rw [hisOf.type]
    exact FieldNode.cardinality_of_isPacked (type_eq_message_of_isMap hfiles (hperm.subset hfield)) hpacked
  case submessage =>
    intro record hrecord
    obtain ⟨field, hfield, offset, presence, rfl⟩ := exists_of_mem_right hmade hrecord
    show Placement.submessageIndex _ (schema.shapeOf id field) ≠ 0 ↔ _
    rw [Placement.submessageIndex_ne_zero_iff (List.mem_map_of_mem hfield)]
    exact isSome_submessage_iff hfiles (hperm.subset hfield)
  case find => exact fun number record => LayoutPlan.find?_eq_some_iff hascending
  case declared =>
    intro number
    rw [LayoutPlan.isSome_find?_iff hascending]
    constructor
    · intro hfound
      obtain ⟨record, hrecord, rfl⟩ := hfound
      obtain ⟨field, hfield, hisOf⟩ := exists_of_mem_right hrecords hrecord
      exact ⟨field, hperm.subset hfield, hisOf.number.symm⟩
    · intro hdeclared
      obtain ⟨field, hfield, hnumber⟩ := hdeclared
      have hfields : List.Forall₂ (fun record field => FieldRecord.IsOf field record) plan.records
          (schema.fieldsByNumber id) := List.Forall₂.flip hrecords
      obtain ⟨record, hrecord, hisOf⟩ := exists_of_mem_right hfields (hperm.mem_iff.2 hfield)
      have hsame : (record.number : Int) = number := hisOf.number.trans hnumber
      exact ⟨record, hrecord, Int.ofNat_inj.1 hsame⟩

theorem number_shapeOf_lt {field : FieldNode} (hfield : field ∈ schema.fieldsOf id) :
    (schema.shapeOf id field).number < FieldRecord.numberLimit := by
  have hnumber := isFieldNumber_of_mem_fieldsOf hfiles hfield
  have hsame := toNat_toUInt32_of_isFieldNumber hnumber
  rw [isFieldNumber, Bool.and_eq_true, Bool.and_eq_true] at hnumber
  have hle : field.number.toInt ≤ 0x1FFFFFFF := of_decide_eq_true hnumber.1.2
  show field.number.toUInt32.toNat < 0x20000000
  omega

/-- `layout` satisfies `Fits` for at most 1900 fields and 1900 `realOneofs`. -/
theorem fits_layout (hcount : (schema.fieldsOf id).length ≤ 1900)
    (honeofs : (schema.message id).realOneofs.length ≤ 1900) (target : Target) :
    (((schema.layout id).run ∅).1.plans.get target).Fits := by
  rw [get_layout]
  have hperm := (isSound_ofFiles hfiles).fieldsByNumber_perm id
  apply Placement.IsOrdinary.fits_plan
  constructor
  case fields =>
    rw [List.length_map, hperm.length_eq]
    exact hcount
  case slots =>
    refine Nat.le_trans (Placement.slotCount_le fun shape hshape index hindex => ?_) honeofs
    obtain ⟨field, _, rfl⟩ := List.mem_map.1 hshape
    have hisOf : (schema.shapeOf id field).IsOf (schema.message id).realOneofs field :=
      ⟨rfl, rfl, rfl, rfl⟩
    exact hisOf.oneofIndex_lt hindex
  case numbers =>
    intro shape hshape
    obtain ⟨field, hfield, rfl⟩ := List.mem_map.1 hshape
    exact number_shapeOf_lt hfiles (hperm.subset hfield)

end

end Schema

/-! ## Compiled messages -/

namespace Compiler

open Schema (ofFiles)

variable {building config : Config} {files : List FileDecl} {schema : Schema} {id : MessageId}

/-- What `compileMessage` answers, after any `calls`, has one program for each of `config.targets`.
`LayoutPlan.decode` reads the plan of the message from it, and the plan satisfies `Describes`. -/
theorem compileMessage_describes (hfiles : ofFiles building files = .ok schema)
    (hthreshold : config.costThreshold < 2 ^ 32) {calls : List Call}
    (hcalls : ∀ other, .message other ∈ calls → other ∈ schema.messageIds) (hid : id ∈ schema.messageIds)
    {compiled : CompiledMessage}
    (hcompiled : answer (compileMessage config schema id) (afterCalls config schema calls) = .ok compiled) :
    compiled.programs.map (·.1) = config.targets ∧
      ∀ target program, (target, program) ∈ compiled.programs →
        LayoutPlan.decode program = .ok (compiled.layout.plans.get target) ∧
          schema.Describes id (compiled.layout.plans.get target) := by
  obtain ⟨storage, hanswer⟩ := exists_answer_eq_assemble hfiles hthreshold hcalls hid
  rw [hanswer, assemble_eq_ok_iff] at hcompiled
  obtain ⟨programs, hencode, rfl⟩ := hcompiled
  refine ⟨map_fst_programs_assembled, fun target program hprogram =>
    ⟨?_, Schema.describes_layout hfiles hid target⟩⟩
  obtain ⟨chosen, _, hchosen⟩ := List.mem_map.1 hprogram
  cases hchosen
  have hwritten := PerTarget.mapExcept_eq_ok_iff.1 hencode target
  exact LayoutPlan.decode_eq_ok_iff.2 ((LayoutPlan.writesExactly_encode _ _).1 hwritten)

/-- The programs of a line, written by a session that was asked for `.all` and for a path before. -/
theorem compileMessage_describes_line :
    ∃ schema, ofFiles {} [Schema.pathFile] = .ok schema ∧
      ∃ compiled, answer (compileMessage {} schema ⟨1⟩) (afterCalls {} schema [.all, .message ⟨2⟩]) = .ok compiled ∧
        compiled.programs.map (·.1) = [.bits64, .bits32] ∧
        ∀ target program, (target, program) ∈ compiled.programs →
          LayoutPlan.decode program = .ok (compiled.layout.plans.get target) ∧
            schema.Describes ⟨1⟩ (compiled.layout.plans.get target) := by
  obtain ⟨schema, hschema⟩ := Schema.exists_ofFiles_path
  have hmessages := Schema.messages_of_ofFiles (Schema.ofTable_proto2 rfl) hschema
  have hids : schema.messageIds = [⟨0⟩, ⟨1⟩, ⟨2⟩] := by
    rw [Schema.messageIds, hmessages]
    decide
  have hid : ⟨1⟩ ∈ schema.messageIds := by
    rw [hids]
    decide
  have hcalls : ∀ other, Call.message other ∈ [.all, .message ⟨2⟩] → other ∈ schema.messageIds := by
    intro other hother
    obtain rfl : other = ⟨2⟩ := by simpa using hother
    rw [hids]
    decide
  have hsound := Schema.isSound_ofFiles hschema
  have hthreshold : ({} : Config).costThreshold < 2 ^ 32 := by decide
  obtain ⟨decisions, hrule, _⟩ := Storage.existsUnique_followsRule hsound ({} : Config).costThreshold
  have hcount : (schema.fieldsOf ⟨1⟩).length ≤ 1900 := by
    rw [Schema.fieldsOf, List.length_map, Schema.message, hmessages]
    decide
  have honeofs : (schema.message ⟨1⟩).realOneofs.length ≤ 1900 := by
    rw [Schema.message, hmessages]
    decide
  obtain ⟨compiled, hcompiled⟩ := (exists_alone_eq_ok_iff hsound (by decide) hrule hid).2
    (Schema.fits_layout hschema hcount honeofs)
  have hremembers := remembers_afterCalls hsound (by decide) hrule hcalls
  rw [← (compileMessage_spec hsound (by decide) hrule hremembers hid).1] at hcompiled
  exact ⟨schema, hschema, compiled, hcompiled,
    compileMessage_describes hschema hthreshold hcalls hid hcompiled⟩

end Compiler

end SchemaLayout
