import SchemaLayout.Layout.OfMessage
import SchemaLayout.Proofs.Data.State
import SchemaLayout.Proofs.Layout.Presence
import SchemaLayout.Proofs.Schema.Members
import SchemaLayout.Proofs.Schema.SingleFile

/-!
# How fields are tracked

The records of a message's layout say of each of its fields how its being set is tracked
(`TracksPresence`): the members of a written oneof by the slot of the oneof, every other field with
presence by a has-bit of its own, and all others not at all. This takes together what registration makes
sure of, that field numbers are unique and that written oneofs come first, with how placement hands out
has-bits and slots.
-/

namespace SchemaLayout

/-- `findIdx?` finds the place of an element in a list without repetition. -/
theorem findIdx?_eq_some_iff_of_nodup {α : Type} [DecidableEq α] {list : List α} (h : list.Nodup)
    {a : α} {place : Nat} : list.findIdx? (· = a) = some place ↔ list[place]? = some a := by
  rw [List.findIdx?_eq_some_iff_getElem, List.getElem?_eq_some_iff]
  constructor
  · intro hfound
    obtain ⟨hplace, ha, _⟩ := hfound
    exact ⟨hplace, of_decide_eq_true ha⟩
  · intro hget
    obtain ⟨hplace, ha⟩ := hget
    refine ⟨hplace, decide_eq_true ha, fun before hbefore hsame => ?_⟩
    have hindex := (h.getElem_inj_iff).1 ((of_decide_eq_true hsame).trans ha.symm)
    omega

/-- A field number is the same as an unsigned word. -/
theorem toNat_toUInt32_of_isFieldNumber {number : Int32} (h : isFieldNumber number = true) :
    (number.toUInt32.toNat : Int) = number.toInt := by
  have hpositive : 1 ≤ number.toInt := by
    simp only [isFieldNumber, Bool.and_eq_true, decide_eq_true_eq] at h
    exact h.1.1
  have hcases := BitVec.toInt_eq_toNat_cond number.toBitVec
  rw [Int32.toInt] at hpositive ⊢
  rw [show number.toUInt32.toNat = number.toBitVec.toNat from rfl]
  split at hcases <;> omega

/-! ## Shapes of fields -/

/-- `shape` is that of `field` in a message with these `oneofs`, as far as tracking depends on it. -/
structure FieldShape.IsOf (oneofs : List OneofId) (field : FieldNode) (shape : FieldShape) :
    Prop where
  number : shape.number = field.number.toUInt32.toNat
  isRequired : shape.isRequired = field.isRequired
  hasPresence : shape.hasPresence = field.hasPresence
  oneofIndex : shape.oneofIndex = field.realOneof.bind fun oneof => oneofs.findIdx? (· = oneof)

/-- `shapes` are those of `fieldsByNumber`, from any memo. -/
theorem Schema.isOf_shapes (schema : Schema) (id : MessageId) (memo : Initialization.Memo) :
    List.Forall₂ (FieldShape.IsOf (schema.message id).realOneofs) (schema.fieldsByNumber id)
      ((schema.shapes id).run memo).1 :=
  forall₂_run_mapM (fun _ _ _ => ⟨rfl, rfl, rfl, rfl⟩) memo

/-- The plan for `target` is `Placement.plan` of `shapes`, from any memo. -/
theorem Schema.get_run_layout (schema : Schema) (id : MessageId) (memo : Initialization.Memo)
    (target : Target) : ((schema.layout id).run memo).1.plans.get target =
      Placement.plan ((schema.shapes id).run memo).1
        (Placement.submessages ((schema.shapes id).run memo).1) target :=
  PerTarget.get_ofTarget _ target

namespace FieldShape.IsOf

theorem oneofIndex_lt {oneofs : List OneofId} {field : FieldNode} {shape : FieldShape}
    (h : shape.IsOf oneofs field) {index : Nat} (hindex : shape.oneofIndex = some index) : index < oneofs.length := by
  rw [h.oneofIndex, Option.bind_eq_some_iff] at hindex
  obtain ⟨oneof, _, hfound⟩ := hindex
  exact (List.findIdx?_eq_some_iff_getElem.1 hfound).1

variable {config : Config} {files : List FileDecl} {schema : Schema}
  (hfiles : Schema.ofFiles config files = .ok schema) {id : MessageId} {field : FieldNode}
  (hfield : field ∈ schema.fieldsOf id) {shape : FieldShape}
  (h : shape.IsOf (schema.message id).realOneofs field)

include hfiles hfield h

/-- `oneofIndex` is the place of `realOneof?` among `realOneofs`. -/
theorem oneofIndex_eq : shape.oneofIndex =
    (schema.realOneof? field).bind fun oneof => (schema.message id).realOneofs.findIdx? (· = oneof) := by
  rw [h.oneofIndex, (Schema.isSound_ofFiles hfiles).realOneof_of_mem_fieldsOf hfield]

/-- When `oneofIndex` is `place`. -/
theorem oneofIndex_eq_some_iff {place : Nat} : shape.oneofIndex = some place ↔
    ∃ oneof, schema.realOneof? field = some oneof ∧
      (schema.message id).realOneofs[place]? = some oneof := by
  have hnodup : (schema.message id).realOneofs.Nodup :=
    (Schema.nodup_oneofs hfiles (Schema.mem_messageIds_of_mem_fieldsOf hfield)).sublist
      (List.take_sublist _ _)
  rw [h.oneofIndex_eq hfiles hfield, Option.bind_eq_some_iff]
  exact exists_congr fun oneof => and_congr_right fun _ =>
    findIdx?_eq_some_iff_of_nodup hnodup

theorem exists_oneofIndex {oneof : OneofId} (honeof : schema.realOneof? field = some oneof) :
    ∃ place, shape.oneofIndex = some place ∧
      (schema.message id).realOneofs[place]? = some oneof := by
  obtain ⟨place, hplace⟩ := List.mem_iff_getElem?.1
    (Schema.mem_realOneofs_of_mem_fieldsOf hfiles hfield honeof)
  exact ⟨place, (h.oneofIndex_eq_some_iff hfiles hfield).2 ⟨oneof, honeof, hplace⟩, hplace⟩

theorem oneofIndex_eq_none_iff : shape.oneofIndex = none ↔ schema.realOneof? field = none := by
  constructor
  · intro hnone
    rw [Option.eq_none_iff_forall_ne_some]
    intro oneof honeof
    obtain ⟨place, hplace, _⟩ := h.exists_oneofIndex hfiles hfield honeof
    rw [hnone] at hplace
    cases hplace
  · intro hnone
    rw [h.oneofIndex_eq hfiles hfield, hnone, Option.bind_none]

/-- `isTracked` holds of fields with presence outside of real oneofs. -/
theorem isTracked_iff : shape.isTracked = true ↔
    field.hasPresence = true ∧ schema.realOneof? field = none := by
  rw [isTracked, Bool.and_eq_true, Option.isNone_iff_eq_none, h.hasPresence,
    h.oneofIndex_eq_none_iff hfiles hfield]

theorem ownsRequiredBit_iff : shape.ownsRequiredBit = true ↔
    (field.hasPresence = true ∧ schema.realOneof? field = none) ∧ field.isRequired = true := by
  rw [ownsRequiredBit, Bool.and_eq_true, h.isTracked_iff hfiles hfield, h.isRequired]

theorem ownsOtherBit_iff : shape.ownsOtherBit = true ↔
    (field.hasPresence = true ∧ schema.realOneof? field = none) ∧ field.isRequired = false := by
  rw [ownsOtherBit, Bool.and_eq_true, h.isTracked_iff hfiles hfield, h.isRequired,
    Bool.not_eq_true']

end FieldShape.IsOf

/-! ## Records of fields -/

namespace Schema

/-- The fields of a message in ascending order of number, with their records in `plan`. -/
def tracked (schema : Schema) (id : MessageId) (plan : LayoutPlan) : List (FieldNode × FieldRecord) :=
  (schema.fieldsByNumber id).zip plan.records

/-- The oneofs of a message that are not synthetic. -/
def writtenOneofs (schema : Schema) (id : MessageId) : List OneofId :=
  (schema.message id).oneofs.filter fun oneof => !(schema.oneof oneof).isSynthetic

/-- Members of real oneofs are tracked by the slots of these, other fields with presence by has-bits, those of
required fields first, and no other fields are tracked. -/
structure TracksPresence (schema : Schema) (id : MessageId) (plan : LayoutPlan) : Prop where
  /-- There is a record for each field and no other one. -/
  fields : ((schema.tracked id plan).map (·.1)).Perm (schema.fieldsOf id)
  records : (schema.tracked id plan).map (·.2) = plan.records
  numbers : ∀ entry ∈ schema.tracked id plan, (entry.2.number : Int) = entry.1.number.toInt
  /-- Members of written oneofs, and only they, are tracked by a slot. -/
  slot : ∀ entry ∈ schema.tracked id plan,
    (∃ offset, entry.2.presence = .oneofSlot offset) ↔ (schema.realOneof? entry.1).isSome = true
  /-- Fields with presence outside of written oneofs, and only they, are tracked by a has-bit. -/
  hasBit : ∀ entry ∈ schema.tracked id plan,
    (∃ bit, entry.2.presence = .hasBit bit) ↔
      entry.1.hasPresence = true ∧ schema.realOneof? entry.1 = none
  /-- Each number below that of tracked fields is the has-bit of one field. -/
  bits : (plan.records.filterMap (·.presence.bit?)).Perm (List.range plan.explicitCount)
  /-- The has-bits of required fields are below all others. -/
  requiredFirst : ∀ required ∈ schema.tracked id plan, ∀ other ∈ schema.tracked id plan,
    required.1.isRequired = true → other.1.isRequired = false →
      ∀ bit, required.2.presence = .hasBit bit → ∀ next, other.2.presence = .hasBit next → bit < next
  /-- Has-bits ascend with the numbers of the required fields, and with those of the others. -/
  ascending : ∀ first ∈ schema.tracked id plan, ∀ second ∈ schema.tracked id plan,
    first.1.isRequired = second.1.isRequired →
      ∀ bit, first.2.presence = .hasBit bit → ∀ next, second.2.presence = .hasBit next →
        (bit < next ↔ first.1.number < second.1.number)
  oneofs : (schema.writtenOneofs id).Nodup
  /-- Two fields have the same slot if they are of the same oneof, and only then. -/
  sameSlot : ∀ first ∈ schema.tracked id plan, ∀ second ∈ schema.tracked id plan,
    ∀ offset, first.2.presence = .oneofSlot offset → ∀ next, second.2.presence = .oneofSlot next →
      (offset = next ↔ schema.realOneof? first.1 = schema.realOneof? second.1)
  /-- The written oneofs have slots one behind the other, from behind the has-bits on. -/
  slotOffset : ∀ entry ∈ schema.tracked id plan, ∀ oneof, schema.realOneof? entry.1 = some oneof →
    ∃ place, (schema.writtenOneofs id)[place]? = some oneof ∧
      entry.2.presence = .oneofSlot (alignUp 4 (((schema.fieldsOf id).length + 7) / 8) + 4 * place)

/-! ## Where records come from -/

/-- `entry` is a field with its record, made from `shape` at `place`. -/
structure IsTrackedAt (schema : Schema) (id : MessageId) (shapes : List FieldShape)
    (entry : FieldNode × FieldRecord) (shape : FieldShape) (place : Nat) : Prop where
  getField : (schema.fieldsByNumber id)[place]? = some entry.1
  getShape : shapes[place]? = some shape
  isOf : shape.IsOf (schema.message id).realOneofs entry.1
  number : entry.2.number = shape.number
  presence : entry.2.presence = Placement.presenceIn shapes place shape

section

variable {config : Config} {files : List FileDecl} {schema : Schema} {id : MessageId}
  {shapes : List FieldShape} {entry : FieldNode × FieldRecord} {shape : FieldShape} {place bit : Nat}

/-- Every entry of `tracked` satisfies `IsTrackedAt` for some shape. -/
theorem exists_isTrackedAt (hshapes : List.Forall₂
      (FieldShape.IsOf (schema.message id).realOneofs) (schema.fieldsByNumber id) shapes)
    {table : SubmessageTable} {target : Target}
    (hentry : entry ∈ schema.tracked id (Placement.plan shapes table target)) :
    ∃ shape place, schema.IsTrackedAt id shapes entry shape place := by
  obtain ⟨place, hplace⟩ := List.mem_iff_getElem?.1 hentry
  obtain ⟨hfield, hrecord⟩ := List.getElem?_zip_eq_some.1 hplace
  obtain ⟨shape, hshape, hnumber, hpresence⟩ :=
    Placement.exists_shape_of_record shapes table target hrecord
  refine ⟨shape, place, hfield, hshape, ?_, hnumber, hpresence⟩
  obtain ⟨hindex, hget⟩ := List.getElem?_eq_some_iff.1 hfield
  obtain ⟨hplace, hgetShape⟩ := List.getElem?_eq_some_iff.1 hshape
  have hisOf := hshapes.get hindex hplace
  rwa [List.get_eq_getElem, List.get_eq_getElem, hget, hgetShape] at hisOf

namespace IsTrackedAt

variable (h : schema.IsTrackedAt id shapes entry shape place)

include h

/-- The slot of an entry, by the `oneofIndex` of its shape. -/
theorem oneofSlot_iff {offset : Nat} : entry.2.presence = .oneofSlot offset ↔
    ∃ index, shape.oneofIndex = some index ∧
      offset = Placement.slotStart shapes + Placement.slotBytes * index := by
  rw [h.presence, Placement.presenceIn, Placement.presenceAt_eq_oneofSlot_iff]

/-- The has-bit of an entry, by the bits that the shapes before it own. -/
theorem hasBit_iff : entry.2.presence = .hasBit bit ↔
    shape.ownsRequiredBit = true ∧ bit = (shapes.take place).countP (·.ownsRequiredBit) ∨
      shape.ownsOtherBit = true ∧ bit = shapes.countP (·.ownsRequiredBit) +
        (shapes.take place).countP (·.ownsOtherBit) := by
  rw [h.presence, Placement.presenceIn, Placement.presenceAt_eq_hasBit_iff]

/-- The has-bit of a required field is the number of required bits before it. -/
theorem requiredBit (hbit : entry.2.presence = .hasBit bit) (hrequired : entry.1.isRequired = true) :
    shape.ownsRequiredBit = true ∧ bit = (shapes.take place).countP (·.ownsRequiredBit) := by
  rcases h.hasBit_iff.1 hbit with howner | ⟨hother, _⟩
  · exact howner
  · rw [FieldShape.ownsOtherBit, h.isOf.isRequired, hrequired] at hother
    simp at hother

/-- The has-bit of any other field is behind all required bits. -/
theorem otherBit (hbit : entry.2.presence = .hasBit bit) (hrequired : entry.1.isRequired = false) :
    shape.ownsOtherBit = true ∧ bit = shapes.countP (·.ownsRequiredBit) +
      (shapes.take place).countP (·.ownsOtherBit) := by
  rcases h.hasBit_iff.1 hbit with ⟨howner, _⟩ | hother
  · rw [FieldShape.ownsRequiredBit, h.isOf.isRequired, hrequired] at howner
    simp at howner
  · exact hother

theorem mem_fieldsOf (hfiles : ofFiles config files = .ok schema) :
    entry.1 ∈ schema.fieldsOf id :=
  ((isSound_ofFiles hfiles).fieldsByNumber_perm id).subset (List.mem_of_getElem? h.getField)

theorem place_lt_iff (hfiles : ofFiles config files = .ok schema)
    {second : FieldNode × FieldRecord} {next : FieldShape} {later : Nat}
    (hsecond : schema.IsTrackedAt id shapes second next later) :
    place < later ↔ entry.1.number < second.1.number := by
  have hid := mem_messageIds_of_mem_fieldsOf (h.mem_fieldsOf hfiles)
  have hpairwise := List.pairwise_iff_getElem.1 (pairwise_fieldsByNumber hfiles hid)
  obtain ⟨hplace, hfirst⟩ := List.getElem?_eq_some_iff.1 h.getField
  obtain ⟨hlater, hnext⟩ := List.getElem?_eq_some_iff.1 hsecond.getField
  constructor
  · intro hlt
    have hnumber := hpairwise place later hplace hlater hlt
    rwa [hfirst, hnext] at hnumber
  · intro hnumber
    -- In the other order the numbers would be the other way round, or the same.
    by_contra hle
    rcases Nat.lt_or_eq_of_le (Nat.le_of_not_lt hle) with hlt | rfl
    · have hother := hpairwise later place hlater hplace hlt
      rw [hfirst, hnext] at hother
      exact Int32.lt_asymm hnumber hother
    · rw [← hfirst, ← hnext] at hnumber
      exact Int32.lt_irrefl hnumber

/-- The fields with a slot are the members of real oneofs. -/
theorem exists_oneofSlot_iff (hfiles : ofFiles config files = .ok schema) :
    (∃ offset, entry.2.presence = .oneofSlot offset) ↔ (schema.realOneof? entry.1).isSome = true := by
  simp only [h.oneofSlot_iff, exists_comm (α := Nat), exists_and_left, exists_eq, and_true,
    Option.isSome_iff_exists]
  constructor
  · intro hindex
    obtain ⟨index, hindex⟩ := hindex
    obtain ⟨oneof, honeof, _⟩ := (h.isOf.oneofIndex_eq_some_iff hfiles (h.mem_fieldsOf hfiles)).1 hindex
    exact ⟨oneof, honeof⟩
  · intro honeof
    obtain ⟨oneof, honeof⟩ := honeof
    obtain ⟨index, hindex, _⟩ := h.isOf.exists_oneofIndex hfiles (h.mem_fieldsOf hfiles) honeof
    exact ⟨index, hindex⟩

/-- The fields with a has-bit are those with presence outside of real oneofs. -/
theorem exists_hasBit_iff (hfiles : ofFiles config files = .ok schema) :
    (∃ bit, entry.2.presence = .hasBit bit) ↔
      entry.1.hasPresence = true ∧ schema.realOneof? entry.1 = none := by
  simp only [h.hasBit_iff, exists_or, exists_and_left, exists_eq, and_true]
  rw [h.isOf.ownsRequiredBit_iff hfiles (h.mem_fieldsOf hfiles),
    h.isOf.ownsOtherBit_iff hfiles (h.mem_fieldsOf hfiles), ← and_or_left]
  cases entry.1.isRequired <;> simp

section

variable {second : FieldNode × FieldRecord} {next : FieldShape} {later : Nat}
  (hsecond : schema.IsTrackedAt id shapes second next later)

include hsecond

/-- Among fields that are alike in `isRequired`, has-bits are ordered as places are. -/
theorem hasBit_lt_iff (hsame : entry.1.isRequired = second.1.isRequired)
    (hbit : entry.2.presence = .hasBit bit) {nextBit : Nat} (hnext : second.2.presence = .hasBit nextBit) :
    bit < nextBit ↔ place < later := by
  cases hrequired : entry.1.isRequired with
  | true =>
    obtain ⟨howns, rfl⟩ := h.requiredBit hbit hrequired
    obtain ⟨hnextOwns, rfl⟩ := hsecond.requiredBit hnext (hsame.symm.trans hrequired)
    exact countP_take_lt_iff h.getShape howns hsecond.getShape hnextOwns
  | false =>
    obtain ⟨howns, rfl⟩ := h.otherBit hbit hrequired
    obtain ⟨hnextOwns, rfl⟩ := hsecond.otherBit hnext (hsame.symm.trans hrequired)
    rw [Nat.add_lt_add_iff_left]
    exact countP_take_lt_iff h.getShape howns hsecond.getShape hnextOwns

/-- Two slots are the same exactly if their fields have the same `realOneof?`. -/
theorem oneofSlot_eq_iff (hfiles : ofFiles config files = .ok schema) {offset nextOffset : Nat}
    (hoffset : entry.2.presence = .oneofSlot offset) (hnext : second.2.presence = .oneofSlot nextOffset) :
    offset = nextOffset ↔ schema.realOneof? entry.1 = schema.realOneof? second.1 := by
  obtain ⟨index, hindex, rfl⟩ := h.oneofSlot_iff.1 hoffset
  obtain ⟨nextIndex, hnextIndex, rfl⟩ := hsecond.oneofSlot_iff.1 hnext
  obtain ⟨oneof, honeof, hget⟩ :=
    (h.isOf.oneofIndex_eq_some_iff hfiles (h.mem_fieldsOf hfiles)).1 hindex
  obtain ⟨nextOneof, hnextOneof, hnextGet⟩ :=
    (hsecond.isOf.oneofIndex_eq_some_iff hfiles (hsecond.mem_fieldsOf hfiles)).1 hnextIndex
  rw [Nat.add_left_cancel_iff, Nat.mul_right_inj (by decide), honeof, hnextOneof]
  constructor
  · rintro rfl
    rw [← hget, hnextGet]
  · intro hsame
    -- The index of a field is determined by its oneof.
    have hboth := h.isOf.oneofIndex_eq hfiles (h.mem_fieldsOf hfiles)
    rw [honeof, hsame, ← hnextOneof, ← hsecond.isOf.oneofIndex_eq hfiles (hsecond.mem_fieldsOf hfiles), hindex,
      hnextIndex] at hboth
    exact Option.some.inj hboth

end

end IsTrackedAt

end

/-! ## Plans track presence -/

/-- The plans of a message satisfy `TracksPresence`. -/
theorem tracksPresence_plan {config : Config} {files : List FileDecl} {schema : Schema}
    (hfiles : ofFiles config files = .ok schema) {id : MessageId} (hid : id ∈ schema.messageIds)
    {shapes : List FieldShape} (hshapes : List.Forall₂
      (FieldShape.IsOf (schema.message id).realOneofs) (schema.fieldsByNumber id) shapes)
    (table : SubmessageTable) (target : Target) :
    schema.TracksPresence id (Placement.plan shapes table target) := by
  have hperm := (isSound_ofFiles hfiles).fieldsByNumber_perm id
  have hlength : (schema.fieldsByNumber id).length =
      (Placement.plan shapes table target).records.length := by
    have hnumbers := congrArg List.length (Placement.map_number_records shapes table target)
    rw [List.length_map, List.length_map] at hnumbers
    rw [hnumbers, hshapes.length_eq]
  constructor
  case fields =>
    rw [tracked, List.map_fst_zip (Nat.le_of_eq hlength)]
    exact hperm
  case records =>
    rw [tracked, List.map_snd_zip (Nat.le_of_eq hlength.symm)]
  case numbers =>
    intro entry hentry
    obtain ⟨shape, place, h⟩ := exists_isTrackedAt hshapes hentry
    rw [h.number, h.isOf.number]
    exact toNat_toUInt32_of_isFieldNumber
      (isFieldNumber_of_mem_fieldsOf hfiles (h.mem_fieldsOf hfiles))
  case slot =>
    intro entry hentry
    obtain ⟨shape, place, h⟩ := exists_isTrackedAt hshapes hentry
    exact h.exists_oneofSlot_iff hfiles
  case hasBit =>
    intro entry hentry
    obtain ⟨shape, place, h⟩ := exists_isTrackedAt hshapes hentry
    exact h.exists_hasBit_iff hfiles
  case bits =>
    have hbits := Placement.bits_presences_perm shapes
    rw [← Placement.map_presence_records shapes table target, List.filterMap_map] at hbits
    exact hbits
  case requiredFirst =>
    intro required hentry other hother hrequired hnot bit hbit next hnext
    obtain ⟨shape, place, h⟩ := exists_isTrackedAt hshapes hentry
    obtain ⟨owner, later, hlater⟩ := exists_isTrackedAt hshapes hother
    obtain ⟨howns, rfl⟩ := h.requiredBit hbit hrequired
    obtain ⟨_, rfl⟩ := hlater.otherBit hnext hnot
    exact Nat.lt_of_lt_of_le (countP_take_lt_countP h.getShape howns) (Nat.le_add_right _ _)
  case ascending =>
    intro first hentry second hother hsame bit hbit next hnext
    obtain ⟨shape, place, h⟩ := exists_isTrackedAt hshapes hentry
    obtain ⟨owner, later, hlater⟩ := exists_isTrackedAt hshapes hother
    rw [h.hasBit_lt_iff hlater hsame hbit hnext, h.place_lt_iff hfiles hlater]
  case oneofs => exact (nodup_oneofs hfiles hid).filter _
  case sameSlot =>
    intro first hentry second hother offset hoffset next hnext
    obtain ⟨shape, place, h⟩ := exists_isTrackedAt hshapes hentry
    obtain ⟨owner, later, hlater⟩ := exists_isTrackedAt hshapes hother
    exact h.oneofSlot_eq_iff hlater hfiles hoffset hnext
  case slotOffset =>
    intro entry hentry oneof honeof
    obtain ⟨shape, place, h⟩ := exists_isTrackedAt hshapes hentry
    obtain ⟨index, hindex, hget⟩ := h.isOf.exists_oneofIndex hfiles (h.mem_fieldsOf hfiles) honeof
    rw [realOneofs_eq_filter hfiles hid] at hget
    refine ⟨index, hget, h.oneofSlot_iff.2 ⟨index, hindex, ?_⟩⟩
    rw [← hperm.length_eq, hshapes.length_eq]
    rfl

/-- For fewer than 2²⁶ fields and oneofs, `checkedPlan` on words of 32 bits finds the plans of `layout`, from
any memo. They satisfy `TracksPresence`, with the same presences on both targets. -/
theorem layout_tracksPresence {config : Config} {files : List FileDecl} {schema : Schema}
    (hfiles : ofFiles config files = .ok schema) {id : MessageId} (hid : id ∈ schema.messageIds)
    (hcount : (schema.fieldsOf id).length < 2 ^ 26)
    (honeofs : (schema.message id).oneofs.length < 2 ^ 26) (memo : Initialization.Memo) :
    let shapes := ((schema.shapes id).run memo).1
    let plans := ((schema.layout id).run memo).1.plans
    (∀ target, Placement.checkedPlan shapes (Placement.submessages shapes) target =
        some (plans.get target) ∧ schema.TracksPresence id (plans.get target)) ∧
      (plans.get .bits64).records.map (·.presence) =
        (plans.get .bits32).records.map (·.presence) := by
  intro shapes plans
  have hshapes := schema.isOf_shapes id memo
  have hget (target : Target) :
      plans.get target = Placement.plan shapes (Placement.submessages shapes) target :=
    PerTarget.get_ofTarget _ target
  have hlength : shapes.length = (schema.fieldsOf id).length := by
    rw [← hshapes.length_eq, ((isSound_ofFiles hfiles).fieldsByNumber_perm id).length_eq]
  have hindex : ∀ shape ∈ shapes, ∀ index, shape.oneofIndex = some index → index < 2 ^ 26 := by
    intro shape hshape index hindex
    obtain ⟨field, _, hisOf⟩ := exists_of_mem_right hshapes hshape
    have hlt := hisOf.oneofIndex_lt hindex
    have hle : (schema.message id).realOneofs.length ≤ (schema.message id).oneofs.length :=
      (List.take_sublist _ _).length_le
    omega
  simp only [hget]
  refine ⟨fun target => ⟨?_, ?_⟩, ?_⟩
  · exact Placement.checkedPlan_submessages (by omega) hindex target
  · exact tracksPresence_plan hfiles hid hshapes _ target
  · rw [Placement.map_presence_records, Placement.map_presence_records]

/-- A line of `pathFile` has two members of a oneof and one field with a has-bit. -/
theorem layout_tracksPresence_line :
    ∃ schema, ofFiles {} [pathFile] = .ok schema ∧ ⟨1⟩ ∈ schema.messageIds ∧
      (schema.fieldsOf ⟨1⟩).length < 2 ^ 26 ∧ (schema.message ⟨1⟩).oneofs.length < 2 ^ 26 ∧
        let plans := ((schema.layout ⟨1⟩).run ∅).1.plans
        schema.TracksPresence ⟨1⟩ (plans.get .bits64) ∧
          schema.TracksPresence ⟨1⟩ (plans.get .bits32) := by
  obtain ⟨schema, hschema⟩ := exists_ofFiles_path
  have hmessages := messages_of_ofFiles (ofTable_proto2 rfl) hschema
  have hid : ⟨1⟩ ∈ schema.messageIds := by
    rw [mem_messageIds, hmessages]
    decide
  have hcount : (schema.fieldsOf ⟨1⟩).length < 2 ^ 26 := by
    rw [fieldsOf, List.length_map, Schema.message, hmessages]
    decide
  have honeofs : (schema.message ⟨1⟩).oneofs.length < 2 ^ 26 := by
    rw [Schema.message, hmessages]
    decide
  have htracks := layout_tracksPresence hschema hid hcount honeofs ∅
  exact ⟨schema, hschema, hid, hcount, honeofs, (htracks.1 .bits64).2, (htracks.1 .bits32).2⟩

end Schema

end SchemaLayout
