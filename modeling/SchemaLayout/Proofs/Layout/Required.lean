import SchemaLayout.Proofs.Layout.Tracking

/-!
# The count of required fields

The header of a plan counts all required fields of the message. The first has-bits are those of required
fields, but a required field that holds many values, or is a member of a written oneof, has none. So the
count tells the has-bits of required fields from those of others exactly if there are no such fields
(`layout_describesRequired_iff`).
-/

namespace SchemaLayout

/-- Related lists have the same count if `p` and `q` agree on related elements. -/
theorem countP_eq_of_forall₂ {α β : Type} {R : α → β → Prop} {p : α → Bool} {q : β → Bool}
    {first : List α} {second : List β} (h : List.Forall₂ R first second)
    (hpq : ∀ a b, R a b → p a = q b) : first.countP p = second.countP q := by
  induction h with
  | nil => rfl
  | cons hhead _ ih => rw [List.countP_cons, List.countP_cons, ih, hpq _ _ hhead]

/-- A required field that is not repeated has presence. -/
theorem FieldNode.hasPresence_of_isRequired {field : FieldNode} (h : field.isRequired = true)
    (hsingle : field.isRepeated = false) : field.hasPresence = true := by
  have hpresence : field.features.fieldPresence = .legacyRequired := of_decide_eq_true h
  rw [hasPresence, hsingle, hpresence]
  simp

theorem FieldNode.isRepeated_eq_false {field : FieldNode} (h : field.hasPresence = true) :
    field.isRepeated = false := by
  by_contra hrepeated
  rw [hasPresence, if_pos ((Bool.not_eq_false _).mp hrepeated)] at h
  cases h

namespace Schema

variable {config : Config} {files : List FileDecl} {schema : Schema} {id : MessageId}

/-- Exactly the required fields have a has-bit below `plan.requiredCount`. -/
def DescribesRequired (schema : Schema) (id : MessageId) (plan : LayoutPlan) : Prop :=
  ∀ entry ∈ schema.tracked id plan, entry.1.isRequired = true ↔
    ∃ bit, entry.2.presence = .hasBit bit ∧ bit < plan.requiredCount

/-- With `DescribesRequired`, required fields are not repeated and in no real oneof. -/
theorem TracksPresence.isTracked_of_describesRequired {plan : LayoutPlan}
    (htracks : schema.TracksPresence id plan) (h : schema.DescribesRequired id plan)
    {field : FieldNode} (hfield : field ∈ schema.fieldsOf id) (hrequired : field.isRequired = true) :
    field.isRepeated = false ∧ schema.realOneof? field = none := by
  obtain ⟨entry, hentry, rfl⟩ := List.mem_map.1 (htracks.fields.mem_iff.2 hfield)
  obtain ⟨bit, hbit, _⟩ := (h entry hentry).1 hrequired
  obtain ⟨hpresence, honeof⟩ := (htracks.hasBit entry hentry).1 ⟨bit, hbit⟩
  exact ⟨FieldNode.isRepeated_eq_false hpresence, honeof⟩

section

variable {shapes : List FieldShape} (hshapes : List.Forall₂
    (FieldShape.IsOf (schema.message id).realOneofs) (schema.fieldsByNumber id) shapes)
  (hfiles : ofFiles config files = .ok schema)

include hshapes hfiles

/-- `requiredCount` counts all required fields. -/
theorem requiredCount_plan (table : SubmessageTable) (target : Target) :
    (Placement.plan shapes table target).requiredCount =
      (schema.fieldsOf id).countP (·.isRequired) := by
  rw [← ((isSound_ofFiles hfiles).fieldsByNumber_perm id).countP_eq]
  exact (countP_eq_of_forall₂ hshapes fun _ _ h => h.isRequired.symm).symm

/-- If no required field is repeated or in a real oneof, the plan satisfies `DescribesRequired`. -/
theorem describesRequired_plan (hall : ∀ field ∈ schema.fieldsOf id, field.isRequired = true →
      field.isRepeated = false ∧ schema.realOneof? field = none)
    (table : SubmessageTable) (target : Target) :
    schema.DescribesRequired id (Placement.plan shapes table target) := by
  -- Under the hypothesis, being required is the same as owning a required bit.
  have howners : ∀ shape ∈ shapes, shape.isRequired = shape.ownsRequiredBit := by
    intro shape hshape
    obtain ⟨field, hmem, hisOf⟩ := exists_of_mem_right hshapes hshape
    have hfield := ((isSound_ofFiles hfiles).fieldsByNumber_perm id).subset hmem
    rw [Bool.eq_iff_iff, hisOf.ownsRequiredBit_iff hfiles hfield, hisOf.isRequired]
    constructor
    · intro hrequired
      obtain ⟨hsingle, honeof⟩ := hall field hfield hrequired
      exact ⟨⟨FieldNode.hasPresence_of_isRequired hrequired hsingle, honeof⟩, hrequired⟩
    · exact And.right
  have hcount : (Placement.plan shapes table target).requiredCount =
      shapes.countP (·.ownsRequiredBit) :=
    List.countP_congr fun shape hshape => by rw [howners shape hshape]
  intro entry hentry
  obtain ⟨shape, place, h⟩ := exists_isTrackedAt hshapes hentry
  rw [hcount]
  constructor
  · intro hrequired
    have howns : shape.ownsRequiredBit = true := by
      rw [← howners shape (List.mem_of_getElem? h.getShape), h.isOf.isRequired, hrequired]
    exact ⟨_, h.hasBit_iff.2 (Or.inl ⟨howns, rfl⟩), countP_take_lt_countP h.getShape howns⟩
  · intro hbit
    obtain ⟨bit, hbit, hlt⟩ := hbit
    by_contra hnot
    obtain ⟨_, rfl⟩ := h.otherBit hbit (Bool.not_eq_true _ ▸ hnot)
    exact Nat.not_lt_of_le (Nat.le_add_right _ _) hlt

end

/-- `requiredCount` counts all required fields. `DescribesRequired` holds exactly if none of them is repeated or
a member of a real oneof. -/
theorem layout_describesRequired_iff (hfiles : ofFiles config files = .ok schema)
    (hid : id ∈ schema.messageIds) (memo : Initialization.Memo) (target : Target) :
    let plan := ((schema.layout id).run memo).1.plans.get target
    plan.requiredCount = (schema.fieldsOf id).countP (·.isRequired) ∧
      (schema.DescribesRequired id plan ↔ ∀ field ∈ schema.fieldsOf id, field.isRequired = true →
        field.isRepeated = false ∧ schema.realOneof? field = none) := by
  intro plan
  have hshapes := schema.isOf_shapes id memo
  have hget : plan = Placement.plan _ (Placement.submessages _) target :=
    PerTarget.get_ofTarget _ target
  rw [hget]
  refine ⟨requiredCount_plan hshapes hfiles _ _, fun h field hfield hrequired => ?_,
    fun hall => describesRequired_plan hshapes hfiles hall _ _⟩
  exact (tracksPresence_plan hfiles hid hshapes _ _).isTracked_of_describesRequired h hfield
    hrequired

/-! ## A required field of many values -/

/-- The options of a field that must be set. -/
def requiredOptions : FieldOptions :=
  { features := some { fieldPresence := some .legacyRequired } }

/-- Orders with a required number, and lists of items of which there must be some. -/
def ordersFile : FileDecl where
  name := "orders.proto"
  syntaxName := some "editions"
  edition := some .edition2023
  messageType := [
    { name := "Order"
      field := [
        { name := "note", number := 1 },
        { name := "id", number := 2, options := some requiredOptions }] },
    { name := "Items"
      field := [
        { name := "item", number := 1, label := .repeated, options := some requiredOptions },
        { name := "note", number := 2 }] }]

/-- The features of files of edition 2023. -/
def edition2023Rules : FeatureRules where
  edition := .edition2023
  defaults := {
    fieldPresence := .explicit, enumOpenness := .openEnded, repeatedEncoding := .packed
    utf8Validation := .verify, messageEncoding := .lengthPrefixed, jsonFormat := .allow
  }
  extensions := []

theorem ofTable_orders :
    FeatureRules.ofTable ordersFile.level ({} : Config).defaults ({} : Config).extensions =
      .ok edition2023Rules :=
  rfl

theorem exists_ofFiles_orders : ∃ schema, ofFiles {} [ordersFile] = .ok schema :=
  exists_ofFiles edition2023Rules ofTable_orders rfl (by cbv)

/-- The number of an order is its only required field, and it has the first has-bit. -/
theorem layout_describesRequired_order :
    ∃ schema, ofFiles {} [ordersFile] = .ok schema ∧ ⟨0⟩ ∈ schema.messageIds ∧
      let plan := ((schema.layout ⟨0⟩).run ∅).1.plans.get .bits64
      plan.requiredCount = 1 ∧ schema.DescribesRequired ⟨0⟩ plan := by
  obtain ⟨schema, hschema⟩ := exists_ofFiles_orders
  have hid : ⟨0⟩ ∈ schema.messageIds := by
    rw [mem_messageIds, messages_of_ofFiles ofTable_orders hschema]
    decide
  obtain ⟨hcount, hdescribes⟩ := layout_describesRequired_iff hschema hid ∅ .bits64
  have hplain := fieldsOf_of_ofFiles ofTable_orders hschema (by cbv) ⟨0⟩
  have hall : ∀ field ∈ schema.fieldsOf ⟨0⟩, field.isRepeated = false ∧ field.oneof = none := by
    rw [hplain]
    decide
  refine ⟨schema, hschema, hid, hcount.trans ?_, hdescribes.2 fun field hfield _ => ?_⟩
  · rw [hplain]
    decide
  · obtain ⟨hsingle, honeof⟩ := hall field hfield
    rw [realOneof?, honeof]
    exact ⟨hsingle, rfl⟩

/-- `DescribesRequired` fails for a list of items: `requiredCount` is one, but the only has-bit is that of the
note. -/
theorem not_describesRequired_items :
    ∃ schema, ofFiles {} [ordersFile] = .ok schema ∧ ⟨1⟩ ∈ schema.messageIds ∧
      ¬ schema.DescribesRequired ⟨1⟩ (((schema.layout ⟨1⟩).run ∅).1.plans.get .bits64) := by
  obtain ⟨schema, hschema⟩ := exists_ofFiles_orders
  have hid : ⟨1⟩ ∈ schema.messageIds := by
    rw [mem_messageIds, messages_of_ofFiles ofTable_orders hschema]
    decide
  refine ⟨schema, hschema, hid, fun h => ?_⟩
  have htracks := tracksPresence_plan hschema hid (schema.isOf_shapes ⟨1⟩ ∅)
    (Placement.submessages ((schema.shapes ⟨1⟩).run ∅).1) .bits64
  obtain ⟨item, hitem, hrequired, hrepeated⟩ : ∃ field ∈ schema.fieldsOf ⟨1⟩,
      field.isRequired = true ∧ field.isRepeated = true := by
    rw [fieldsOf_of_ofFiles ofTable_orders hschema (by cbv) ⟨1⟩]
    decide
  have hsingle := (htracks.isTracked_of_describesRequired h hitem hrequired).1
  rw [hrepeated] at hsingle
  cases hsingle

end Schema

end SchemaLayout
