import SchemaLayout.Proofs.Analysis.Reachability
import SchemaLayout.Proofs.Compiler.Session

/-!
# Schemas that agree

What a message is compiled to depends on the message itself and on the messages that can be reached from it,
and of each of them only on its fields in ascending order of number, not on the order in which they were
declared and not on the features of the message. So a message is compiled to the same result in all schemas that
have it and everything that can be reached from it (`Schema.Agrees.alone_eq`).
-/

namespace SchemaLayout

open Relation

/-- If `p` is kept by `r`, it holds of all that is reached by `ReflTransGen r`. -/
theorem of_reflTransGen {α : Type} {r : α → α → Prop} {p : α → Prop}
    (hstays : ∀ a b, p a → r a b → p b) {a b : α} (ha : p a) (h : ReflTransGen r a b) : p b := by
  induction h with
  | refl => exact ha
  | tail _ hstep ih => exact hstays _ _ ih hstep

/-- If `r` and `s` agree wherever `p` holds, and `r` keeps `p`, they reach the same from there. -/
theorem reflTransGen_congr {α : Type} {r s : α → α → Prop} {p : α → Prop}
    (hsteps : ∀ a b, p a → (r a b ↔ s a b)) (hstays : ∀ a b, p a → r a b → p b) {a b : α} (ha : p a) :
    ReflTransGen r a b ↔ ReflTransGen s a b := by
  constructor
  · intro h
    induction h using ReflTransGen.head_induction_on with
    | refl => exact .refl
    | head hstep _ ih => exact .head ((hsteps _ _ ha).1 hstep) (ih (hstays _ _ ha hstep))
  · intro h
    induction h using ReflTransGen.head_induction_on with
    | refl => exact .refl
    | head hstep _ ih =>
      have hback := (hsteps _ _ ha).2 hstep
      exact .head hback (ih (hstays _ _ ha hback))

namespace Schema

/-! ## Agreement -/

/-- All messages of `schema` are in `other` under the same numbers and with the same fields. Only `fields`, the
order in which they were declared, and `features` of messages may differ. -/
structure Agrees (schema other : Schema) : Prop where
  mem : ∀ id ∈ schema.messageIds, id ∈ other.messageIds
  message : ∀ id ∈ schema.messageIds, other.message id = { schema.message id with
    fieldsByNumber := (other.message id).fieldsByNumber, features := (other.message id).features }
  fieldsByNumber : ∀ id ∈ schema.messageIds, other.fieldsByNumber id = schema.fieldsByNumber id
  members : ∀ id ∈ schema.messageIds, ∀ oneof ∈ (schema.message id).realOneofs,
    ((other.oneof oneof).fields.map other.field).Perm ((schema.oneof oneof).fields.map schema.field)

namespace Agrees

variable {schema other : Schema} (h : schema.Agrees other) {id : MessageId}

include h

theorem fullName (hid : id ∈ schema.messageIds) :
    (other.message id).fullName = (schema.message id).fullName := by
  rw [h.message id hid]

theorem file (hid : id ∈ schema.messageIds) : (other.message id).file = (schema.message id).file := by
  rw [h.message id hid]

theorem realOneofs (hid : id ∈ schema.messageIds) :
    (other.message id).realOneofs = (schema.message id).realOneofs := by
  rw [h.message id hid]
  rfl

variable (hschema : schema.IsSound)

include hschema

/-! ## Names -/

/-- `fieldEntry` looks only at the names of fields and of the messages they refer to. -/
theorem fieldEntry_eq {field : FieldNode} (hfield : field ∈ schema.fieldsOf id) :
    other.fieldEntry field = schema.fieldEntry field := by
  rw [fieldEntry, fieldEntry]
  split
  · next target _ htarget =>
    have hin := (hschema.messageType_of_mem_fieldsOf hfield htarget).1
    rw [h.message target hin]
  · rfl

/-- `messageNames` is the same in both schemas. -/
theorem messageNames_eq (hid : id ∈ schema.messageIds) :
    other.messageNames id = schema.messageNames id := by
  have hentries : (schema.fieldsByNumber id).map other.fieldEntry =
      (schema.fieldsByNumber id).map schema.fieldEntry :=
    List.map_congr_left fun field hfield =>
      h.fieldEntry_eq hschema ((hschema.fieldsByNumber_perm id).mem_iff.1 hfield)
  rw [messageNames, messageNames, h.fieldsByNumber id hid, hentries, h.message id hid]

/-! ## Fields -/

variable (hother : other.IsSound)

include hother

/-- `fieldsOf` has the same fields in both schemas, in some order. -/
theorem fieldsOf_perm (hid : id ∈ schema.messageIds) : (other.fieldsOf id).Perm (schema.fieldsOf id) := by
  have hperm := hother.fieldsByNumber_perm id
  rw [h.fieldsByNumber id hid] at hperm
  exact hperm.symm.trans (hschema.fieldsByNumber_perm id)

theorem mem_fieldsOf_iff (hid : id ∈ schema.messageIds) {field : FieldNode} :
    field ∈ other.fieldsOf id ↔ field ∈ schema.fieldsOf id :=
  (h.fieldsOf_perm hschema hother hid).mem_iff

/-! ## Checks -/

section

open Initialization

/-- `Refers` is the same on shared messages. -/
theorem refers_iff (hid : id ∈ schema.messageIds) {inner : MessageId} :
    Refers schema id inner ↔ Refers other id inner :=
  exists_congr fun _ => and_congr_left fun _ => (h.mem_fieldsOf_iff hschema hother hid).symm

theorem canLack_iff (hid : id ∈ schema.messageIds) : CanLack schema id ↔ CanLack other id := by
  have hranges : (other.message id).extensionRanges = (schema.message id).extensionRanges := by
    rw [h.message id hid]
  rw [CanLack, CanLack, hranges]
  refine or_congr_right (exists_congr fun _ => and_congr_left fun _ => ?_)
  exact (h.mem_fieldsOf_iff hschema hother hid).symm

/-- `walked` is the same, as it goes by `Refers` and `CanLack`. -/
theorem walked_eq (hid : id ∈ schema.messageIds) : walked other id = walked schema id := by
  rw [Bool.eq_iff_iff, walked_eq_true_iff hother (h.mem id hid), walked_eq_true_iff hschema hid]
  have hstays (outer inner : MessageId) (_ : outer ∈ schema.messageIds)
      (hrefers : Refers schema outer inner) : inner ∈ schema.messageIds :=
    hrefers.mem_messageIds hschema
  have hreach (last : MessageId) :
      ReflTransGen (Refers schema) id last ↔ ReflTransGen (Refers other) id last :=
    reflTransGen_congr (fun _ _ houter => h.refers_iff hschema hother houter) hstays hid
  refine exists_congr fun last => ?_
  rw [← hreach last]
  refine and_congr_right fun hlast => ?_
  exact (h.canLack_iff hschema hother (of_reflTransGen hstays hid hlast)).symm

end

/-! ## Layouts -/

theorem run_submessageRef_eq {field : FieldNode} (hfield : field ∈ schema.fieldsOf id) :
    ((other.submessageRef field).run ∅).1 = ((schema.submessageRef field).run ∅).1 := by
  rw [run_submessageRef, run_submessageRef]
  cases htarget : field.messageType? with
  | none => rfl
  | some target =>
    have hin := (hschema.messageType_of_mem_fieldsOf hfield htarget).1
    rw [Option.map_some, Option.map_some, h.fullName hin, h.walked_eq hschema hother hin]

theorem run_shape_eq {oneofs : List OneofId} {field : FieldNode} (hfield : field ∈ schema.fieldsOf id) :
    ((other.shape oneofs field).run ∅).1 = ((schema.shape oneofs field).run ∅).1 := by
  rw [run_shape, run_shape, h.run_submessageRef_eq hschema hother hfield]

/-- `layout` from `∅` is the same. -/
theorem layout_eq (hid : id ∈ schema.messageIds) :
    ((other.layout id).run ∅).1 = ((schema.layout id).run ∅).1 := by
  rw [run_layout, run_layout, h.fieldsByNumber id hid, h.realOneofs hid]
  refine congrArg Placement.layout (List.map_congr_left fun field hfield => ?_)
  exact h.run_shape_eq hschema hother ((hschema.fieldsByNumber_perm id).mem_iff.1 hfield)

/-! ## Storage -/

section

open Storage

theorem holds_iff (hid : id ∈ schema.messageIds) {inner : MessageId} :
    Holds schema id inner ↔ Holds other id inner :=
  exists_congr fun _ => and_congr_left fun _ => (h.mem_fieldsOf_iff hschema hother hid).symm

theorem contains_iff (hid : id ∈ schema.messageIds) {file : FileId} {inner : MessageId} :
    Contains schema file id inner ↔ Contains other file id inner := by
  rw [contains_iff_holds, contains_iff_holds, ← h.holds_iff hschema hother hid]
  refine and_congr_right fun hholds => ?_
  obtain ⟨field, hfield, hheld⟩ := hholds
  have htarget := (heldMessage?_eq_some_iff.1 hheld).2
  rw [h.file (hschema.messageType_of_mem_fieldsOf hfield htarget).1]

/-- `OnCircle` is the same, as `Contains` stays among shared messages. -/
theorem onCircle_iff (hid : id ∈ schema.messageIds) : OnCircle other id ↔ OnCircle schema id := by
  rw [OnCircle, OnCircle, h.file hid, TransGen.head'_iff, TransGen.head'_iff]
  refine exists_congr fun inner => ?_
  rw [← h.contains_iff hschema hother hid]
  refine and_congr_right fun hstep => ?_
  exact (reflTransGen_congr (p := (· ∈ schema.messageIds))
    (fun _ _ houter => h.contains_iff hschema hother houter)
    (fun _ _ _ hnext => hnext.mem_messageIds hschema) (hstep.mem_messageIds hschema)).symm

theorem isSetApart_iff (hid : id ∈ schema.messageIds) : IsSetApart other id ↔ IsSetApart schema id := by
  rw [IsSetApart, IsSetApart, h.fullName hid, h.onCircle_iff hschema hother hid]

/-- `costOf` is the same: it does not depend on the order in which fields were declared. -/
theorem costOf_eq (hid : id ∈ schema.messageIds) (decisions : MessageId → Decision) :
    costOf other decisions id = costOf schema decisions id := by
  have hperm := h.fieldsOf_perm hschema hother hid
  have houtside : ((other.fieldsOf id).filter fun field => (other.realOneof? field).isNone).Perm
      ((schema.fieldsOf id).filter fun field => (schema.realOneof? field).isNone) := by
    refine (hperm.filter _).trans (.of_eq (List.filter_congr fun field hfield => ?_))
    have hin := (h.mem_fieldsOf_iff hschema hother hid).2 hfield
    rw [← hschema.realOneof_of_mem_fieldsOf hfield, ← hother.realOneof_of_mem_fieldsOf hin]
  have honeofs : (schema.message id).realOneofs.map (costOfOneof other decisions) =
      (schema.message id).realOneofs.map (costOfOneof schema decisions) := by
    refine List.map_congr_left fun oneof honeof => ?_
    rw [costOfOneof_eq, costOfOneof_eq]
    exact largest_perm ((h.members id hid oneof honeof).map _)
  rw [costOf, costOf, h.realOneofs hid, honeofs, (houtside.map _).sum_nat]

/-- Functions with `FollowsRule` in their schemas agree on shared messages, by induction on `rank`. -/
theorem decision_eq {threshold : Nat} {decisions others : MessageId → Decision}
    (hrule : FollowsRule schema threshold decisions) (hrules : FollowsRule other threshold others)
    (hid : id ∈ schema.messageIds) : others id = decisions id := by
  rw [followsRule_iff] at hrule hrules
  -- Held messages have smaller ranks, and only they matter for the cost.
  induction hrank : rank schema id using Nat.strong_induction_on generalizing id with
  | _ bound ih =>
    by_cases hapart : IsSetApart schema id
    · rw [(hrule id).1 hapart, (hrules id).1 ((h.isSetApart_iff hschema hother hid).2 hapart)]
    · rw [(hrule id).2 hapart, (hrules id).2 (mt (h.isSetApart_iff hschema hother hid).1 hapart),
        h.costOf_eq hschema hother hid]
      refine congrArg _ (costOf_congr hschema fun inner hinner => ?_)
      obtain ⟨field, hfield, hheld⟩ := hinner
      have htarget := (heldMessage?_eq_some_iff.1 hheld).2
      have hlt := rank_lt hschema ⟨field, hfield, hheld⟩ fun hcircle => hapart (Or.inr hcircle)
      exact ih _ (hrank ▸ hlt) (hschema.messageType_of_mem_fieldsOf hfield htarget).1 rfl

end

/-! ## Results -/

/-- `Compiler.alone` gives the same result in both schemas. -/
theorem alone_eq {config : Config} (hthreshold : config.costThreshold ≤ Storage.maxCost)
    (hid : id ∈ schema.messageIds) :
    Compiler.alone config other id = Compiler.alone config schema id := by
  obtain ⟨decisions, hrule, _⟩ := Storage.existsUnique_followsRule hschema config.costThreshold
  obtain ⟨others, hrules, _⟩ := Storage.existsUnique_followsRule hother config.costThreshold
  rw [Compiler.alone_eq hother hthreshold hrules (h.mem id hid),
    Compiler.alone_eq hschema hthreshold hrule hid, h.layout_eq hschema hother hid,
    h.decision_eq hschema hother hrule hrules hid, Compiler.assemble, Compiler.assemble]
  simp only [Compiler.assembled, messageNameProgram, h.fullName hid, h.messageNames_eq hschema hid]

end Agrees

end Schema

end SchemaLayout
