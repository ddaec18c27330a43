import Mathlib.Order.Bounds.Basic
import SchemaLayout.Proofs.Layout.Lookup
import SchemaLayout.Proofs.Layout.Tracking

/-!
# The dense threshold

The header of a plan says how far the numbers of fields go up from one without a gap. Placement finds this threshold
by going through the ascending numbers up to the first one that is not next. No number is used twice and none is
below one, so all numbers from there on are larger, and the threshold is the first number that is missing
(`isLeast_denseBelow`).

The records below the threshold have the numbers one, two, three and so on. So each of them is at the place that
its number says, and no search is needed to find it (`layout_isDense`). The block of numbers that is kept for
implementations begins at 19000, so the threshold is never larger than that.
-/

namespace SchemaLayout

namespace Placement

variable {next number : Nat} {numbers rest : List Nat}

/-! ## The first number that is missing -/

/-- The numbers from `next` on that are not in `numbers`. -/
def missingFrom (next : Nat) (numbers : List Nat) : Set Nat :=
  {number | next ≤ number ∧ number ∉ numbers}

theorem mem_missingFrom_iff : number ∈ missingFrom next numbers ↔ next ≤ number ∧ number ∉ numbers :=
  Iff.rfl

/-- If the list goes on with `next`, what is missing is missing from `next + 1` on. -/
theorem missingFrom_cons_self (next : Nat) (rest : List Nat) :
    missingFrom next (next :: rest) = missingFrom (next + 1) rest := by
  ext number
  rw [mem_missingFrom_iff, mem_missingFrom_iff, List.mem_cons, not_or]
  constructor
  · intro hmissing
    obtain ⟨hle, hne, hrest⟩ := hmissing
    exact ⟨by omega, hrest⟩
  · intro hmissing
    obtain ⟨hlt, hrest⟩ := hmissing
    exact ⟨by omega, by omega, hrest⟩

/-- If all numbers are above `next`, that one is missing. -/
theorem isLeast_missingFrom (h : ∀ number ∈ numbers, next < number) :
    IsLeast (missingFrom next numbers) next := by
  refine ⟨⟨Nat.le_refl next, fun hmem => ?_⟩, fun number hmissing => hmissing.1⟩
  exact Nat.lt_irrefl next (h next hmem)

theorem denseBelow_cons_self (next : Nat) (rest : List Nat) :
    denseBelow next (next :: rest) = denseBelow (next + 1) rest :=
  if_pos rfl

theorem denseBelow_cons_of_ne (h : number ≠ next) : denseBelow next (number :: rest) = next :=
  if_neg h

/-- `denseBelow next numbers` is the least number missing, if `numbers` ascend. -/
theorem isLeast_denseBelow (hascending : numbers.Pairwise (· < ·))
    (hnext : ∀ number ∈ numbers, next ≤ number) :
    IsLeast (missingFrom next numbers) (denseBelow next numbers) := by
  induction numbers generalizing next with
  | nil => exact isLeast_missingFrom (List.forall_mem_nil _)
  | cons number rest ih =>
    obtain ⟨hfirst, hrest⟩ := List.pairwise_cons.1 hascending
    by_cases hnumber : number = next
    · -- While the pass goes on, the same numbers are missing.
      subst hnumber
      rw [denseBelow_cons_self, missingFrom_cons_self]
      exact ih hrest hfirst
    · -- Nothing before the first number is in the list, so the next number is not.
      have hlt : next < number :=
        Nat.lt_of_le_of_ne (hnext number List.mem_cons_self) (Ne.symm hnumber)
      rw [denseBelow_cons_of_ne hnumber]
      refine isLeast_missingFrom (List.forall_mem_cons.2 ⟨hlt, fun later hlater => ?_⟩)
      exact Nat.lt_trans hlt (hfirst later hlater)

/-- The numbers that `denseBelow` passes are those from `next` on, one after the other. -/
theorem take_denseBelow (next : Nat) (numbers : List Nat) :
    numbers.take (denseBelow next numbers - next) =
      List.range' next (denseBelow next numbers - next) := by
  induction numbers generalizing next with
  | nil =>
    rw [denseBelow, Nat.sub_self]
    rfl
  | cons number rest ih =>
    by_cases hnumber : number = next
    · subst hnumber
      rw [denseBelow_cons_self]
      have hrest := ih (number + 1)
      -- The pass takes the first number and then as many as it takes from the next one on.
      obtain ⟨count, hcount⟩ := Nat.exists_eq_add_of_le (le_denseBelow (number + 1) rest)
      rw [hcount, Nat.add_sub_cancel_left] at hrest
      rw [hcount, show number + 1 + count - number = count + 1 by omega, List.take_succ_cons,
        List.range'_succ, hrest]
    · rw [denseBelow_cons_of_ne hnumber, Nat.sub_self]
      rfl

end Placement

/-! ## Records in front -/

/-- If a plan starts with the numbers 1 to `count`, `find?` finds each of them at its place. -/
theorem LayoutPlan.exists_find?_of_take {plan : LayoutPlan} (hascending : plan.IsAscending) {count number : Nat}
    (hfront : (plan.records.take count).map (·.number) = List.range' 1 count)
    (hpositive : 0 < number) (hle : number ≤ count) :
    ∃ record, plan.records[number - 1]? = some record ∧ record.number = number ∧
      plan.find? number = some record := by
  have hlt : number - 1 < count := by omega
  have hplace := congrArg (·[number - 1]?) hfront
  simp only [List.getElem?_map, List.getElem?_take, if_pos hlt, List.getElem?_range' hlt] at hplace
  obtain ⟨record, hrecord, hnumber⟩ := Option.map_eq_some_iff.1 hplace
  have hsame : record.number = number := by omega
  refine ⟨record, hrecord, hsame, ?_⟩
  exact (LayoutPlan.find?_eq_some_iff hascending).2 ⟨List.mem_of_getElem? hrecord, hsame⟩

namespace Schema

/-- Some field of the message has this number. -/
def HasNumber (schema : Schema) (id : MessageId) (number : Nat) : Prop :=
  ∃ field ∈ schema.fieldsOf id, field.number.toInt = number

/-- `plan.denseBelow` is the least positive number without `HasNumber`, and the plan starts with the records of
all numbers below it. -/
structure IsDense (schema : Schema) (id : MessageId) (plan : LayoutPlan) : Prop where
  /-- The threshold is the smallest positive number that no field has. -/
  least : IsLeast {number | 0 < number ∧ ¬ schema.HasNumber id number} plan.denseBelow
  below : ∀ number, 0 < number → number < plan.denseBelow → schema.HasNumber id number
  missing : ¬ schema.HasNumber id plan.denseBelow
  /-- The plan starts with the records of the numbers below the threshold, in ascending order. -/
  front : (plan.records.take (plan.denseBelow - 1)).map (·.number) = List.range' 1 (plan.denseBelow - 1)
  /-- So the record of a number below the threshold is at the place that the number says. -/
  find : ∀ number, 0 < number → number < plan.denseBelow →
    ∃ record, plan.records[number - 1]? = some record ∧ record.number = number ∧
      plan.find? number = some record
  /-- No field has a number of the block that is kept for implementations. -/
  reserved : plan.denseBelow ≤ 19000

section

variable {config : Config} {files : List FileDecl} {schema : Schema} {id : MessageId}
  {shapes : List FieldShape} (hshapes : List.Forall₂
    (FieldShape.IsOf (schema.message id).realOneofs) (schema.fieldsByNumber id) shapes)
  (hfiles : ofFiles config files = .ok schema)

include hfiles

/-- No field has the number 19000, which is kept for implementations. -/
theorem not_hasNumber_reserved : ¬ schema.HasNumber id 19000 := by
  intro hnumber
  obtain ⟨field, hfield, hnumber⟩ := hnumber
  have hvalid := isFieldNumber_of_mem_fieldsOf hfiles hfield
  rw [isFieldNumber, hnumber] at hvalid
  exact absurd hvalid (by decide)

include hshapes

theorem map_number_shapes : (shapes.map (·.number)).map (fun number : Nat => (number : Int)) =
    (schema.fieldsByNumber id).map (·.number.toInt) := by
  rw [List.map_map]
  refine map_eq_of_forall₂ _ _ hshapes fun field hfield shape hisOf => ?_
  have hvalid := isFieldNumber_of_mem_fieldsOf hfiles
    (((isSound_ofFiles hfiles).fieldsByNumber_perm id).subset hfield)
  rw [Function.comp_apply, hisOf.number, toNat_toUInt32_of_isFieldNumber hvalid]

/-- A number is among those of the shapes exactly if `HasNumber` holds. -/
theorem mem_map_number_iff {number : Nat} :
    number ∈ shapes.map (·.number) ↔ schema.HasNumber id number := by
  have hcast : number ∈ shapes.map (·.number) ↔
      (number : Int) ∈ (shapes.map (·.number)).map (fun number : Nat => (number : Int)) :=
    (List.mem_map_of_injective Int.ofNat_injective).symm
  rw [hcast, map_number_shapes hshapes hfiles, List.mem_map]
  refine exists_congr fun field => and_congr_left fun _ => ?_
  exact ((isSound_ofFiles hfiles).fieldsByNumber_perm id).mem_iff

/-- `denseBelow` over the shapes of a message is the least positive number without `HasNumber`. -/
theorem isLeast_denseBelow_shapes (hid : id ∈ schema.messageIds) :
    IsLeast {number | 0 < number ∧ ¬ schema.HasNumber id number}
      (Placement.denseBelow 1 (shapes.map (·.number))) := by
  have hmissing : Placement.missingFrom 1 (shapes.map (·.number)) =
      {number | 0 < number ∧ ¬ schema.HasNumber id number} := by
    ext number
    rw [Placement.mem_missingFrom_iff, mem_map_number_iff hshapes hfiles]
    rfl
  rw [← hmissing]
  refine Placement.isLeast_denseBelow
    (pairwise_lt_of_map_eq hfiles hid (map_number_shapes hshapes hfiles)) fun number hnumber => ?_
  obtain ⟨field, hfield, hsame⟩ := (mem_map_number_iff hshapes hfiles).1 hnumber
  have hvalid := isFieldNumber_of_mem_fieldsOf hfiles hfield
  simp only [isFieldNumber, Bool.and_eq_true, decide_eq_true_eq] at hvalid
  omega

/-- The plans of a message satisfy `IsDense`. -/
theorem isDense_plan (hid : id ∈ schema.messageIds) (table : SubmessageTable) (target : Target) :
    schema.IsDense id (Placement.plan shapes table target) := by
  have hleast := isLeast_denseBelow_shapes hshapes hfiles hid
  have hnumbers := Placement.map_number_records shapes table target
  have hascending : (Placement.plan shapes table target).IsAscending := by
    have hpairwise := pairwise_lt_of_map_eq hfiles hid (map_number_shapes hshapes hfiles)
    rw [← hnumbers] at hpairwise
    exact List.pairwise_map.1 hpairwise
  have hfront := Placement.take_denseBelow 1 (shapes.map (·.number))
  rw [← hnumbers, ← List.map_take, hnumbers] at hfront
  constructor
  case least => exact hleast
  case below =>
    intro number hpositive hlt
    by_contra hnone
    exact Nat.not_lt_of_le (hleast.2 ⟨hpositive, hnone⟩) hlt
  case missing => exact hleast.1.2
  case front => exact hfront
  case find =>
    intro number hpositive hlt
    exact LayoutPlan.exists_find?_of_take hascending hfront hpositive (Nat.le_sub_one_of_lt hlt)
  case reserved => exact hleast.2 ⟨by decide, not_hasNumber_reserved hfiles⟩

end

/-- The plans of a message satisfy `IsDense`, from any memo and on every target. `denseBelow?` finds the
threshold in words of 32 bits. -/
theorem layout_isDense {config : Config} {files : List FileDecl} {schema : Schema}
    (hfiles : ofFiles config files = .ok schema) {id : MessageId} (hid : id ∈ schema.messageIds)
    (memo : Initialization.Memo) (target : Target) :
    let shapes := ((schema.shapes id).run memo).1
    let plan := ((schema.layout id).run memo).1.plans.get target
    schema.IsDense id plan ∧
      Placement.denseBelow? 0 (shapes.map (·.number)) = some plan.denseBelow := by
  intro shapes plan
  have hplan : plan = Placement.plan shapes (Placement.submessages shapes) target :=
    schema.get_run_layout id memo target
  have hdense : schema.IsDense id plan := by
    rw [hplan]
    exact isDense_plan (schema.isOf_shapes id memo) hfiles hid _ target
  have hsame : plan.denseBelow = Placement.denseBelow 1 (shapes.map (·.number)) := by
    rw [hplan]
    rfl
  have hword : plan.denseBelow < Placement.word32Limit :=
    Nat.lt_of_le_of_lt hdense.reserved (by decide)
  refine ⟨hdense, ?_⟩
  rw [hsame] at hword ⊢
  exact Placement.denseBelow?_eq hword

/-- Tickets, whose fields are declared in another order than that of their numbers, and leave two numbers out.
-/
def ticketFile : FileDecl where
  name := "ticket.proto"
  messageType := [
    { name := "Ticket"
      field := [
        { name := "seat", number := 3 }, { name := "note", number := 7, type := .string },
        { name := "row", number := 2 }, { name := "price", number := 5, type := .double },
        { name := "show", number := 1, type := .string }] }]

/-- `denseBelow` of tickets is four, so three of their five records are at their places. -/
theorem layout_isDense_ticket :
    ∃ schema, ofFiles {} [ticketFile] = .ok schema ∧ ⟨0⟩ ∈ schema.messageIds ∧
      let shapes := ((schema.shapes ⟨0⟩).run ∅).1
      let plan := ((schema.layout ⟨0⟩).run ∅).1.plans.get .bits32
      schema.IsDense ⟨0⟩ plan ∧ plan.denseBelow = 4 ∧
        Placement.denseBelow? 0 (shapes.map (·.number)) = some 4 := by
  obtain ⟨schema, hschema⟩ := exists_ofFiles_proto2 ticketFile rfl rfl (by cbv)
  have hid : ⟨0⟩ ∈ schema.messageIds := by
    rw [mem_messageIds, messages_of_ofFiles (ofTable_proto2 rfl) hschema]
    decide
  obtain ⟨hdense, hword⟩ := layout_isDense hschema hid ∅ .bits32
  have hnumbers : (schema.fieldsOf ⟨0⟩).map (·.number.toInt) = [3, 7, 2, 5, 1] := by
    rw [fieldsOf_of_ofFiles (ofTable_proto2 rfl) hschema (by cbv) ⟨0⟩]
    decide
  have hiff (number : Nat) : schema.HasNumber ⟨0⟩ number ↔ (number : Int) ∈ [3, 7, 2, 5, 1] := by
    rw [HasNumber, ← hnumbers, List.mem_map]
  have hfour : IsLeast {number | 0 < number ∧ ¬ schema.HasNumber ⟨0⟩ number} 4 := by
    refine ⟨⟨by decide, ?_⟩, fun number hmissing => ?_⟩
    · rw [hiff]
      decide
    · obtain ⟨hpositive, hnone⟩ := hmissing
      rw [hiff] at hnone
      simp only [List.mem_cons, List.not_mem_nil, or_false, not_or] at hnone
      omega
  have hthreshold := hdense.least.unique hfour
  rw [hthreshold] at hword
  exact ⟨schema, hschema, hid, hdense, hthreshold, hword⟩

end Schema

end SchemaLayout
