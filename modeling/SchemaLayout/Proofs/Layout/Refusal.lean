import SchemaLayout.Proofs.Layout.Codec

/-!
# Plans that have no program

A program is a sequence of slots of fixed width, and each of them limits the number that is written in it.
The limit is not always that of the width: a number of a field leaves room for the mode, and has-bits and
slots of oneofs keep out of each other's way. The slots of a plan are listed here with the numbers they are
to hold (`LayoutPlan.slots`), in the order in which the program has them. A writer that is put together from
writers goes through the slots of all of them (`inSlots_bind`), so a plan is written if all its numbers are
below their limits, and otherwise refused with the first one that is not (`LayoutPlan.encode_eq_inSlots`).
-/

namespace SchemaLayout

open Program

/-! ## Slots -/

namespace Program

/-- A number that is to be written, the width of its slot, and what it has to be below. -/
structure FixedSlot where
  value : Nat
  width : Nat
  limit : Nat

namespace FixedSlot

/-- `slot.value` is below `slot.limit`. -/
def Fits (slot : FixedSlot) : Prop :=
  slot.value < slot.limit

instance (slot : FixedSlot) : Decidable slot.Fits :=
  Nat.decLt _ _

/-- The error for a number that does not fit: the number and the width of its slot. -/
def refusal (slot : FixedSlot) : ProgramError :=
  .overflow slot.value slot.width

/-- `slot` is the first of `slots` that does not fit. -/
def IsFirstUnfit (slot : FixedSlot) (slots : List FixedSlot) : Prop :=
  ∃ before after, slots = before ++ slot :: after ∧ (∀ earlier ∈ before, earlier.Fits) ∧ ¬slot.Fits

/-- A slot that is limited by its width alone. -/
def plain (width value : Nat) : FixedSlot :=
  ⟨value, width, 128 ^ width⟩

theorem plain_fits_iff {width value : Nat} : (plain width value).Fits ↔ value < 128 ^ width :=
  Iff.rfl

end FixedSlot

variable {α β : Type} {first second slots : List FixedSlot}

/-- `a`, if all `slots` fit, and else the refusal of the first one that does not. -/
def inSlots (slots : List FixedSlot) (a : α) : Except ProgramError α :=
  match slots.find? (!decide ·.Fits) with
  | some slot => .error slot.refusal
  | none => .ok a

theorem inSlots_of_fits (h : ∀ slot ∈ slots, slot.Fits) (a : α) : inSlots slots a = .ok a := by
  have hnone : slots.find? (!decide ·.Fits) = none := by
    rw [List.find?_eq_none]
    intro slot hslot
    simpa using h slot hslot
  rw [inSlots, hnone]

/-- When `inSlots` succeeds, and with what. -/
theorem inSlots_eq_ok_iff {a b : α} : inSlots slots a = .ok b ↔ (∀ slot ∈ slots, slot.Fits) ∧ a = b := by
  unfold inSlots
  split
  · next slot hslot =>
    have hunfit : ¬slot.Fits := by simpa using List.find?_some hslot
    simp only [reduceCtorEq, false_iff]
    intro h
    exact hunfit (h.1 slot (List.mem_of_find?_eq_some hslot))
  · next hnone =>
    have hfits : ∀ slot ∈ slots, slot.Fits := by simpa using hnone
    simp only [Except.ok.injEq, iff_and_self]
    intro _
    exact hfits

/-- A first slot that does not fit decides. -/
theorem inSlots_of_not_fits {slot : FixedSlot} (h : ¬slot.Fits) (rest : List FixedSlot) (a : α) :
    inSlots (slot :: rest) a = .error slot.refusal := by
  have hfound : (slot :: rest).find? (!decide ·.Fits) = some slot := List.find?_cons_of_pos (by simpa using h)
  rw [inSlots, hfound]

/-- The slot that `inSlots` finds is the one with `IsFirstUnfit`. -/
theorem find?_eq_some_iff_isFirstUnfit {slot : FixedSlot} :
    slots.find? (!decide ·.Fits) = some slot ↔ slot.IsFirstUnfit slots := by
  rw [List.find?_eq_some_iff_append]
  unfold FixedSlot.IsFirstUnfit
  simp only [decide_eq_true_eq, Bool.not_eq_true', Bool.not_eq_false', decide_eq_false_iff_not]
  constructor
  · rintro ⟨hunfit, before, after, hslots, hbefore⟩
    exact ⟨before, after, hslots, hbefore, hunfit⟩
  · rintro ⟨before, after, hslots, hbefore, hunfit⟩
    exact ⟨hunfit, before, after, hslots, hbefore⟩

/-- `inSlots` fails with the refusal of the slot with `IsFirstUnfit`. -/
theorem inSlots_eq_error_iff {a : α} {error : ProgramError} :
    inSlots slots a = .error error ↔ ∃ slot : FixedSlot, slot.IsFirstUnfit slots ∧ error = slot.refusal := by
  simp only [← find?_eq_some_iff_isFirstUnfit]
  unfold inSlots
  split
  · next slot hslot => simp [hslot, eq_comm]
  · next hnone => simp [hnone]

/-- Two writers, one after the other, go through `first ++ second`. -/
theorem inSlots_bind {a : α} {b : β} {next : α → Except ProgramError β} (h : next a = inSlots second b) :
    (inSlots first a >>= next) = inSlots (first ++ second) b := by
  unfold inSlots at h ⊢
  rw [List.find?_append]
  cases first.find? (!decide ·.Fits) with
  | some slot => rfl
  | none => exact h

theorem inSlots_map {a : α} {b : β} {next : α → Except ProgramError β} (h : next a = .ok b) :
    (inSlots slots a >>= next) = inSlots slots b := by
  have hnext : next a = inSlots [] b := h
  rw [inSlots_bind hnext, List.append_nil]

theorem mapM_eq_inSlots {write : α → Except ProgramError β} {slotsOf : α → List FixedSlot} {units : α → β}
    (h : ∀ a, write a = inSlots (slotsOf a) (units a)) (list : List α) :
    list.mapM write = inSlots (list.flatMap slotsOf) (list.map units) := by
  induction list with
  | nil => rfl
  | cons a rest ih =>
    rw [List.mapM_cons, h, ih, List.flatMap_cons, List.map_cons]
    apply inSlots_bind
    apply inSlots_map
    rfl

/-- `writeFixed` takes one `plain` slot. -/
theorem writeFixed_eq_inSlots {width : Nat} (h : width ≤ 9) (value : Nat) :
    writeFixed width value = inSlots [.plain width value] (fixedGroups width value) := by
  have hmax : fixedMax width < value ↔ 128 ^ width ≤ value := fixedMax_lt_iff h
  unfold writeFixed
  by_cases hvalue : value < 128 ^ width
  · have hfits : (FixedSlot.plain width value).Fits := hvalue
    rw [if_neg (by omega), inSlots_of_fits (List.forall_mem_singleton.2 hfits)]
  · have hunfit : ¬(FixedSlot.plain width value).Fits := hvalue
    rw [if_pos (by omega), inSlots_of_not_fits hunfit]
    rfl

end Program

/-! ## Records -/

/-- The slot of a presence, with the limit for its case. -/
def Presence.slot : Presence → FixedSlot
  | none => .plain 2 0
  | hasBit index => ⟨index, 2, 0x1FFF⟩
  | oneofSlot offset => ⟨offset, 2, 0x2000⟩

theorem Presence.slot_fits_iff {presence : Presence} : presence.slot.Fits ↔ presence.Fits := by
  cases presence with
  | none => simp [slot, FixedSlot.plain_fits_iff, Fits]
  | hasBit index => rfl
  | oneofSlot offset => rfl

/-- A presence is judged before it becomes 14 bits, and those are never too many for its slot. -/
theorem Presence.encode_bind_writeFixed (presence : Presence) :
    (presence.encode >>= writeFixed 2) = inSlots [presence.slot] (fixedGroups 2 presence.raw) := by
  by_cases h : presence.Fits
  · rw [encode_eq_ok_iff.2 ⟨h, rfl⟩, inSlots_of_fits (List.forall_mem_singleton.2 (slot_fits_iff.2 h))]
    exact (writesExactly_writeFixed (by decide) _ _).2 ⟨raw_lt h, rfl⟩
  · rw [inSlots_of_not_fits (mt slot_fits_iff.1 h)]
    cases presence with
    | none => exact absurd trivial h
    | hasBit index =>
      have hindex : ¬index < 0x1FFF := h
      rw [encode, if_neg hindex]
      rfl
    | oneofSlot offset =>
      have hoffset : ¬offset < 0x2000 := h
      rw [encode, if_neg hoffset]
      rfl

namespace FieldRecord

/-- The slots of a record. -/
def slots (record : FieldRecord) : List FixedSlot :=
  [⟨record.number, 5, numberLimit⟩, .plain 3 record.offset, record.presence.slot,
    .plain 2 record.submessage, .plain 1 record.type.tag]

theorem write_eq_inSlots (record : FieldRecord) : record.write = inSlots record.slots record.units := by
  unfold write
  by_cases hnumber : record.number < numberLimit
  · -- A number within its limit leaves room for the mode above it.
    rw [if_neg (by omega)]
    have hfits : (FixedSlot.mk record.number 5 numberLimit).Fits := hnumber
    have htagged : writeFixed 5 record.tagged
        = inSlots [⟨record.number, 5, numberLimit⟩] (fixedGroups 5 record.tagged) := by
      rw [inSlots_of_fits (List.forall_mem_singleton.2 hfits)]
      exact (writesExactly_writeFixed (by decide) _ _).2 ⟨tagged_lt hnumber, rfl⟩
    show (do
      let number ← writeFixed 5 record.tagged
      let offset ← writeFixed 3 record.offset
      let bits ← record.presence.encode
      let presence ← writeFixed 2 bits
      let submessage ← writeFixed 2 record.submessage
      let type ← writeFixed 1 record.type.tag
      return number ++ offset ++ presence ++ submessage ++ type) = _
    rw [htagged, writeFixed_eq_inSlots (by decide)]
    apply inSlots_bind
    apply inSlots_bind
    -- The presence and its slot are judged together.
    rw [← bind_assoc, Presence.encode_bind_writeFixed]
    apply inSlots_bind
    rw [writeFixed_eq_inSlots (by decide), writeFixed_eq_inSlots (by decide)]
    apply inSlots_bind
    exact inSlots_map rfl
  · have hunfit : ¬(FixedSlot.mk record.number 5 numberLimit).Fits := hnumber
    rw [if_pos (by omega), slots, inSlots_of_not_fits hunfit]
    rfl

/-- What it takes for all slots of a record to fit. -/
theorem slots_fit_iff {record : FieldRecord} : (∀ slot ∈ record.slots, slot.Fits) ↔
    record.number < 2 ^ 29 ∧ record.offset < 2 ^ 21 ∧
      (∀ index, record.presence = .hasBit index → index < 0x1FFF) ∧
      (∀ offset, record.presence = .oneofSlot offset → offset < 0x2000) ∧ record.submessage < 2 ^ 14 := by
  have htype := record.type.tag_lt
  have hpresence : record.presence.slot.Fits ↔
      (∀ index, record.presence = .hasBit index → index < 0x1FFF) ∧
        ∀ offset, record.presence = .oneofSlot offset → offset < 0x2000 := by
    rw [Presence.slot_fits_iff]
    cases record.presence <;> simp [Presence.Fits]
  unfold slots
  simp only [List.forall_mem_cons, hpresence, FixedSlot.plain_fits_iff]
  simp [FixedSlot.Fits, numberLimit, htype]
  tauto

end FieldRecord

/-! ## Plans -/

namespace LayoutPlan

/-- The slots of the header of a plan. -/
def headerSlots (plan : LayoutPlan) : List FixedSlot :=
  [.plain 1 version, .plain 3 plan.size, .plain 3 plan.records.length, .plain 3 plan.requiredCount,
    .plain 3 plan.explicitCount, .plain 3 plan.denseBelow]

/-- The slots of a plan, in the order of its program. -/
def slots (plan : LayoutPlan) : List FixedSlot :=
  plan.headerSlots ++ plan.records.flatMap FieldRecord.slots

theorem writeHeader_eq_inSlots (plan : LayoutPlan) :
    plan.writeHeader = inSlots plan.headerSlots (plan.headerUnits plan.records.length) := by
  unfold writeHeader
  simp only [writeFixed_eq_inSlots (show 1 ≤ 9 by decide), writeFixed_eq_inSlots (show 3 ≤ 9 by decide)]
  apply inSlots_bind
  apply inSlots_bind
  apply inSlots_bind
  apply inSlots_bind
  apply inSlots_bind
  exact inSlots_map rfl

theorem encode_eq_inSlots (plan : LayoutPlan) : plan.encode = inSlots plan.slots plan.units := by
  unfold encode
  rw [writeHeader_eq_inSlots, mapM_eq_inSlots FieldRecord.write_eq_inSlots]
  apply inSlots_bind
  exact inSlots_map rfl

/-- What it takes for all slots of a plan to fit. -/
theorem slots_fit_iff {plan : LayoutPlan} : (∀ slot ∈ plan.slots, slot.Fits) ↔
    plan.size < 2 ^ 21 ∧ plan.records.length < 2 ^ 21 ∧ plan.requiredCount < 2 ^ 21 ∧
      plan.explicitCount < 2 ^ 21 ∧ plan.denseBelow < 2 ^ 21 ∧
      ∀ record ∈ plan.records, ∀ slot ∈ record.slots, slot.Fits := by
  unfold slots headerSlots
  simp only [List.forall_mem_append, List.forall_mem_cons, List.forall_mem_flatMap,
    FixedSlot.plain_fits_iff]
  simp [version]
  tauto

/-- A program of a plan has 16 units and 13 for each record. -/
theorem length_units (plan : LayoutPlan) : plan.units.length = 16 + 13 * plan.records.length := by
  have hrecords : (plan.records.flatMap FieldRecord.units).length = 13 * plan.records.length := by
    rw [List.length_flatMap]
    simp only [FieldRecord.length_units, List.map_const', List.sum_replicate_nat]
    omega
  have hheader : (plan.headerUnits plan.records.length).length = 16 := by
    simp only [headerUnits, List.length_append, length_fixedGroups]
  rw [units, List.length_append, hheader, hrecords]

/-- All units of a plan are below 128. -/
theorem toNat_lt_of_mem_units {plan : LayoutPlan} {unit : Char} (h : unit ∈ plan.units) :
    unit.toNat < 0x80 := by
  simp only [units, headerUnits, FieldRecord.units, List.mem_append, List.mem_flatMap] at h
  rcases h with (((((h | h) | h) | h) | h) | h) | ⟨record, _, (((h | h) | h) | h) | h⟩ <;>
    exact toNat_lt_of_mem_fixedGroups h

/-- `encode` writes a program exactly if all numbers are below their limits, and else fails with `.overflow` of
the first slot that is not. A program has 16 units and 13 for each record, all below 128, and `decode` gives the
plan back. -/
theorem encode_or_refuse (plan : LayoutPlan) :
    ((∃ program, plan.encode = .ok program) ↔
        plan.size < 2 ^ 21 ∧ plan.records.length < 2 ^ 21 ∧ plan.requiredCount < 2 ^ 21 ∧
          plan.explicitCount < 2 ^ 21 ∧ plan.denseBelow < 2 ^ 21 ∧
          ∀ record ∈ plan.records, record.number < 2 ^ 29 ∧ record.offset < 2 ^ 21 ∧
            (∀ index, record.presence = .hasBit index → index < 0x1FFF) ∧
            (∀ offset, record.presence = .oneofSlot offset → offset < 0x2000) ∧
            record.submessage < 2 ^ 14) ∧
      (∀ error, plan.encode = .error error ↔
        ∃ slot : FixedSlot, slot.IsFirstUnfit plan.slots ∧ error = .overflow slot.value slot.width) ∧
      ∀ program, plan.encode = .ok program →
        program.length = 16 + 13 * plan.records.length ∧ (∀ unit ∈ program, unit.toNat < 0x80) ∧
          decode program = .ok plan := by
  refine ⟨?_, ?_, ?_⟩
  · simp only [← FieldRecord.slots_fit_iff, ← slots_fit_iff]
    simp only [encode_eq_inSlots, inSlots_eq_ok_iff, exists_and_left, exists_eq', and_true]
  · intro error
    rw [encode_eq_inSlots, inSlots_eq_error_iff]
    rfl
  · intro program hprogram
    obtain ⟨hfits, rfl⟩ := (writesExactly_encode plan program).1 hprogram
    refine ⟨length_units plan, ?_, decode_eq_ok_iff.2 ⟨hfits, rfl⟩⟩
    intro unit hunit
    exact toNat_lt_of_mem_units hunit

/-- The second record has a has-bit and a submessage beyond their limits; the has-bit comes first. Without it,
the plan has a program. -/
theorem encode_or_refuse_hasBit :
    let first : LayoutPlan := {
      size := 12, denseBelow := 3
      records := [
        { number := 1, mode := {}, offset := 4, presence := .oneofSlot 0x1FFF, submessage := 0,
          type := .int32 }] }
    let second : LayoutPlan := { first with
      records := first.records ++ [
        { number := 2, mode := {}, offset := 8, presence := .hasBit 0x1FFF, submessage := 0x4000,
          type := .message }] }
    (∃ program, first.encode = .ok program ∧ program.length = 29) ∧
      second.encode = .error (.overflow 0x1FFF 2) := by
  intro first second
  constructor
  · have hfirst : first.encode = .ok first.units := rfl
    exact ⟨first.units, hfirst, ((encode_or_refuse first).2.2 _ hfirst).1⟩
  · rw [(encode_or_refuse second).2.1]
    refine ⟨⟨0x1FFF, 2, 0x1FFF⟩, ⟨second.slots.take 13, second.slots.drop 14, rfl, ?_, ?_⟩, rfl⟩
    · decide
    · decide

end LayoutPlan

end SchemaLayout
