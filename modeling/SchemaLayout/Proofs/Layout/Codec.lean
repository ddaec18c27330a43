import SchemaLayout.Layout.Plan
import SchemaLayout.Proofs.Program.Fixed

/-!
# Programs of layout plans

Which plans have a program, which units these programs consist of, and that reading takes exactly these
units apart again. Bottom up, each part of a plan gets a predicate `Fits`, the units that stand for it,
and one equivalence for its writer and one for its reader:

* the slot of a number carries the mode above 29 bits, and the two do not meet because a mode has no
  lowest bit (`FieldRecord.tagged_mod`, `FieldRecord.tagged_div`);
* a presence fills 14 bits: has-bits count up from one, slots of oneofs count down from the top, and they
  fit as long as they do not meet (`Presence.decode_raw`, `Presence.raw_decode`);
* records and plans are sequences of slots.

So writing and reading are inverse to each other in both directions (`LayoutPlan.encode_decode_inverse`).
-/

namespace SchemaLayout

open Program

/-! ## Modes and types -/

namespace FieldMode

theorem bits_lt (mode : FieldMode) : mode.bits < 32 := by
  obtain ⟨cardinality, isPacked, isExtension⟩ := mode
  cases cardinality <;> cases isPacked <;> cases isExtension <;> decide

/-- The lowest bit of `mode.bits` is 0. -/
theorem bits_div_mul (mode : FieldMode) : mode.bits / 2 * 2 = mode.bits := by
  obtain ⟨cardinality, isPacked, isExtension⟩ := mode
  cases cardinality <;> cases isPacked <;> cases isExtension <;> rfl

theorem ofBits_eq_ok_iff {bits : Nat} {mode : FieldMode} :
    ofBits bits = .ok mode ↔ mode.bits = bits := by
  constructor
  · intro h
    rw [ofBits] at h
    split at h
    · next found hfound =>
      cases h
      simpa using List.find?_some hfound
    · cases h
  · intro h
    subst h
    obtain ⟨cardinality, isPacked, isExtension⟩ := mode
    cases cardinality <;> cases isPacked <;> cases isExtension <;> rfl

end FieldMode

namespace FieldType

theorem tag_lt (type : FieldType) : type.tag < 128 := by
  cases type <;> decide

/-- `ofTag?` is the inverse of `tag`. -/
theorem ofTag?_eq_some_iff {tag : Nat} {type : FieldType} :
    ofTag? tag = some type ↔ type.tag = tag := by
  constructor
  · intro h
    simpa using List.find?_some h
  · intro h
    subst h
    cases type <;> rfl

end FieldType

/-! ## Presence -/

namespace Presence

/-- The limits below which has-bits and slots do not meet: `0x1FFF` and `0x2000`. -/
def Fits : Presence → Prop
  | none => True
  | hasBit index => index < 0x1FFF
  | oneofSlot offset => offset < 0x2000

/-- The 14 bits of a presence that fits. -/
def raw : Presence → Nat
  | none => 0
  | hasBit index => index + 1
  | oneofSlot offset => 0x3FFF - offset

/-- `encode` gives `raw` for exactly the presences that fit. -/
theorem encode_eq_ok_iff {presence : Presence} {bits : Nat} :
    presence.encode = .ok bits ↔ presence.Fits ∧ bits = presence.raw := by
  cases presence with
  | none => simp [encode, Fits, raw, eq_comm]
  | hasBit index =>
    by_cases h : index < 0x1FFF
    · simp [encode, Fits, raw, h, eq_comm]
    · simp [encode, Fits, h]
  | oneofSlot offset =>
    by_cases h : offset < 0x2000
    · simp [encode, Fits, raw, h, eq_comm]
    · simp [encode, Fits, h]

theorem raw_lt {presence : Presence} (h : presence.Fits) : presence.raw < 0x4000 := by
  cases presence with
  | none => decide
  | hasBit index => simp only [Fits] at h; simp only [raw]; omega
  | oneofSlot offset => simp only [raw]; omega

/-- `decode` is a left inverse of `raw`. -/
theorem decode_raw {presence : Presence} (h : presence.Fits) : decode presence.raw = presence := by
  cases presence with
  | none => rfl
  | hasBit index =>
    simp only [Fits] at h
    -- Bits are written from 1 on and slots downwards from `0x3FFF`, so the halves of the range tell them apart.
    show decode (index + 1) = hasBit index
    simp only [decode]
    rw [if_neg (by omega), if_pos (by omega)]
    congr 1
    omega
  | oneofSlot offset =>
    simp only [Fits] at h
    show decode (0x3FFF - offset) = oneofSlot offset
    simp only [decode]
    rw [if_neg (by omega), if_neg (by omega)]
    congr 1
    omega

/-- `raw` is a left inverse of `decode`, below `0x4000`. -/
theorem raw_decode {bits : Nat} (h : bits < 0x4000) :
    (decode bits).Fits ∧ (decode bits).raw = bits := by
  simp only [decode, Nat.mod_eq_of_lt h]
  split
  · next hzero => exact ⟨trivial, hzero.symm⟩
  · next hzero =>
    split
    · simp only [Fits, raw]; omega
    · simp only [Fits, raw]; omega

end Presence

/-! ## Records -/

namespace FieldRecord

/-- Every part of the record fits into its slot. -/
structure Fits (record : FieldRecord) : Prop where
  number : record.number < numberLimit
  offset : record.offset < 128 ^ 3
  presence : record.presence.Fits
  submessage : record.submessage < 128 ^ 2

/-- The first slot of a record: its number, with the bits of its mode above. -/
def tagged (record : FieldRecord) : Nat :=
  record.number + record.mode.bits * 0x10000000

/-- The units of a record that fits: five slots, in 13 units. -/
def units (record : FieldRecord) : Program :=
  fixedGroups 5 record.tagged ++ fixedGroups 3 record.offset ++ fixedGroups 2 record.presence.raw
    ++ fixedGroups 2 record.submessage ++ fixedGroups 1 record.type.tag

theorem units_append (record : FieldRecord) (rest : Program) :
    record.units ++ rest = fixedGroups 5 record.tagged ++ (fixedGroups 3 record.offset
      ++ (fixedGroups 2 record.presence.raw ++ (fixedGroups 2 record.submessage
      ++ (fixedGroups 1 record.type.tag ++ rest)))) := by
  simp only [units, List.append_assoc]

theorem length_units (record : FieldRecord) : record.units.length = 13 := by
  simp only [units, List.length_append, length_fixedGroups]

theorem tagged_lt {record : FieldRecord} (h : record.number < numberLimit) :
    record.tagged < 128 ^ 5 := by
  have hbits := record.mode.bits_lt
  simp only [numberLimit] at h
  simp only [tagged]
  omega

/-- `tagged` modulo `numberLimit` is the number. -/
theorem tagged_mod {record : FieldRecord} (h : record.number < numberLimit) :
    record.tagged % numberLimit = record.number := by
  have hbits := record.mode.bits_div_mul
  simp only [numberLimit] at h ⊢
  simp only [tagged]
  omega

/-- `tagged` above `numberLimit` is the mode, without its lowest bit. -/
theorem tagged_div {record : FieldRecord} (h : record.number < numberLimit) :
    record.tagged / numberLimit * 2 = record.mode.bits := by
  have hbits := record.mode.bits_div_mul
  simp only [numberLimit] at h ⊢
  simp only [tagged]
  omega

/-- A slot is put together again from its number and its mode. -/
theorem add_bits_mul {slot bits : Nat} (h : bits = slot / numberLimit * 2) :
    slot % numberLimit + bits * 0x10000000 = slot := by
  simp only [numberLimit] at h ⊢
  omega

/-- `write` writes `units` for records that fit, and fails for all others. -/
theorem writesExactly_write : WritesExactly write Fits units := by
  intro record program
  rw [write]
  -- Numbers are checked before all slots, which alone would let some of them pass.
  by_cases hnumber : numberLimit ≤ record.number
  · rw [if_pos hnumber]
    constructor
    · intro h
      cases h
    · intro h
      rcases h with ⟨hfits, _⟩
      have := hfits.number
      omega
  · rw [if_neg hnumber]
    have hnumber : record.number < numberLimit := by omega
    simp only [except_bind_eq_ok_iff, Presence.encode_eq_ok_iff,
      writesExactly_writeFixed (show 5 ≤ 9 by decide) _ _,
      writesExactly_writeFixed (show 3 ≤ 9 by decide) _ _,
      writesExactly_writeFixed (show 2 ≤ 9 by decide) _ _,
      writesExactly_writeFixed (show 1 ≤ 9 by decide) _ _]
    constructor
    · intro h
      rcases h with ⟨_, ⟨_, rfl⟩, _, ⟨hoffset, rfl⟩, _, ⟨hpresence, rfl⟩, _, ⟨_, rfl⟩, _, ⟨hsub, rfl⟩,
        _, ⟨_, rfl⟩, hprogram⟩
      cases hprogram
      exact ⟨⟨hnumber, hoffset, hpresence, hsub⟩, rfl⟩
    · intro h
      rcases h with ⟨hfits, rfl⟩
      exact ⟨_, ⟨tagged_lt hnumber, rfl⟩, _, ⟨hfits.offset, rfl⟩, _, ⟨hfits.presence, rfl⟩,
        _, ⟨Presence.raw_lt hfits.presence, rfl⟩, _, ⟨hfits.submessage, rfl⟩,
        _, ⟨record.type.tag_lt, rfl⟩, rfl⟩

/-- `read` reads exactly the `units` of records that fit. -/
theorem readsExactly_read : ReadsExactly read Fits units := by
  intro program record rest
  simp only [read, bind_eq_ok_iff, ofExcept_eq_ok_iff, FieldMode.ofBits_eq_ok_iff,
    readsExactly_readFixed (show 5 ≤ 9 by decide) _ _ _,
    readsExactly_readFixed (show 3 ≤ 9 by decide) _ _ _,
    readsExactly_readFixed (show 2 ≤ 9 by decide) _ _ _,
    readsExactly_readFixed (show 1 ≤ 9 by decide) _ _ _]
  constructor
  · intro h
    rcases h with ⟨slot, _, ⟨hslot, rfl⟩, offset, _, ⟨hoffset, rfl⟩, bits, _, ⟨hbits, rfl⟩,
      submessage, _, ⟨hsub, rfl⟩, tag, _, ⟨htag, rfl⟩, mode, _, ⟨hmode, rfl⟩, h⟩
    -- Of all slots that fit, only that of the type may still be refused.
    cases htype : FieldType.ofTag? tag with
    | none =>
      rw [htype] at h
      exact absurd h throw_ne_ok
    | some type =>
      rw [htype, pure_eq_ok_iff] at h
      obtain ⟨rfl, rfl⟩ := h
      obtain ⟨hpresence, hraw⟩ := Presence.raw_decode hbits
      have hnumber : slot % numberLimit < numberLimit := Nat.mod_lt _ (by decide)
      refine ⟨⟨hnumber, hoffset, hpresence, hsub⟩, ?_⟩
      simp only [units_append, tagged, add_bits_mul hmode, hraw,
        FieldType.ofTag?_eq_some_iff.1 htype]
  · intro h
    rcases h with ⟨hfits, rfl⟩
    refine ⟨record.tagged, _, ⟨tagged_lt hfits.number, units_append record rest⟩,
      record.offset, _, ⟨hfits.offset, rfl⟩, _, _, ⟨Presence.raw_lt hfits.presence, rfl⟩,
      record.submessage, _, ⟨hfits.submessage, rfl⟩, record.type.tag, _, ⟨record.type.tag_lt, rfl⟩,
      record.mode, _, ⟨(tagged_div hfits.number).symm, rfl⟩, ?_⟩
    rw [FieldType.ofTag?_eq_some_iff.2 rfl, tagged_mod hfits.number,
      Presence.decode_raw hfits.presence]
    rfl

end FieldRecord

/-! ## Plans -/

namespace LayoutPlan

/-- The numbers in the header of a plan with `count` records are below `128 ^ 3`. -/
structure HeaderFits (plan : LayoutPlan) (count : Nat) : Prop where
  size : plan.size < 128 ^ 3
  count : count < 128 ^ 3
  requiredCount : plan.requiredCount < 128 ^ 3
  explicitCount : plan.explicitCount < 128 ^ 3
  denseBelow : plan.denseBelow < 128 ^ 3

/-- The header of a plan and all its records fit. -/
structure Fits (plan : LayoutPlan) : Prop where
  header : plan.HeaderFits plan.records.length
  records : ∀ record ∈ plan.records, record.Fits

/-- The units of the header of a plan with `count` records. -/
def headerUnits (plan : LayoutPlan) (count : Nat) : Program :=
  fixedGroups 1 version ++ fixedGroups 3 plan.size ++ fixedGroups 3 count
    ++ fixedGroups 3 plan.requiredCount ++ fixedGroups 3 plan.explicitCount
    ++ fixedGroups 3 plan.denseBelow

/-- The units of a plan that fits: `headerUnits` and those of its records. -/
def units (plan : LayoutPlan) : Program :=
  plan.headerUnits plan.records.length ++ plan.records.flatMap FieldRecord.units

theorem headerUnits_append (plan : LayoutPlan) (count : Nat) (rest : Program) :
    plan.headerUnits count ++ rest = fixedGroups 1 version ++ (fixedGroups 3 plan.size
      ++ (fixedGroups 3 count ++ (fixedGroups 3 plan.requiredCount
      ++ (fixedGroups 3 plan.explicitCount ++ (fixedGroups 3 plan.denseBelow ++ rest))))) := by
  simp only [headerUnits, List.append_assoc]

/-! ### Writing -/

theorem writesExactly_writeHeader :
    WritesExactly writeHeader (fun plan => plan.HeaderFits plan.records.length)
      (fun plan => plan.headerUnits plan.records.length) := by
  intro plan program
  simp only [writeHeader, except_bind_eq_ok_iff, writesExactly_writeFixed (show 3 ≤ 9 by decide) _ _,
    writesExactly_writeFixed (show 1 ≤ 9 by decide) _ _]
  constructor
  · intro h
    rcases h with ⟨_, ⟨_, rfl⟩, _, ⟨hsize, rfl⟩, _, ⟨hcount, rfl⟩, _, ⟨hrequired, rfl⟩,
      _, ⟨hexplicit, rfl⟩, _, ⟨hdense, rfl⟩, hprogram⟩
    cases hprogram
    exact ⟨⟨hsize, hcount, hrequired, hexplicit, hdense⟩, rfl⟩
  · intro h
    rcases h with ⟨hfits, rfl⟩
    exact ⟨_, ⟨by decide, rfl⟩, _, ⟨hfits.size, rfl⟩, _, ⟨hfits.count, rfl⟩,
      _, ⟨hfits.requiredCount, rfl⟩, _, ⟨hfits.explicitCount, rfl⟩, _, ⟨hfits.denseBelow, rfl⟩, rfl⟩

/-- `encode` writes `units` for plans that fit, and fails for all others. -/
theorem writesExactly_encode : WritesExactly encode Fits units := by
  intro plan program
  simp only [encode, except_bind_eq_ok_iff, writesExactly_writeHeader _ _,
    FieldRecord.writesExactly_write.mapM_eq_ok_iff]
  constructor
  · intro h
    rcases h with ⟨_, ⟨hheader, rfl⟩, _, ⟨hrecords, rfl⟩, hprogram⟩
    cases hprogram
    exact ⟨⟨hheader, hrecords⟩, rfl⟩
  · intro h
    rcases h with ⟨hfits, rfl⟩
    exact ⟨_, ⟨hfits.header, rfl⟩, _, ⟨hfits.records, rfl⟩, rfl⟩

/-- `encode` writes a program exactly if the plan `Fits`. -/
theorem exists_encode_iff {plan : LayoutPlan} : (∃ program, plan.encode = .ok program) ↔ plan.Fits :=
  writesExactly_encode.exists_iff plan

/-! ### Reading -/

/-- `readHeader` reads `headerUnits`, as a plan without records and the `count` of those that follow. -/
theorem readHeader_eq_ok_iff {program rest : Program} {plan : LayoutPlan} {count : Nat} :
    readHeader program = .ok (plan, count) rest ↔
      plan.records = [] ∧ plan.HeaderFits count ∧ program = plan.headerUnits count ++ rest := by
  rw [readHeader, bind_eq_ok_iff]
  -- The version is compared in between, so it is read apart from the other slots.
  constructor
  · intro h
    rcases h with ⟨found, middle, hversion, h⟩
    by_cases hfound : found = version
    · rw [if_neg (not_not_intro hfound)] at h
      simp only [bind_eq_ok_iff, pure_eq_ok_iff,
        readsExactly_readFixed (show 3 ≤ 9 by decide) _ _ _] at h
      obtain ⟨size, _, ⟨hsize, rfl⟩, fields, _, ⟨hcount, rfl⟩, required, _, ⟨hrequired, rfl⟩,
        explicit, _, ⟨hexplicit, rfl⟩, dense, _, ⟨hdense, rfl⟩, hplan, rfl⟩ := h
      cases hplan
      rw [readsExactly_readFixed (by decide), hfound] at hversion
      exact ⟨rfl, ⟨hsize, hcount, hrequired, hexplicit, hdense⟩, by
        rw [headerUnits_append, hversion.2]⟩
    · rw [if_pos hfound, bind_eq_ok_iff] at h
      obtain ⟨_, _, h, _⟩ := h
      exact absurd h throw_ne_ok
  · intro h
    rcases h with ⟨hrecords, hfits, rfl⟩
    refine ⟨version, _, (readsExactly_readFixed (by decide) _ _ _).2
      ⟨by decide, headerUnits_append plan count rest⟩, ?_⟩
    rw [if_neg (not_not_intro rfl)]
    simp only [bind_eq_ok_iff, pure_eq_ok_iff,
      readsExactly_readFixed (show 3 ≤ 9 by decide) _ _ _]
    refine ⟨_, _, ⟨hfits.size, rfl⟩, _, _, ⟨hfits.count, rfl⟩, _, _, ⟨hfits.requiredCount, rfl⟩,
      _, _, ⟨hfits.explicitCount, rfl⟩, _, _, ⟨hfits.denseBelow, rfl⟩, ?_, rfl⟩
    rw [← hrecords]

/-- `read` reads exactly the `units` of plans that fit. -/
theorem readsExactly_read : ReadsExactly read Fits units := by
  intro program plan rest
  rw [read, bind_eq_ok_iff]
  constructor
  · intro h
    rcases h with ⟨⟨header, count⟩, middle, hheader, h⟩
    obtain ⟨_, hfits, rfl⟩ := readHeader_eq_ok_iff.1 hheader
    obtain ⟨records, _, hmany, hplan⟩ := bind_eq_ok_iff.1 h
    obtain ⟨⟨rfl, hrecords⟩, rfl⟩ := (FieldRecord.readsExactly_read.readMany count _ _ _).1 hmany
    obtain ⟨rfl, rfl⟩ := pure_eq_ok_iff.1 hplan
    -- The records take no part in the header apart from their number.
    exact ⟨⟨⟨hfits.size, hfits.count, hfits.requiredCount, hfits.explicitCount, hfits.denseBelow⟩,
      hrecords⟩, (List.append_assoc _ _ _).symm⟩
  · intro h
    rcases h with ⟨hfits, rfl⟩
    have hheader := hfits.header
    refine ⟨({ plan with records := [] }, plan.records.length), plan.records.flatMap
      FieldRecord.units ++ rest, readHeader_eq_ok_iff.2 ⟨rfl, ⟨hheader.size, hheader.count,
      hheader.requiredCount, hheader.explicitCount, hheader.denseBelow⟩,
      List.append_assoc _ _ _⟩, bind_eq_ok_iff.2 ⟨plan.records, rest, ?_, rfl⟩⟩
    exact (FieldRecord.readsExactly_read.readMany _ _ _ _).2 ⟨⟨rfl, hfits.records⟩, rfl⟩

/-- `decode` takes `plan.units` and nothing behind them. -/
theorem decode_eq_ok_iff {program : Program} {plan : LayoutPlan} :
    decode program = .ok plan ↔ plan.Fits ∧ program = plan.units := by
  have hread : decode program = .ok plan ↔ read program = .ok plan [] := by
    rw [decode]
    split
    · next found h => rw [h]; simp
    · next found unit rest h => rw [h]; simp
    · next error rest h => rw [h]; simp
  rw [hread, readsExactly_read, List.append_nil]

/-- `encode` and `decode` are inverse to each other: `decode` takes back what `encode` writes, and conversely,
the programs that `decode` accepts are those that `encode` writes, and no two of them have the same plan. -/
theorem encode_decode_inverse :
    (∀ (plan : LayoutPlan) (program : Program),
        plan.encode = .ok program → decode program = .ok plan) ∧
      (∀ (program : Program) (plan : LayoutPlan),
        decode program = .ok plan → plan.encode = .ok program) ∧
      (∀ program : Program,
        (∃ plan, decode program = .ok plan) ↔ ∃ plan : LayoutPlan, plan.encode = .ok program) ∧
      ∀ (first second : Program) (plan : LayoutPlan),
        decode first = .ok plan → decode second = .ok plan → first = second := by
  have hiff (plan : LayoutPlan) (program : Program) :
      decode program = .ok plan ↔ plan.encode = .ok program := by
    rw [decode_eq_ok_iff, writesExactly_encode]
  refine ⟨fun plan program => (hiff plan program).2, fun program plan => (hiff plan program).1,
    fun program => exists_congr fun plan => hiff plan program, ?_⟩
  intro first second plan hfirst hsecond
  rw [(decode_eq_ok_iff.1 hfirst).2, (decode_eq_ok_iff.1 hsecond).2]

/-- A plan with an extension's number, and presences at both ends of their range. -/
theorem encode_decode_inverse_extremes :
    let plan : LayoutPlan := {
      size := 262143, requiredCount := 1, explicitCount := 1, denseBelow := 1
      records := [
        { number := 536870911, mode := ⟨.array, true, true⟩, offset := 262142,
          presence := .hasBit 8190, submessage := 0, type := .sint64 },
        { number := 2, mode := {}, offset := 4, presence := .oneofSlot 8191, submessage := 4095,
          type := .message }] }
    ∃ program, plan.encode = .ok program ∧ decode program = .ok plan :=
  ⟨_, rfl, encode_decode_inverse.1 _ _ rfl⟩

end LayoutPlan

end SchemaLayout
