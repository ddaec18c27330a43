import Mathlib.Algebra.BigOperators.Fin
import Mathlib.Data.Nat.Size
import SchemaLayout.Proofs.Program.Slot

/-!
# Numbers of free width

Each group of a number has a place six bits above the one before it, and the last group is the one without a mark. So
where a number ends does not depend on what stands behind it, and any groups make a number, however many there are
(`readVarint_append`). A machine reads them into a word and counts up to where the next group has its place: the group
there loses the bits for which the word has no room, and groups further up are left out altogether. This comes to the
sum of all groups modulo `2 ^ 64` (`map_readVarintFrom`), as long as the count does not outgrow its own 32 bits.
-/

namespace SchemaLayout.Program

/-! ## Writing -/

theorem toNat_and_mask (value : UInt64) : (value &&& 0x3F).toNat = value.toNat % 64 := by
  rw [UInt64.toNat_and]
  exact Nat.and_two_pow_sub_one_eq_mod value.toNat 6

theorem toNat_shiftRight_six (value : UInt64) : (value >>> 6).toNat = value.toNat / 64 := by
  rw [UInt64.toNat_shiftRight]
  exact Nat.shiftRight_eq_div_pow value.toNat 6

theorem toNat_or_mark {group : UInt64} (h : group.toNat < 64) : (group ||| 0x40).toNat = 64 + group.toNat := by
  have hadd : 2 ^ 6 * 1 + group.toNat = 2 ^ 6 * 1 ||| group.toNat := Nat.two_pow_add_eq_or_of_lt h 1
  rw [UInt64.toNat_or, Nat.or_comm]
  exact hadd.symm

/-- Puts a number of free width behind a text. -/
def appendVarint (value : UInt64) (text : Program) : Program :=
  if 0x3F < value then appendVarint (value >>> 6) (text ++ [wordUnit (value &&& 0x3F ||| 0x40)])
  else text ++ [wordUnit value]
termination_by value.toNat
decreasing_by
  next hlarge =>
    have hvalue : 63 < value.toNat := UInt64.lt_iff_toNat_lt.1 hlarge
    rw [toNat_shiftRight_six]
    omega

/-- `appendVarint` on words writes what `writeVarint` does. -/
theorem appendVarint_eq (value : UInt64) (text : Program) :
    appendVarint value text = text ++ writeVarint value.toNat := by
  induction value, text using appendVarint.induct with
  | case1 value text hlarge ih =>
    have hvalue : 63 < value.toNat := UInt64.lt_iff_toNat_lt.1 hlarge
    have hlow : (value &&& 0x3F).toNat < 64 := by
      rw [toNat_and_mask]
      exact Nat.mod_lt _ (by decide)
    -- The six lowest bits with the mark are the unit that `writeVarint` puts first.
    have hunit : wordUnit (value &&& 0x3F ||| 0x40) = groupUnit (64 + value.toNat % 64) := by
      rw [wordUnit_eq (by rw [toNat_or_mark hlow]; omega), toNat_or_mark hlow, toNat_and_mask]
    rw [appendVarint, if_pos hlarge, ih, toNat_shiftRight_six, hunit, List.append_assoc, List.singleton_append,
      writeVarint.eq_def value.toNat, if_neg (by omega)]
  | case2 value text hsmall =>
    have hvalue : value.toNat < 64 := by
      have hle : ¬ 63 < value.toNat := fun hlarge => hsmall (UInt64.lt_iff_toNat_lt.2 hlarge)
      omega
    rw [appendVarint, if_neg hsmall, wordUnit_eq (by omega), writeVarint, if_pos hvalue]

/-! ## Lengths -/

/-- Without its lowest group, a number has six bits less. -/
theorem size_eq_size_div {value : Nat} (h : 64 ≤ value) : value.size = (value / 64).size + 6 := by
  have hle (bits : Nat) : value.size ≤ bits + 6 ↔ (value / 64).size ≤ bits := by
    rw [Nat.size_le, Nat.size_le, Nat.div_lt_iff_lt_mul (by decide), Nat.pow_add]
  have hsix : 6 ≤ value.size := Nat.le_of_lt (Nat.lt_size.2 h)
  have hlower := (hle (value / 64).size).2 (Nat.le_refl _)
  have hupper := (hle (value.size - 6)).1 (by omega)
  omega

/-- `writeVarint` takes one group for every six bits or part of them, and one for zero. -/
theorem length_writeVarint (value : Nat) : (writeVarint value).length = max 1 ((value.size + 5) / 6) := by
  induction value using Nat.strongRecOn with
  | ind value ih =>
    rw [writeVarint]
    by_cases hsmall : value < 64
    · have hsize : value.size ≤ 6 := Nat.size_le.2 hsmall
      rw [if_pos hsmall, List.length_singleton]
      omega
    · have hsize := size_eq_size_div (Nat.le_of_not_lt hsmall)
      have hpos : 0 < (value / 64).size := Nat.size_pos.2 (by omega)
      rw [if_neg hsmall, List.length_cons, ih (value / 64) (by omega)]
      omega

/-! ## Reading -/

/-- The number that groups of six bits make, the lowest first. -/
def groupSum (units : Program) : Nat :=
  ∑ i : Fin units.length, units[i].toNat % 64 * 64 ^ (i : Nat)

theorem groupSum_cons (unit : Char) (others : Program) :
    groupSum (unit :: others) = unit.toNat % 64 + 64 * groupSum others := by
  have hplace (digit place : Nat) : digit * 64 ^ (place + 1) = 64 * (digit * 64 ^ place) := by
    rw [Nat.pow_succ, ← Nat.mul_assoc, Nat.mul_comm]
  have hsplit : groupSum (unit :: others) = unit.toNat % 64 * 64 ^ 0 +
      ∑ i : Fin others.length, others[i].toNat % 64 * 64 ^ ((i : Nat) + 1) :=
    Fin.sum_univ_succ _
  rw [hsplit, Nat.pow_zero, Nat.mul_one]
  simp only [hplace, ← Finset.mul_sum]
  rfl

/-- `readVarint` of groups of which only the last has no mark is `groupSum`, modulo `wordLimit`. -/
theorem readVarint_append {front : Program} {last : Char}
    (hfront : ∀ unit ∈ front, 0x40 ≤ unit.toNat ∧ unit.toNat < 0x80) (hlast : last.toNat < 0x40) (rest : Program) :
    readVarint (front ++ last :: rest) = .ok (groupSum (front ++ [last]) % wordLimit) rest := by
  induction front with
  | nil =>
    have hsum : groupSum ([] ++ [last]) = last.toNat := by
      rw [List.nil_append, groupSum_cons, Nat.mod_eq_of_lt hlast]
      rfl
    rw [hsum, List.nil_append, readVarint, if_pos hlast, Nat.mod_eq_of_lt (Nat.lt_trans hlast (by decide))]
  | cons unit others ih =>
    obtain ⟨⟨hmarked, hunit⟩, hothers⟩ := List.forall_mem_cons.1 hfront
    have hgroup : unit.toNat % 64 = unit.toNat - 64 := by omega
    -- The rest is cut off at a word before it is shifted, which the cut afterwards does not notice.
    have hmod (higher : Nat) : (unit.toNat - 64 + 64 * (higher % wordLimit)) % wordLimit =
        (unit.toNat - 64 + 64 * higher) % wordLimit :=
      ((Nat.mod_modEq higher wordLimit).mul_left 64).add_left (unit.toNat - 64)
    rw [List.cons_append, readVarint, if_neg (by omega), if_pos hunit, ih hothers, List.cons_append, groupSum_cons,
      hgroup]
    simp only [hmod]

/-! ## Reading on words -/

/-- Adds the bits of a group to a word at the place `shift`. A group above the word is left out. -/
def addGroup (shift : UInt32) (value group : UInt64) : UInt64 :=
  if shift < 64 then value ||| (group &&& 0x3F) <<< shift.toUInt64 else value

/-- Reads a number of free width on a word, where `shift` is the place of the next group. -/
def readVarintFrom : (shift : UInt32) → (value : UInt64) → Reader UInt64
  | _, _, [] => .error .unexpectedEnd []
  | shift, value, unit :: rest =>
    if unit.toNat < 128 then
      let group := unit.toNat.toUInt64
      let value := addGroup shift value group
      if group &&& 0x40 = 0 then .ok value rest else readVarintFrom (shift + 6) value rest
    else .error (.invalidUnit unit) rest

/-- Reads a number of free width on a word. -/
def readVarintWord : Reader UInt64 :=
  readVarintFrom 0 0

/-- The mark of a group is its bit `0x40`. -/
theorem and_mark_eq_zero_iff : ∀ group < 128, group.toUInt64 &&& 0x40 = 0 ↔ group < 64 := by
  decide

/-- `addGroup` adds a group at its place, modulo `wordLimit`. -/
theorem toNat_addGroup {shift : UInt32} {value : UInt64} {group : Nat} (hvalue : value.toNat < 2 ^ shift.toNat)
    (hgroup : group < 128) :
    (addGroup shift value group.toUInt64).toNat = (value.toNat + 2 ^ shift.toNat * (group % 64)) % wordLimit := by
  have hword : group.toUInt64.toNat = group := by
    rw [Nat.toUInt64_eq, UInt64.toNat_ofNat']
    omega
  rw [addGroup]
  by_cases hshift : shift < 64
  · have hlt : shift.toUInt64.toNat < 64 := by
      rw [UInt32.toNat_toUInt64]
      exact UInt32.lt_iff_toNat_lt.1 hshift
    rw [if_pos hshift, toNat_or_shiftLeft hlt hvalue, toNat_and_mask, hword]
    rfl
  · -- All places of the group are above the word.
    have hle : 64 ≤ shift.toNat := Nat.le_of_not_lt fun hlt => hshift (UInt32.lt_iff_toNat_lt.2 hlt)
    obtain ⟨above, habove⟩ : wordLimit ∣ 2 ^ shift.toNat * (group % 64) :=
      Nat.dvd_mul_right_of_dvd (Nat.pow_dvd_pow 2 hle) _
    rw [if_neg hshift, habove, Nat.add_mul_mod_self_left]
    exact (Nat.mod_eq_of_lt value.toNat_lt).symm

section

variable {shift : UInt32} {value : UInt64} {unit : Char} {rest : Program}

/-- A unit without mark is the last group. -/
theorem readVarintFrom_cons_of_last (h : unit.toNat < 64) :
    readVarintFrom shift value (unit :: rest) = .ok (addGroup shift value unit.toNat.toUInt64) rest := by
  have hunit : unit.toNat < 128 := by omega
  have hmark := (and_mark_eq_zero_iff unit.toNat hunit).2 h
  rw [readVarintFrom, if_pos hunit]
  exact if_pos hmark

/-- After a unit with a mark, the reader goes on six bits higher. -/
theorem readVarintFrom_cons_of_marked (hmarked : 64 ≤ unit.toNat) (hunit : unit.toNat < 128) :
    readVarintFrom shift value (unit :: rest) =
      readVarintFrom (shift + 6) (addGroup shift value unit.toNat.toUInt64) rest := by
  have hmark : ¬ unit.toNat.toUInt64 &&& 0x40 = 0 := fun hzero =>
    Nat.not_lt.2 hmarked ((and_mark_eq_zero_iff unit.toNat hunit).1 hzero)
  rw [readVarintFrom, if_pos hunit]
  exact if_neg hmark

end

theorem map_apply {α β : Type} (f : α → β) (read : Reader α) (program : Program) :
    (f <$> read) program =
      match read program with
      | .ok a rest => .ok (f a) rest
      | .error error rest => .error error rest := by
  show EStateM.map f read program = _
  unfold EStateM.map
  cases read program <;> rfl

/-- The units at the front of a program that say that more of them follow. -/
def markedFront (program : Program) : Program :=
  program.takeWhile fun unit => 0x40 ≤ unit.toNat ∧ unit.toNat < 0x80

/-- `readVarintFrom` adds what `readVarint` reads above `value`, as long as `shift` does not overflow. -/
theorem map_readVarintFrom {shift : UInt32} {value : UInt64} {program : Program}
    (hshift : shift.toNat + 6 * (markedFront program).length < 2 ^ 32) (hvalue : value.toNat < 2 ^ shift.toNat) :
    (UInt64.toNat <$> readVarintFrom shift value) program =
      ((fun higher => (value.toNat + 2 ^ shift.toNat * higher) % wordLimit) <$> readVarint) program := by
  induction program generalizing shift value with
  | nil => rfl
  | cons unit rest ih =>
    rw [map_apply, map_apply, readVarint]
    by_cases hlast : unit.toNat < 64
    · rw [readVarintFrom_cons_of_last hlast, if_pos hlast]
      simp only [toNat_addGroup hvalue (show unit.toNat < 128 by omega), Nat.mod_eq_of_lt hlast]
    · rw [if_neg hlast]
      by_cases hunit : unit.toNat < 128
      · have hcount : (markedFront (unit :: rest)).length = (markedFront rest).length + 1 := by
          rw [markedFront, List.takeWhile_cons_of_pos (by simp; omega), List.length_cons, markedFront]
        have hplace : (shift + 6).toNat = shift.toNat + 6 := by
          rw [UInt32.toNat_add]
          exact Nat.mod_eq_of_lt (by simp; omega)
        have hpow : 2 ^ (shift.toNat + 6) = 2 ^ shift.toNat * 64 := Nat.pow_add 2 shift.toNat 6
        have hadd := toNat_addGroup hvalue hunit
        have hnext : (addGroup shift value unit.toNat.toUInt64).toNat < 2 ^ (shift + 6).toNat := by
          rw [hadd, hplace, hpow]
          exact Nat.lt_of_le_of_lt (Nat.mod_le _ _) (add_place_lt hvalue (Nat.mod_lt _ (by decide)))
        -- The rest goes on with the group added, six places further up.
        have hrest := ih (by omega) hnext
        rw [map_apply, map_apply, hplace, hadd, hpow] at hrest
        rw [readVarintFrom_cons_of_marked (Nat.le_of_not_lt hlast) hunit, hrest, if_pos hunit]
        have hgroup : unit.toNat % 64 = unit.toNat - 64 := by omega
        cases readVarint rest with
        | ok higher rest => simp only [hgroup, add_place_mod]
        | error error rest => rfl
      · rw [readVarintFrom, if_neg hunit, if_neg hunit]

theorem map_mod_readVarint (program : Program) : ((· % wordLimit) <$> readVarint) program = readVarint program := by
  rw [map_apply]
  cases hread : readVarint program with
  | ok value rest => simp only [Nat.mod_eq_of_lt (lt_wordLimit_of_readVarint hread)]
  | error error rest => rfl

/-- `readVarintWord` is `readVarint` for fewer than `2 ^ 29` groups. -/
theorem map_readVarintWord {program : Program} (h : (markedFront program).length + 1 < 2 ^ 29) :
    (UInt64.toNat <$> readVarintWord) program = readVarint program := by
  have hshift : (0 : UInt32).toNat + 6 * (markedFront program).length < 2 ^ 32 := by
    rw [UInt32.toNat_zero]
    omega
  rw [readVarintWord, map_readVarintFrom hshift (by decide)]
  simp only [UInt64.toNat_zero, UInt32.toNat_zero, Nat.pow_zero, Nat.one_mul, Nat.zero_add]
  exact map_mod_readVarint program

/-! ## Numbers of free width -/

/-- `readVarint` reads back `writeVarint`, whatever stands behind, and that takes one group for every six bits,
at least one. Any groups of which only the last has no mark are read as `groupSum`, modulo `2 ^ 64`. On words,
`appendVarint` writes the same, and `readVarintWord` reads the same for fewer than `2 ^ 29` groups. -/
theorem varints_areExact :
    (∀ (value : UInt64) (text rest : Program), appendVarint value text = text ++ writeVarint value.toNat ∧
      readVarint (writeVarint value.toNat ++ rest) = .ok value.toNat rest ∧
      (writeVarint value.toNat).length = max 1 ((value.toNat.size + 5) / 6)) ∧
    (∀ (front : Program) (last : Char), (∀ unit ∈ front, 0x40 ≤ unit.toNat ∧ unit.toNat < 0x80) → last.toNat < 0x40 →
      ∀ rest, readVarint (front ++ last :: rest) = .ok (groupSum (front ++ [last]) % 2 ^ 64) rest) ∧
    ∀ program, (markedFront program).length + 1 < 2 ^ 29 →
      (UInt64.toNat <$> readVarintWord) program = readVarint program := by
  refine ⟨fun value text rest => ⟨appendVarint_eq value text, ?_, length_writeVarint value.toNat⟩, ?_, ?_⟩
  · exact reads_readVarint value.toNat_lt rest
  · exact fun front last hfront hlast rest => readVarint_append hfront hlast rest
  · exact fun program h => map_readVarintWord h

/-- Twelve groups have more bits than a word, and what is above it is lost. -/
theorem varints_areExact_overlong :
    readVarint (List.replicate 11 '\x7F' ++ '\x01' :: ['a']) = .ok 0xFFFFFFFFFFFFFFFF ['a'] ∧
      (UInt64.toNat <$> readVarintWord) (List.replicate 11 '\x7F' ++ '\x01' :: ['a']) =
        .ok 0xFFFFFFFFFFFFFFFF ['a'] := by
  obtain ⟨_, hsum, hword⟩ := varints_areExact
  have hread := hsum (List.replicate 11 '\x7F') '\x01' (by simp) (by decide) ['a']
  have hvalue : groupSum (List.replicate 11 '\x7F' ++ ['\x01']) % 2 ^ 64 = 0xFFFFFFFFFFFFFFFF := by decide
  rw [hvalue] at hread
  exact ⟨hread, (hword _ (by decide)).trans hread⟩

end SchemaLayout.Program
