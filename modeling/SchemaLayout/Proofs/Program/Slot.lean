import Mathlib.Data.Nat.ModEq
import SchemaLayout.Proofs.Program.Stream

/-!
# Slots, written and read on words

A machine has words of 64 bits. It writes a number of fixed width by taking the lowest seven bits and shifting the
rest down, and reads one by shifting each group up to its place. Both come to the same as the arithmetic of slots
(`appendFixed_eq`, `map_readFixedWord`), as long as no group is shifted by 64 bits or more: ten groups are the most,
and the last of them loses all bits but one. A slot that holds a number is read back to it, whatever stands behind,
and up to nine groups there is nothing to read that would not be written the same way (`slots_areExact`).
-/

namespace SchemaLayout.Program

/-! ## Words -/

/-- A group at `place` is above `value` and below the places of the next one. -/
theorem add_place_lt {value place group base : Nat} (hvalue : value < place) (hgroup : group < base) :
    value + place * group < place * base := by
  have hle : place * (group + 1) ≤ place * base := Nat.mul_le_mul_left place hgroup
  rw [Nat.mul_succ] at hle
  omega

/-- Whether a group is added to `value` or to the `higher` ones first makes no difference modulo `wordLimit`. -/
theorem add_place_mod (value place group base higher : Nat) :
    ((value + place * group) % wordLimit + place * base * higher) % wordLimit =
      (value + place * ((group + base * higher) % wordLimit)) % wordLimit := by
  have hlost : (value + place * ((group + base * higher) % wordLimit)) % wordLimit =
      (value + place * (group + base * higher)) % wordLimit :=
    ((Nat.mod_modEq (group + base * higher) wordLimit).mul_left place).add_left value
  rw [hlost, Nat.mod_add_mod, Nat.add_assoc, Nat.mul_assoc, ← Nat.mul_add]

/-- `|||` with a shifted group adds it where bits are free, and loses bits above the 64th. -/
theorem toNat_or_shiftLeft {value group shift : UInt64} (hshift : shift.toNat < 64)
    (hvalue : value.toNat < 2 ^ shift.toNat) :
    (value ||| group <<< shift).toNat = (value.toNat + 2 ^ shift.toNat * group.toNat) % wordLimit := by
  have hsum : value.toNat ||| group.toNat <<< shift.toNat = value.toNat + 2 ^ shift.toNat * group.toNat := by
    rw [Nat.or_comm, ← Nat.shiftLeft_add_eq_or_of_lt hvalue, Nat.shiftLeft_eq, Nat.mul_comm, Nat.add_comm]
  have hlow : value.toNat % 2 ^ 64 = value.toNat := Nat.mod_eq_of_lt value.toNat_lt
  calc (value ||| group <<< shift).toNat
      = value.toNat % 2 ^ 64 ||| group.toNat <<< shift.toNat % 2 ^ 64 := by
        rw [UInt64.toNat_or, UInt64.toNat_shiftLeft, Nat.mod_eq_of_lt hshift, hlow]
    _ = (value.toNat + 2 ^ shift.toNat * group.toNat) % wordLimit := by
        rw [← Nat.or_mod_two_pow, hsum]
        rfl

/-- The unit of a group of a word. -/
def wordUnit (group : UInt64) : Char :=
  groupUnit group.toUInt8.toNat

theorem wordUnit_eq {group : UInt64} (h : group.toNat < 128) : wordUnit group = groupUnit group.toNat := by
  rw [wordUnit, UInt64.toNat_toUInt8, Nat.mod_eq_of_lt (by omega)]

/-! ## Writing -/

/-- The largest number of `width` groups, as a word. -/
def wordMax (width : Nat) : UInt64 :=
  if 64 ≤ 7 * width then 0xFFFFFFFFFFFFFFFF else 1 <<< (7 * width).toUInt64 - 1

/-- Puts the lowest groups of a word behind a text. -/
def appendGroups : (width : Nat) → UInt64 → Program → Program
  | 0, _, text => text
  | width + 1, value, text => appendGroups width (value >>> 7) (text ++ [wordUnit (value &&& 0x7F)])

/-- Puts a number of fixed width behind a text, if it fits. -/
def appendFixed (width : Nat) (value : UInt64) : EStateM ProgramError Program Unit := fun text =>
  if wordMax width < value then .error (.overflow value.toNat width) text
  else .ok () (appendGroups width value text)

theorem pow_128 (width : Nat) : 128 ^ width = 2 ^ (7 * width) :=
  (Nat.pow_mul 2 7 width).symm

theorem toNat_wordMax (width : Nat) : (wordMax width).toNat = fixedMax width := by
  have hpow : Nat.pow 128 width = 2 ^ (7 * width) := pow_128 width
  rw [wordMax, fixedMax, hpow]
  split
  · -- From ten groups on, every word fits.
    next hwide =>
    have hle : 2 ^ 64 ≤ 2 ^ (7 * width) := Nat.pow_le_pow_right (by decide) hwide
    rw [Nat.min_eq_right (show wordLimit ≤ 2 ^ (7 * width) from hle)]
    rfl
  · next hnarrow =>
    have hlt : 2 ^ (7 * width) < 2 ^ 64 := Nat.pow_lt_pow_right (by decide) (by omega)
    have hshift : (1 <<< (7 * width).toUInt64 : UInt64).toNat = 2 ^ (7 * width) := by
      have hbits : (7 * width).toUInt64.toNat % 64 = 7 * width := by
        rw [Nat.toUInt64_eq, UInt64.toNat_ofNat']
        omega
      rw [UInt64.toNat_shiftLeft, hbits, Nat.shiftLeft_eq]
      simpa using Nat.mod_eq_of_lt hlt
    have hone : (1 : UInt64) ≤ 1 <<< (7 * width).toUInt64 := by
      rw [UInt64.le_iff_toNat_le, hshift]
      exact Nat.one_le_two_pow
    have hmin : min (2 ^ (7 * width)) wordLimit = 2 ^ (7 * width) := Nat.min_eq_left (Nat.le_of_lt hlt)
    rw [UInt64.toNat_sub_of_le _ _ hone, hshift, hmin]
    rfl

/-- `appendGroups` writes `fixedGroups`. -/
theorem appendGroups_eq (width : Nat) (value : UInt64) (text : Program) :
    appendGroups width value text = text ++ fixedGroups width value.toNat := by
  induction width generalizing value text with
  | zero => rw [appendGroups, fixedGroups, List.append_nil]
  | succ width ih =>
    have hgroup : (value &&& 0x7F).toNat = value.toNat % 128 := by
      rw [UInt64.toNat_and]
      exact Nat.and_two_pow_sub_one_eq_mod value.toNat 7
    have hrest : (value >>> 7).toNat = value.toNat / 128 := by
      rw [UInt64.toNat_shiftRight]
      exact Nat.shiftRight_eq_div_pow value.toNat 7
    have hunit : wordUnit (value &&& 0x7F) = groupUnit (value.toNat % 128) := by
      rw [wordUnit_eq (by omega), hgroup]
    rw [appendGroups, ih, hrest, hunit, fixedGroups, List.append_assoc, List.singleton_append]

/-- `appendFixed` on words writes what `writeFixed` does, and leaves the text if that fails. -/
theorem appendFixed_eq (width : Nat) (value : UInt64) (text : Program) :
    appendFixed width value text =
      match writeFixed width value.toNat with
      | .ok slot => .ok () (text ++ slot)
      | .error error => .error error text := by
  have hmax : wordMax width < value ↔ fixedMax width < value.toNat := by
    rw [UInt64.lt_iff_toNat_lt, toNat_wordMax]
  rw [appendFixed, writeFixed]
  by_cases hvalue : fixedMax width < value.toNat
  · rw [if_pos hvalue, if_pos (hmax.2 hvalue)]
  · rw [if_neg hvalue, if_neg (mt hmax.1 hvalue), appendGroups_eq]

/-! ## Reading -/

/-- Reads some more groups, where those before them have filled the lowest bits of the value. -/
def readGroups : (count : Nat) → (filled value : UInt64) → Reader UInt64
  | 0, _, value => return value
  | count + 1, filled, value => do
    let group ← readGroup
    readGroups count (filled + 7) (value ||| group.toUInt64 <<< filled)

/-- Reads a number of fixed width on a word. -/
def readFixedWord (width : Nat) : Reader UInt64 :=
  readGroups width 0 0

theorem readGroup_bind_cons {α : Type} {next : Nat → Reader α} {unit : Char} {rest : Program} (h : unit.toNat < 128) :
    (readGroup >>= next) (unit :: rest) = next unit.toNat rest := by
  show EStateM.bind readGroup next (unit :: rest) = _
  rw [EStateM.bind, readGroup, if_pos h]

theorem readGroup_bind_congr {α : Type} {next other : Nat → Reader α} (h : ∀ group < 128, next group = other group) :
    readGroup >>= next = readGroup >>= other := by
  funext program
  show EStateM.bind readGroup next program = EStateM.bind readGroup other program
  unfold EStateM.bind
  cases hread : readGroup program with
  | ok group rest => exact congrFun (h group (readGroup_eq_ok_iff.1 hread).1) rest
  | error error rest => rfl

/-- `readGroups` adds what `readFixed` reads above `value`, modulo `wordLimit`. -/
theorem map_readGroups {count : Nat} {filled value : UInt64} (hfilled : filled.toNat + 7 * count ≤ 70)
    (hvalue : value.toNat < 2 ^ filled.toNat) :
    UInt64.toNat <$> readGroups count filled value =
      (fun higher => (value.toNat + 2 ^ filled.toNat * higher) % wordLimit) <$> readFixed count := by
  induction count generalizing filled value with
  | zero =>
    have hword : value.toNat % wordLimit = value.toNat := Nat.mod_eq_of_lt value.toNat_lt
    rw [readGroups, readFixed, map_pure, map_pure, Nat.mul_zero, Nat.add_zero, hword]
  | succ count ih =>
    rw [readGroups, readFixed, map_bind, map_bind]
    apply readGroup_bind_congr
    intro group hgroup
    -- `value` has no bits from `filled` on, so `|||` adds the group at its place.
    have hadd : (value ||| group.toUInt64 <<< filled).toNat = (value.toNat + 2 ^ filled.toNat * group) % wordLimit := by
      have hword : group.toUInt64.toNat = group := by
        rw [Nat.toUInt64_eq, UInt64.toNat_ofNat']
        omega
      rw [toNat_or_shiftLeft (by omega) hvalue, hword]
    have hnext : (filled + 7).toNat = filled.toNat + 7 := by
      rw [UInt64.toNat_add]
      exact Nat.mod_eq_of_lt (by simp; omega)
    have hpow : 2 ^ (filled.toNat + 7) = 2 ^ filled.toNat * 128 := Nat.pow_add 2 filled.toNat 7
    have hlt : (value ||| group.toUInt64 <<< filled).toNat < 2 ^ (filled + 7).toNat := by
      rw [hadd, hnext, hpow]
      exact Nat.lt_of_le_of_lt (Nat.mod_le _ _) (add_place_lt hvalue hgroup)
    rw [ih (by omega) hlt, hnext, hadd, hpow, map_bind]
    simp only [map_pure]
    rw [bind_pure_comp]
    exact congrArg (· <$> readFixed count) (funext (add_place_mod value.toNat (2 ^ filled.toNat) group 128))

theorem map_mod_readFixed (width : Nat) : (· % wordLimit) <$> readFixed width = readFixed width := by
  cases width with
  | zero => rfl
  | succ width => simp only [readFixed, map_bind, map_pure, Nat.mod_mod]

/-- `readFixedWord` is `readFixed` for up to ten groups. -/
theorem map_readFixedWord {width : Nat} (h : width ≤ 10) : UInt64.toNat <$> readFixedWord width = readFixed width := by
  have hfilled : (0 : UInt64).toNat + 7 * width ≤ 70 := by
    rw [UInt64.toNat_zero]
    omega
  rw [readFixedWord, map_readGroups hfilled (by decide)]
  simp only [UInt64.toNat_zero, Nat.pow_zero, Nat.one_mul, Nat.zero_add]
  exact map_mod_readFixed width

/-! ## Slots and numbers -/

/-- A word fits in a slot exactly if it is below `2 ^ (7 * width)`. -/
theorem fixedMax_lt_iff_of_word {width value : Nat} (h : value < wordLimit) :
    fixedMax width < value ↔ 2 ^ (7 * width) ≤ value := by
  have hpow : Nat.pow 128 width = 2 ^ (7 * width) := pow_128 width
  have hpos : 0 < 2 ^ (7 * width) := Nat.two_pow_pos _
  rw [fixedMax, hpow]
  omega

/-- `readFixed` reads back a number that fits. -/
theorem reads_readFixed {width value : Nat} (hword : value < wordLimit) (hvalue : value < 2 ^ (7 * width)) :
    Reads (readFixed width) (fixedGroups width value) value := by
  induction width generalizing value with
  | zero =>
    obtain rfl : value = 0 := by simpa using hvalue
    exact Reads.pure 0
  | succ width ih =>
    intro rest
    have hpow : 2 ^ (7 * (width + 1)) = 2 ^ (7 * width) * 128 := Nat.pow_add 2 (7 * width) 7
    have hhigher : Reads (readFixed width) (fixedGroups width (value / 128)) (value / 128) :=
      ih (by omega) (by omega)
    have hunit : (groupUnit (value % 128)).toNat = value % 128 := toNat_groupUnit (Nat.mod_lt _ (by decide))
    -- The lowest group and the higher ones make up the number again.
    have hsum : value % 128 + 128 * (value / 128) = value := Nat.mod_add_div value 128
    rw [readFixed, fixedGroups, List.cons_append, readGroup_bind_cons (by omega), hunit, bind_eq_ok_iff]
    refine ⟨value / 128, rest, hhigher rest, ?_⟩
    rw [hsum, Nat.mod_eq_of_lt hword]
    rfl

theorem exists_readFixed {slot : Program} (h : ∀ unit ∈ slot, unit.toNat < 128) :
    ∃ value, Reads (readFixed slot.length) slot value := by
  induction slot with
  | nil => exact ⟨0, Reads.pure 0⟩
  | cons unit others ih =>
    obtain ⟨hunit, hothers⟩ := List.forall_mem_cons.1 h
    obtain ⟨higher, hhigher⟩ := ih hothers
    refine ⟨(unit.toNat + 128 * higher) % wordLimit, fun rest => ?_⟩
    rw [List.length_cons, readFixed, List.cons_append, readGroup_bind_cons hunit, bind_eq_ok_iff]
    exact ⟨higher, rest, hhigher rest, rfl⟩

/-- For `width` at most 10: a word below `2 ^ (7 * width)` is written as that many groups and read back from
them, and any other one is refused, with the text as it was. Up to 9, any groups are those of the number read
from them. `readFixedWord` reads as `readFixed` does. -/
theorem slots_areExact {width : Nat} (hwidth : width ≤ 10) :
    (∀ (value : UInt64) (text : Program),
      (value.toNat < 2 ^ (7 * width) → ∃ slot, writeFixed width value.toNat = .ok slot ∧
        appendFixed width value text = .ok () (text ++ slot) ∧ slot.length = width ∧
        (∀ unit ∈ slot, unit.toNat < 0x80) ∧ ∀ rest, readFixed width (slot ++ rest) = .ok value.toNat rest) ∧
      (2 ^ (7 * width) ≤ value.toNat → writeFixed width value.toNat = .error (.overflow value.toNat width) ∧
        appendFixed width value text = .error (.overflow value.toNat width) text)) ∧
    (width ≤ 9 → ∀ slot : Program, slot.length = width → (∀ unit ∈ slot, unit.toNat < 0x80) →
      ∃ value : UInt64, (∀ rest, readFixed width (slot ++ rest) = .ok value.toNat rest) ∧
        writeFixed width value.toNat = .ok slot) ∧
    UInt64.toNat <$> readFixedWord width = readFixed width := by
  refine ⟨fun value text => ⟨fun hvalue => ?_, fun hvalue => ?_⟩, fun hnine slot hlength hslot => ?_,
    map_readFixedWord hwidth⟩
  · -- A word that fits is below the greatest one for the width.
    have hfits : ¬ fixedMax width < value.toNat := by
      rw [fixedMax_lt_iff_of_word value.toNat_lt]
      omega
    have hwrite : writeFixed width value.toNat = .ok (fixedGroups width value.toNat) := if_neg hfits
    refine ⟨fixedGroups width value.toNat, hwrite, ?_, length_fixedGroups _ _, ?_,
      reads_readFixed value.toNat_lt hvalue⟩
    · rw [appendFixed_eq, hwrite]
    · exact fun unit hunit => toNat_lt_of_mem_fixedGroups hunit
  · have hlarge : fixedMax width < value.toNat := (fixedMax_lt_iff_of_word value.toNat_lt).2 hvalue
    have hwrite : writeFixed width value.toNat = .error (.overflow value.toNat width) := if_pos hlarge
    refine ⟨hwrite, ?_⟩
    rw [appendFixed_eq, hwrite]
  · -- Up to nine groups hold less than a word, so what is read is a word and is written again.
    obtain ⟨value, hread⟩ := exists_readFixed hslot
    rw [hlength] at hread
    obtain ⟨hvalue, hunits⟩ := (readsExactly_readFixed hnine _ value []).1 (hread [])
    have hword : value < wordLimit := Nat.lt_of_lt_of_le hvalue (pow_le_wordLimit hnine)
    have htoNat : (UInt64.ofNat value).toNat = value := by
      rw [UInt64.toNat_ofNat']
      exact Nat.mod_eq_of_lt hword
    refine ⟨UInt64.ofNat value, ?_, ?_⟩
    · rw [htoNat]
      exact hread
    · rw [htoNat]
      refine (writesExactly_writeFixed hnine value slot).2 ⟨hvalue, ?_⟩
      simpa using hunits

/-- Nine groups hold the numbers of 63 bits and no others, and any nine groups hold one. -/
theorem slots_areExact_nine : 9 ≤ 10 ∧
    (∃ slot, appendFixed 9 0x7FFFFFFFFFFFFFFF ['a'] = .ok () ('a' :: slot) ∧ slot.length = 9 ∧
      readFixed 9 (slot ++ ['é']) = .ok 0x7FFFFFFFFFFFFFFF ['é']) ∧
    appendFixed 9 0x8000000000000000 ['a'] = .error (.overflow 0x8000000000000000 9) ['a'] ∧
    (∃ value : UInt64, readFixed 9 (List.replicate 9 '?' ++ ['é']) = .ok value.toNat ['é'] ∧
      writeFixed 9 value.toNat = .ok (List.replicate 9 '?')) ∧
    UInt64.toNat <$> readFixedWord 9 = readFixed 9 := by
  have hten : 9 ≤ 10 := by decide
  obtain ⟨hwrites, hreads, hword⟩ := slots_areExact hten
  obtain ⟨slot, _, happend, hlength, _, hslot⟩ := (hwrites 0x7FFFFFFFFFFFFFFF ['a']).1 (by decide)
  obtain ⟨_, hrefused⟩ := (hwrites 0x8000000000000000 ['a']).2 (by decide)
  obtain ⟨value, hvalue, hunits⟩ := hreads (Nat.le_refl 9) (List.replicate 9 '?') rfl (by simp)
  exact ⟨hten, ⟨slot, happend, hlength, hslot ['é']⟩, hrefused, ⟨value, hvalue ['é'], hunits⟩, hword⟩

end SchemaLayout.Program
