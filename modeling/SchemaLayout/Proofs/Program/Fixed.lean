import Mathlib.Algebra.Ring.Nat
import SchemaLayout.Proofs.Program.Reading

/-!
# Numbers of fixed width

A slot of `width` groups holds the numbers below `128 ^ width`, and as long as these have no more than
64 bits, every sequence of groups is the slot of exactly one of them (`readsExactly_readFixed`).
-/

namespace SchemaLayout.Program

/-! ## Single groups -/

theorem toNat_groupUnit {group : Nat} (h : group < 128) : (groupUnit group).toNat = group := by
  have hvalid : group.isValidChar := Or.inl (by omega)
  rw [groupUnit, Char.ofNat, dif_pos hvalid]
  rfl

theorem groupUnit_toNat (unit : Char) : groupUnit unit.toNat = unit :=
  Char.ofNat_toNat unit

/-- `readGroup` takes one `groupUnit`. -/
theorem readGroup_eq_ok_iff {group : Nat} {program rest : Program} :
    readGroup program = .ok group rest ↔ group < 128 ∧ program = groupUnit group :: rest := by
  cases program with
  | nil => simp [readGroup]
  | cons unit tail =>
    rw [readGroup]
    by_cases hunit : unit.toNat < 128
    · rw [if_pos hunit]
      constructor
      · intro h
        cases h
        exact ⟨hunit, by rw [groupUnit_toNat]⟩
      · intro h
        rcases h with ⟨hgroup, h⟩
        cases h
        rw [toNat_groupUnit hgroup]
    · -- A unit with its highest bit set is no group.
      rw [if_neg hunit]
      refine ⟨fun h => by simp at h, fun ⟨hgroup, h⟩ => ?_⟩
      cases h
      rw [toNat_groupUnit hgroup] at hunit
      omega

/-! ## Slots -/

theorem length_fixedGroups (width value : Nat) : (fixedGroups width value).length = width := by
  induction width generalizing value with
  | zero => rfl
  | succ width ih => rw [fixedGroups, List.length_cons, ih]

/-- The units of a slot are groups, below 128. -/
theorem toNat_lt_of_mem_fixedGroups {width value : Nat} {unit : Char} (h : unit ∈ fixedGroups width value) :
    unit.toNat < 128 := by
  induction width generalizing value with
  | zero => cases h
  | succ width ih =>
    have hgroup : value % 128 < 128 := Nat.mod_lt _ (by decide)
    rw [fixedGroups, List.mem_cons] at h
    rcases h with rfl | h
    · rwa [toNat_groupUnit hgroup]
    · exact ih h

/-- Nine groups have at most 64 bits. -/
theorem pow_le_wordLimit {width : Nat} (h : width ≤ 9) : 128 ^ width ≤ wordLimit :=
  Nat.le_trans (Nat.pow_le_pow_right (by decide) h) (by decide)

/-- `fixedMax` is the largest number of `width` groups. -/
theorem fixedMax_lt_iff {width value : Nat} (h : width ≤ 9) :
    fixedMax width < value ↔ 128 ^ width ≤ value := by
  have hmin : min (Nat.pow 128 width) wordLimit = 128 ^ width := Nat.min_eq_left (pow_le_wordLimit h)
  have hpos : 0 < 128 ^ width := Nat.pow_pos (by decide)
  rw [fixedMax, hmin]
  omega

/-- `writeFixed` writes `fixedGroups` for numbers below `128 ^ width`, and fails for all others. -/
theorem writesExactly_writeFixed {width : Nat} (h : width ≤ 9) :
    WritesExactly (writeFixed width) (· < 128 ^ width) (fixedGroups width) := by
  intro value units
  rw [writeFixed]
  by_cases hvalue : fixedMax width < value
  · rw [if_pos hvalue]
    have hlarge := (fixedMax_lt_iff h).1 hvalue
    refine ⟨fun hwrite => by simp at hwrite, fun ⟨hsmall, _⟩ => by omega⟩
  · rw [if_neg hvalue, Except.ok.injEq]
    rw [fixedMax_lt_iff h] at hvalue
    exact ⟨fun hunits => ⟨by omega, hunits.symm⟩, fun ⟨_, hunits⟩ => hunits.symm⟩

/-- `readFixed` reads exactly the `fixedGroups` of numbers below `128 ^ width`. -/
theorem readsExactly_readFixed {width : Nat} (h : width ≤ 9) :
    ReadsExactly (readFixed width) (· < 128 ^ width) (fixedGroups width) := by
  induction width with
  | zero =>
    intro program value rest
    simp only [readFixed, pure_eq_ok_iff, fixedGroups, List.nil_append, Nat.pow_zero,
      Nat.lt_one_iff, eq_comm]
  | succ width ih =>
    intro program value rest
    have hlimit := pow_le_wordLimit h
    rw [Nat.pow_succ] at hlimit ⊢
    simp only [readFixed, bind_eq_ok_iff, pure_eq_ok_iff, readGroup_eq_ok_iff,
      ih (Nat.le_of_succ_le h) _ _ _, fixedGroups, List.cons_append]
    constructor
    · intro h
      rcases h with ⟨group, _, ⟨hgroup, rfl⟩, higher, _, ⟨hhigher, rfl⟩, rfl, rfl⟩
      -- The number fits into a word, so no bit of it is lost.
      have hword : group + 128 * higher < wordLimit := by omega
      rw [Nat.mod_eq_of_lt hword]
      have hlow : (group + 128 * higher) % 128 = group := by omega
      have hhigh : (group + 128 * higher) / 128 = higher := by omega
      rw [hlow, hhigh]
      exact ⟨by omega, rfl⟩
    -- The lowest group and the rest of the number are what the groups are read back to.
    · intro h
      rcases h with ⟨hvalue, rfl⟩
      have hsplit : value % 128 + 128 * (value / 128) = value := by omega
      refine ⟨value % 128, _, ⟨by omega, rfl⟩, value / 128, _, ⟨by omega, rfl⟩, ?_, rfl⟩
      rw [hsplit, Nat.mod_eq_of_lt (by omega)]

end SchemaLayout.Program
