import Mathlib.Tactic.ByContra
import SchemaLayout.Layout.Plan

/-!
# Looking records up

A plan is asked for the record of a field number by halving: of the places that are left, the half that
starts at or before the number is searched further. If the records are in strictly ascending order of number, the
place of a number stays among those that are left, so its record is found whenever there is one
(`find?_eq_some_iff`).
-/

namespace SchemaLayout.LayoutPlan

/-- The records are in strictly ascending order of number. -/
def IsAscending (plan : LayoutPlan) : Prop :=
  plan.records.Pairwise (·.number < ·.number)

/-- The binary search `searchFrom` ends at `place` if that is among the `size` places from `start` on. -/
theorem searchFrom_eq {records : Array FieldRecord} {place : Nat}
    (hascending : records.toList.Pairwise (·.number < ·.number)) (hplace : place < records.size)
    {start size : Nat} (hstart : start ≤ place) (hstop : place < start + size)
    (hsize : start + size ≤ records.size) :
    searchFrom records records[place].number start size = place := by
  have horder := List.pairwise_iff_getElem.1 hascending
  simp only [Array.length_toList, Array.getElem_toList] at horder
  fun_induction searchFrom records records[place].number start size with
  | case1 start size hsmall => omega
  | case2 start size hlarge middle next ih =>
    have hmiddle : middle < records.size := by omega
    -- The half that is gone on with starts in the middle unless the record there is behind the number.
    have hnext : next = if records[place].number < records[middle].number then start else middle := by
      simp [next, Array.getElem?_eq_getElem hmiddle]
    by_cases hbefore : records[place].number < records[middle].number
    · have hlt : place < middle := by
        by_contra hle
        rcases Nat.lt_or_eq_of_le (Nat.le_of_not_lt hle) with hlater | hsame
        · have hother := horder middle place hmiddle hplace hlater
          omega
        · simp only [hsame] at hbefore
          omega
      rw [if_pos hbefore] at hnext
      apply ih <;> omega
    · have hle : middle ≤ place := by
        by_contra hlt
        exact hbefore (horder place middle hplace hmiddle (Nat.lt_of_not_le hlt))
      rw [if_neg hbefore] at hnext
      apply ih <;> omega

variable {plan : LayoutPlan} {number : Nat}

/-- In an ascending plan, `find?` finds the record with `number` and nothing else. -/
theorem find?_eq_some_iff (h : plan.IsAscending) {record : FieldRecord} :
    plan.find? number = some record ↔ record ∈ plan.records ∧ record.number = number := by
  unfold find?
  constructor
  · intro hfound
    obtain ⟨hget, hnumber⟩ := Option.filter_eq_some_iff.1 hfound
    have hmem := List.mem_toArray.1 (Array.mem_of_getElem? hget)
    exact ⟨hmem, of_decide_eq_true hnumber⟩
  · intro hrecord
    obtain ⟨hmem, rfl⟩ := hrecord
    obtain ⟨place, hplace, rfl⟩ := List.mem_iff_getElem.1 hmem
    -- The search starts with all places and ends at that of the record.
    have hsearch : searchFrom plan.records.toArray plan.records[place].number 0
        plan.records.toArray.size = place :=
      @searchFrom_eq plan.records.toArray place h hplace 0 _ (Nat.zero_le _)
        (by rw [Nat.zero_add]; exact hplace) (Nat.le_of_eq (Nat.zero_add _))
    simp only [hsearch, List.getElem?_toArray, List.getElem?_eq_getElem hplace]
    simp

/-- `find?` finds something exactly if a record has `number`. -/
theorem isSome_find?_iff (h : plan.IsAscending) :
    (plan.find? number).isSome = true ↔ ∃ record ∈ plan.records, record.number = number := by
  rw [Option.isSome_iff_exists]
  exact exists_congr fun record => find?_eq_some_iff h

end SchemaLayout.LayoutPlan
