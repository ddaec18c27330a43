import Mathlib.Data.List.Forall2
import Mathlib.Data.List.Induction
import Mathlib.Data.List.Nodup

/-!
# Lists and their elements

Lists whose elements are related one by one have the same of what related elements have the same of, and their
elements at the same place are related. A list that is taken apart by the values of a function, group after
group, is put together again in another order, and a stable sort by a Boolean takes it apart into two groups. Of a
group, the first element can be told from the others, and so can the last one. And when a list is gone through for
what it contains, an element counts when it is met for the first time.
-/

namespace SchemaLayout

/-- If `after b = before a` for related elements, this is so of related lists. -/
theorem map_eq_of_forall₂ {α β γ : Type} {r : α → β → Prop} (before : α → γ) (after : β → γ)
    {list : List α} {others : List β} (h : List.Forall₂ r list others)
    (hsame : ∀ a ∈ list, ∀ b, r a b → after b = before a) : others.map after = list.map before := by
  induction h with
  | nil => rfl
  | cons hfirst _ ih =>
    obtain ⟨ha, hrest⟩ := List.forall_mem_cons.1 hsame
    rw [List.map_cons, List.map_cons, ha _ hfirst, ih hrest]

theorem forall₂_of_map_eq {α β γ : Type} {before : α → γ} {after : β → γ} {list : List α} {others : List β}
    (h : others.map after = list.map before) : List.Forall₂ (fun a b => after b = before a) list others := by
  rw [← List.forall₂_eq_eq_eq, List.forall₂_map_left_iff, List.forall₂_map_right_iff] at h
  exact h.flip

theorem exists_of_mem_right {α β : Type} {R : α → β → Prop} {first : List α} {second : List β}
    (h : List.Forall₂ R first second) {b : β} (hb : b ∈ second) : ∃ a ∈ first, R a b := by
  induction h with
  | nil => exact absurd hb List.not_mem_nil
  | cons hhead _ ih =>
    rcases List.mem_cons.1 hb with rfl | hb
    · exact ⟨_, List.mem_cons_self, hhead⟩
    · obtain ⟨a, ha, hrelated⟩ := ih hb
      exact ⟨a, List.mem_cons_of_mem _ ha, hrelated⟩

/-- `getD` keeps the relation if the defaults are related. -/
theorem getD_of_forall₂ {α β : Type} {r : α → β → Prop} {a : α} {b : β} (hdefault : r a b) {list : List α}
    {others : List β} (h : List.Forall₂ r list others) (index : Nat) :
    r (list[index]?.getD a) (others[index]?.getD b) := by
  induction h generalizing index with
  | nil => exact hdefault
  | cons hfirst _ ih =>
    cases index with
    | zero => exact hfirst
    | succ index => exact ih index

/-- In a list without repetition, `filter p` starts with what `find? p` finds. -/
theorem filter_eq_cons_of_find? {α : Type} [DecidableEq α] {p : α → Bool} {list : List α} {a : α}
    (hnodup : list.Nodup) (h : list.find? p = some a) :
    list.filter p = a :: list.filter fun b => b ≠ a && p b := by
  obtain ⟨ha, before, behind, rfl, hbefore⟩ := List.find?_eq_some_iff_append.1 h
  have hnone : before.filter p = [] :=
    List.filter_eq_nil_iff.2 fun b hb => by simpa using hbefore b hb
  have hnone' : before.filter (fun b => b ≠ a && p b) = [] := by
    rw [← List.filter_filter, hnone, List.filter_nil]
  have hbehind : behind.filter p = behind.filter fun b => b ≠ a && p b := by
    refine List.filter_congr fun b hb => ?_
    have hne : b ≠ a := by
      rintro rfl
      exact (List.nodup_cons.1 (List.nodup_append.1 hnodup).2.1).1 hb
    simp [hne]
  rw [List.filter_append, List.filter_append, hnone, hnone', List.filter_cons_of_pos ha,
    List.filter_cons_of_neg (by simp), hbehind]
  rfl

/-- `takeWhile p` is `filter p` if no element with `p` comes after one without it. -/
theorem takeWhile_eq_filter {α : Type} {p : α → Bool} {list : List α}
    (h : list.Pairwise fun a b => p b = true → p a = true) : list.takeWhile p = list.filter p := by
  induction list with
  | nil => rfl
  | cons a rest ih =>
    obtain ⟨hfirst, hrest⟩ := List.pairwise_cons.1 h
    by_cases ha : p a = true
    · rw [List.takeWhile_cons_of_pos ha, List.filter_cons_of_pos ha, ih hrest]
    · have hnone : rest.filter p = [] := List.filter_eq_nil_iff.2 fun b hb hp => ha (hfirst b hb hp)
      rw [List.takeWhile_cons_of_neg ha, List.filter_cons_of_neg ha, hnone]

/-- The last element with `p` is followed by elements without it. -/
theorem getLast?_filter_eq_some_iff {α : Type} {p : α → Bool} {list : List α} {a : α} :
    (list.filter p).getLast? = some a ↔
      p a = true ∧ ∃ before after, list = before ++ a :: after ∧ ∀ b ∈ after, ¬ p b = true := by
  rw [List.getLast?_filter, List.find?_eq_some_iff_append]
  refine and_congr_right fun _ => ⟨?_, ?_⟩
  · rintro ⟨after, before, hreverse, hafter⟩
    refine ⟨before.reverse, after.reverse, ?_, fun b hb => ?_⟩
    · rw [← List.reverse_reverse list, hreverse]
      simp
    · simpa using hafter b (List.mem_reverse.1 hb)
  · rintro ⟨before, after, rfl, hafter⟩
    refine ⟨after.reverse, before.reverse, by simp, fun b hb => ?_⟩
    simpa using hafter b (List.mem_reverse.1 hb)

/-- `lookup` finds the value of a key that has no other one. -/
theorem lookup_eq_some_of_mem {α κ : Type} [BEq κ] [LawfulBEq κ] {key : κ} {value : α} {entries : List (κ × α)}
    (hmem : (key, value) ∈ entries) (honly : ∀ other, (key, other) ∈ entries → other = value) :
    entries.lookup key = some value := by
  cases hfound : entries.lookup key with
  | none =>
    have hmissing := List.lookup_eq_none_iff.1 hfound _ hmem
    simp at hmissing
  | some other =>
    obtain ⟨before, behind, rfl, _⟩ := List.lookup_eq_some_iff.1 hfound
    rw [honly other (List.mem_append_right _ List.mem_cons_self)]

variable {α κ : Type} [DecidableEq κ]

/-- Filtering by each key in turn reorders the list, if every element has one of `keys`. -/
theorem flatMap_filter_perm (key : α → κ) {keys : List κ} (hnodup : keys.Nodup) {list : List α}
    (hkeys : ∀ a ∈ list, key a ∈ keys) :
    (keys.flatMap fun k => list.filter (key · = k)).Perm list := by
  induction keys generalizing list with
  | nil => exact .of_eq (List.eq_nil_iff_forall_not_mem.2 fun a ha => List.not_mem_nil (hkeys a ha)).symm
  | cons first rest ih =>
    obtain ⟨hfirst, hrest⟩ := List.nodup_cons.1 hnodup
    -- The other keys only see what does not have the first one.
    have hothers : (rest.flatMap fun k => list.filter (key · = k)) =
        rest.flatMap fun k => (list.filter fun a => !decide (key a = first)).filter (key · = k) := by
      refine List.flatMap_congr fun k hk => ?_
      rw [List.filter_filter]
      refine List.filter_congr fun a _ => ?_
      by_cases ha : key a = k
      · have hne : k ≠ first := fun h => hfirst (h ▸ hk)
        simp [ha, hne]
      · simp [ha]
    have hleft (a : α) (ha : a ∈ list.filter fun a => !decide (key a = first)) : key a ∈ rest := by
      obtain ⟨hmem, hne⟩ := List.mem_filter.1 ha
      exact (List.mem_cons.1 (hkeys a hmem)).resolve_left (by simpa using hne)
    rw [List.flatMap_cons, hothers]
    exact ((ih hrest hleft).append_left _).trans (List.filter_append_perm _ list)

/-! ## Stable sorts -/

/-- `List.mergeSort` is stable: it keeps the order of elements that are all `le` each other. -/
theorem filter_mergeSort {α : Type} {le : α → α → Bool}
    (htrans : ∀ a b c, le a b = true → le b c = true → le a c = true)
    (htotal : ∀ a b, (le a b || le b a) = true) {p : α → Bool}
    (hp : ∀ a b, p a = true → p b = true → le a b = true) (list : List α) :
    (list.mergeSort le).filter p = list.filter p := by
  have hpairwise : (list.filter p).Pairwise fun a b => le a b = true :=
    List.pairwise_of_forall_mem_list fun a ha b hb => hp a b (List.mem_filter.1 ha).2 (List.mem_filter.1 hb).2
  have hsublist := (List.sublist_mergeSort htrans htotal hpairwise List.filter_sublist).filter p
  rw [List.filter_filter] at hsublist
  simp only [Bool.and_self] at hsublist
  exact (hsublist.eq_of_length ((List.mergeSort_perm list le).filter p).length_eq.symm).symm

/-- In a list in ascending order of a Boolean `key`, elements with `false` come before those with `true`. -/
theorem filter_append_filter_of_pairwise {α : Type} {key : α → Bool} {list : List α}
    (h : list.Pairwise fun a b => key a ≤ key b) : list.filter (!key ·) ++ list.filter key = list := by
  induction list with
  | nil => rfl
  | cons a rest ih =>
    obtain ⟨hfirst, hrest⟩ := List.pairwise_cons.1 h
    cases ha : key a with
    | false =>
      rw [List.filter_cons_of_pos (by simp [ha]), List.filter_cons_of_neg (by simp [ha]), List.cons_append, ih hrest]
    | true =>
      have hall (b : α) (hb : b ∈ rest) : key b = true := hfirst b hb ha
      rw [List.filter_eq_nil_iff.2 (by simpa [ha] using hall), List.nil_append]
      exact List.filter_eq_self.2 (by simpa [ha] using hall)

/-- `List.mergeSort` by a Boolean `key` puts elements with `false` first and keeps the order of either kind. -/
theorem mergeSort_key {α : Type} (key : α → Bool) (list : List α) :
    list.mergeSort (fun a b => key a ≤ key b) = list.filter (!key ·) ++ list.filter key := by
  have htrans (a b c : α) (hab : decide (key a ≤ key b) = true) (hbc : decide (key b ≤ key c) = true) :
      decide (key a ≤ key c) = true :=
    decide_eq_true fun ha => of_decide_eq_true hbc (of_decide_eq_true hab ha)
  have htotal (a b : α) : (decide (key a ≤ key b) || decide (key b ≤ key a)) = true := by
    cases key a <;> cases key b <;> rfl
  have hfront := filter_mergeSort htrans htotal (p := (!key ·)) (fun a b ha hb => by simp_all) list
  have hback := filter_mergeSort htrans htotal (p := key) (fun a b ha hb => by simp_all) list
  have hsorted := (List.pairwise_mergeSort htrans htotal list).imp of_decide_eq_true
  rw [← hfront, ← hback, filter_append_filter_of_pairwise hsorted]

/-! ## First occurrences -/

theorem eraseDups_concat (list : List κ) (a : κ) :
    (list ++ [a]).eraseDups = if a ∈ list then list.eraseDups else list.eraseDups ++ [a] := by
  rw [List.eraseDups_append]
  by_cases h : a ∈ list
  · rw [if_pos h]
    simp [List.removeAll, h]
  · rw [if_neg h]
    simp [List.removeAll, h, List.eraseDups_cons]

theorem nodup_eraseDups (list : List κ) : list.eraseDups.Nodup := by
  induction list using List.reverseRecOn with
  | nil => exact List.nodup_nil
  | append_singleton list a ih =>
    rw [eraseDups_concat]
    by_cases h : a ∈ list
    · rwa [if_pos h]
    · rw [if_neg h, ← List.concat_eq_append]
      exact List.Nodup.concat (mt List.mem_eraseDups.1 h) ih

end SchemaLayout
