import SchemaLayout.Proofs.Layout.Regions

/-!
# Which has-bit is whose

Has-bits are handed out one by one, to required fields from the first one on and to all others behind
those of required fields. So the bit of a field is the number of fields of its kind before it
(`getElem?_presences`), which is its place among the fields that own one if these are sorted so that required ones
come first (`getElem?_presences_eq_hasBit_iff`). All has-bits together are the numbers below the number of fields that
own one (`bits_presences_perm`).
-/

namespace SchemaLayout

/-- The index of a `hasBit`. -/
def Presence.bit? : Presence → Option Nat
  | hasBit index => some index
  | _ => Option.none

namespace FieldShape

/-- The field owns one of the has-bits of required fields. -/
def ownsRequiredBit (shape : FieldShape) : Bool :=
  shape.isTracked && shape.isRequired

/-- The field owns one of the has-bits behind those. -/
def ownsOtherBit (shape : FieldShape) : Bool :=
  shape.isTracked && !shape.isRequired

theorem not_ownsOtherBit {shape : FieldShape} (h : shape.ownsRequiredBit = true) :
    ¬ shape.ownsOtherBit = true := by
  obtain ⟨_, hrequired⟩ := Bool.and_eq_true_iff.1 h
  rw [ownsOtherBit, hrequired, Bool.not_true, Bool.and_false]
  exact Bool.false_ne_true

end FieldShape

/-! ## Counting up to a place -/

section

variable {α : Type} {p : α → Bool} {list : List α} {a : α} {i j : Nat}

theorem countP_take_lt_countP_take (ha : list[i]? = some a) (hp : p a = true) (hij : i < j) :
    (list.take i).countP p < (list.take j).countP p := by
  have hnext : (list.take (i + 1)).countP p = (list.take i).countP p + 1 := by
    rw [List.take_add_one, ha, List.countP_append, Option.toList_some, List.countP_singleton,
      if_pos hp]
  have hle : (list.take (i + 1)).countP p ≤ (list.take j).countP p :=
    (List.take_prefix_take_left hij).sublist.countP_le
  omega

/-- Fewer elements with `p` are before such an element than there are. -/
theorem countP_take_lt_countP (ha : list[i]? = some a) (hp : p a = true) :
    (list.take i).countP p < list.countP p := by
  have hlt := countP_take_lt_countP_take ha hp (List.getElem?_eq_some_iff.1 ha).1
  rwa [List.take_length] at hlt

/-- Of two elements with `p`, the one with the smaller count before it comes first. -/
theorem countP_take_lt_iff {b : α} (ha : list[i]? = some a) (hpa : p a = true)
    (hb : list[j]? = some b) (hpb : p b = true) :
    (list.take i).countP p < (list.take j).countP p ↔ i < j := by
  refine ⟨fun h => ?_, countP_take_lt_countP_take ha hpa⟩
  by_contra hle
  rcases Nat.lt_or_eq_of_le (Nat.le_of_not_lt hle) with hlt | rfl
  · exact Nat.lt_asymm h (countP_take_lt_countP_take hb hpb hlt)
  · exact Nat.lt_irrefl _ h

/-- An element of `list.filter p` has as many elements before it as satisfy `p` before it in `list`. -/
theorem getElem?_filter_countP_take (ha : list[i]? = some a) (hp : p a = true) :
    (list.filter p)[(list.take i).countP p]? = some a := by
  obtain ⟨hi, rfl⟩ := List.getElem?_eq_some_iff.1 ha
  have hfilter : list.filter p = (list.take i).filter p ++ list[i] :: (list.drop (i + 1)).filter p := by
    rw [← List.filter_cons_of_pos hp, ← List.drop_eq_getElem_cons hi, ← List.filter_append,
      List.take_append_drop]
  rw [hfilter, List.countP_eq_length_filter, List.getElem?_append_right (Nat.le_refl _), Nat.sub_self]
  rfl

end

namespace Placement

/-! ## The presence of a field -/

/-- How a field is tracked, if the next has-bit is `required` for a required field and `others` for any other
one. -/
def presenceAt (slots required others : Nat) (shape : FieldShape) : Presence :=
  match shape.oneofIndex with
  | some index => .oneofSlot (slots + slotBytes * index)
  | none =>
    if !shape.hasPresence then .none
    else if shape.isRequired then .hasBit required
    else .hasBit others

section

variable {slots required others bit : Nat} {shape : FieldShape}

/-- A member of a oneof, and nothing else, has the slot of the oneof. -/
theorem presenceAt_eq_oneofSlot_iff {offset : Nat} :
    presenceAt slots required others shape = .oneofSlot offset ↔
      ∃ index, shape.oneofIndex = some index ∧ offset = slots + slotBytes * index := by
  rw [presenceAt]
  cases shape.oneofIndex with
  | some index => simp [eq_comm]
  | none =>
    cases shape.hasPresence with
    | false => simp
    | true => cases shape.isRequired <;> simp

/-- A field that owns a bit has the next one of its kind. -/
theorem presenceAt_eq_hasBit_iff :
    presenceAt slots required others shape = .hasBit bit ↔
      shape.ownsRequiredBit = true ∧ bit = required ∨
        shape.ownsOtherBit = true ∧ bit = others := by
  rw [presenceAt, FieldShape.ownsRequiredBit, FieldShape.ownsOtherBit, FieldShape.isTracked]
  cases shape.oneofIndex with
  | some index => simp
  | none =>
    cases shape.hasPresence with
    | false => simp
    | true => cases shape.isRequired <;> simp [eq_comm]

/-- `bit?` of `presenceAt`, by the kind of bit that the field owns. -/
theorem bit?_presenceAt : (presenceAt slots required others shape).bit? =
    if shape.ownsRequiredBit then some required
    else if shape.ownsOtherBit then some others else none := by
  rw [presenceAt, FieldShape.ownsRequiredBit, FieldShape.ownsOtherBit, FieldShape.isTracked]
  cases shape.oneofIndex with
  | some index => simp [Presence.bit?]
  | none =>
    cases shape.hasPresence with
    | false => simp [Presence.bit?]
    | true => cases shape.isRequired <;> simp [Presence.bit?]

end

/-! ## The presences of all fields -/

/-- One step of `presencesFrom`: a field that owns a has-bit moves the counter of its kind. -/
theorem presencesFrom_cons (slots required others : Nat) (first : FieldShape)
    (rest : List FieldShape) :
    presencesFrom slots required others (first :: rest) =
      presenceAt slots required others first ::
        presencesFrom slots (required + if first.ownsRequiredBit then 1 else 0)
          (others + if first.ownsOtherBit then 1 else 0) rest := by
  rw [presencesFrom, presenceAt, FieldShape.ownsRequiredBit, FieldShape.ownsOtherBit,
    FieldShape.isTracked]
  cases first.oneofIndex with
  | some index => simp
  | none =>
    cases first.hasPresence with
    | false => simp
    | true => cases first.isRequired <;> simp

/-- The presence at `place`, with both counters moved by the fields before it. -/
theorem getElem?_presencesFrom (slots required others place : Nat) (shapes : List FieldShape) :
    (presencesFrom slots required others shapes)[place]? = shapes[place]?.map
      (presenceAt slots (required + (shapes.take place).countP (·.ownsRequiredBit))
        (others + (shapes.take place).countP (·.ownsOtherBit))) := by
  induction shapes generalizing required others place with
  | nil => rfl
  | cons first rest ih =>
    rw [presencesFrom_cons]
    cases place with
    | zero => rfl
    | succ place =>
      rw [List.getElem?_cons_succ, List.getElem?_cons_succ, ih, List.take_succ_cons,
        List.countP_cons, List.countP_cons, Nat.add_assoc, Nat.add_assoc,
        Nat.add_comm (if first.ownsRequiredBit then 1 else 0),
        Nat.add_comm (if first.ownsOtherBit then 1 else 0)]

/-- The presence of a field at `place`: its has-bit is behind those of its kind before it. -/
def presenceIn (shapes : List FieldShape) (place : Nat) : FieldShape → Presence :=
  presenceAt (slotStart shapes) ((shapes.take place).countP (·.ownsRequiredBit))
    (shapes.countP (·.ownsRequiredBit) + (shapes.take place).countP (·.ownsOtherBit))

/-- `presences` are given by `presenceIn`. -/
theorem getElem?_presences (shapes : List FieldShape) (place : Nat) :
    (presences shapes)[place]? = shapes[place]?.map (presenceIn shapes place) := by
  have hplace := getElem?_presencesFrom (slotStart shapes) 0
    (shapes.countP (·.ownsRequiredBit)) place shapes
  rwa [Nat.zero_add] at hplace

/-- The has-bits that are handed out are consecutive from `required` on, and from `others` on. -/
theorem bits_presencesFrom_perm (slots required others : Nat) (shapes : List FieldShape) :
    ((presencesFrom slots required others shapes).filterMap Presence.bit?).Perm
      (List.range' required (shapes.countP (·.ownsRequiredBit)) ++
        List.range' others (shapes.countP (·.ownsOtherBit))) := by
  induction shapes generalizing required others with
  | nil => exact .refl _
  | cons first rest ih =>
    have hbit : (presenceAt slots required others first).bit? = _ := bit?_presenceAt
    rw [presencesFrom_cons, List.countP_cons, List.countP_cons]
    by_cases hrequired : first.ownsRequiredBit = true
    · have hother : ¬ first.ownsOtherBit = true := FieldShape.not_ownsOtherBit hrequired
      rw [if_pos hrequired] at hbit
      rw [if_pos hrequired, if_neg hother, List.filterMap_cons_some hbit, List.range'_succ]
      exact (ih (required + 1) others).cons required
    · rw [if_neg hrequired] at hbit
      by_cases hother : first.ownsOtherBit = true
      · -- The bit of the field comes before those of required fields that follow.
        rw [if_pos hother] at hbit
        rw [if_neg hrequired, if_pos hother, List.filterMap_cons_some hbit, List.range'_succ]
        exact ((ih required (others + 1)).cons others).trans List.perm_middle.symm
      · rw [if_neg hother] at hbit
        rw [if_neg hrequired, if_neg hother, List.filterMap_cons_none hbit]
        exact ih required others

/-- A field with `isTracked` owns a bit of one of the two kinds. -/
theorem countP_isTracked (shapes : List FieldShape) : shapes.countP (·.isTracked) =
    shapes.countP (·.ownsRequiredBit) + shapes.countP (·.ownsOtherBit) := by
  induction shapes with
  | nil => rfl
  | cons shape rest ih =>
    rw [List.countP_cons, List.countP_cons, List.countP_cons, ih, FieldShape.ownsRequiredBit,
      FieldShape.ownsOtherBit]
    cases shape.isTracked <;> cases shape.isRequired <;> simp <;> omega

/-- The has-bits are the numbers below that of fields with `isTracked`, each once. -/
theorem bits_presences_perm (shapes : List FieldShape) :
    ((presences shapes).filterMap Presence.bit?).Perm
      (List.range (shapes.countP (·.isTracked))) := by
  rw [List.range_eq_range', countP_isTracked, ← List.range'_append_1, Nat.zero_add]
  exact bits_presencesFrom_perm (slotStart shapes) 0 (shapes.countP (·.ownsRequiredBit)) shapes

/-! ## The order of has-bits -/

/-- The fields with `isTracked`, each with its place: sorted so that required ones come first, by a sort that
leaves the order as it is otherwise. -/
def trackedInOrder (shapes : List FieldShape) : List (FieldShape × Nat) :=
  (shapes.zipIdx.filter (·.1.isTracked)).mergeSort fun first second =>
    (!first.1.isRequired) ≤ (!second.1.isRequired)

section

variable {shapes : List FieldShape} {shape : FieldShape} {place bit : Nat}

/-- `trackedInOrder` has the owners of required bits first, then those of other bits. -/
theorem trackedInOrder_eq (shapes : List FieldShape) : trackedInOrder shapes =
    shapes.zipIdx.filter (·.1.ownsRequiredBit) ++ shapes.zipIdx.filter (·.1.ownsOtherBit) := by
  rw [trackedInOrder, mergeSort_key fun entry : FieldShape × Nat => !entry.1.isRequired, List.filter_filter,
    List.filter_filter]
  simp only [Bool.not_not, Bool.and_comm, FieldShape.ownsRequiredBit, FieldShape.ownsOtherBit]

theorem nodup_trackedInOrder (shapes : List FieldShape) : (trackedInOrder shapes).Nodup := by
  have hplaces : (shapes.zipIdx.map (·.2)).Nodup := by
    rw [List.zipIdx_map_snd]
    exact List.nodup_range'
  exact (List.mergeSort_perm _ _).nodup_iff.2 ((List.Nodup.of_map _ hplaces).filter _)

/-- A field that owns a has-bit is in `trackedInOrder` at the place of its bit. -/
theorem getElem?_trackedInOrder (hshape : shapes[place]? = some shape)
    (hbit : presenceIn shapes place shape = .hasBit bit) : (trackedInOrder shapes)[bit]? = some (shape, place) := by
  have hentry : shapes.zipIdx[place]? = some (shape, place) := by
    rw [List.getElem?_zipIdx, hshape, Option.map_some, Nat.zero_add]
  have hcount (p : FieldShape → Bool) (entries : List (FieldShape × Nat)) :
      entries.countP (p ·.1) = (entries.map (·.1)).countP p :=
    List.countP_map.symm
  rw [trackedInOrder_eq]
  rcases presenceAt_eq_hasBit_iff.1 hbit with ⟨howns, rfl⟩ | ⟨howns, rfl⟩
  · have hfound := getElem?_filter_countP_take (p := fun entry => entry.1.ownsRequiredBit) hentry howns
    rw [hcount, List.map_take, List.zipIdx_map_fst] at hfound
    rw [List.getElem?_append_left (List.getElem?_eq_some_iff.1 hfound).1, hfound]
  · -- Other bits come behind all required ones.
    have hfound := getElem?_filter_countP_take (p := fun entry => entry.1.ownsOtherBit) hentry howns
    have hlength := hcount (·.ownsRequiredBit) shapes.zipIdx
    rw [hcount, List.map_take, List.zipIdx_map_fst] at hfound
    rw [List.zipIdx_map_fst, List.countP_eq_length_filter] at hlength
    rw [← hlength, List.getElem?_append_right (Nat.le_add_right _ _), Nat.add_sub_cancel_left, hfound]

/-- The field at `place` owns the has-bit `bit` exactly if it is the `bit`-th of `trackedInOrder`. -/
theorem getElem?_presences_eq_hasBit_iff :
    (presences shapes)[place]? = some (.hasBit bit) ↔
      ∃ shape, (trackedInOrder shapes)[bit]? = some (shape, place) := by
  rw [getElem?_presences, Option.map_eq_some_iff]
  constructor
  · rintro ⟨shape, hshape, hbit⟩
    exact ⟨shape, getElem?_trackedInOrder hshape hbit⟩
  · rintro ⟨shape, hsorted⟩
    obtain ⟨hmem, htracked⟩ := List.mem_filter.1 (List.mem_mergeSort.1 (List.mem_of_getElem? hsorted))
    have hshape := List.mem_zipIdx_iff_getElem?.1 hmem
    refine ⟨shape, hshape, ?_⟩
    -- The field owns some bit, and at the place of that bit stands no other field.
    obtain ⟨own, hown⟩ : ∃ own, presenceIn shapes place shape = .hasBit own := by
      simp only [presenceIn, presenceAt_eq_hasBit_iff, FieldShape.ownsRequiredBit, FieldShape.ownsOtherBit, htracked,
        Bool.true_and]
      cases shape.isRequired <;> simp
    have hother := getElem?_trackedInOrder hshape hown
    have hlt := (List.getElem?_eq_some_iff.1 hother).1
    rw [(List.getElem?_inj hlt (nodup_trackedInOrder shapes)).1 (hother.trans hsorted.symm)] at hown
    exact hown

end

/-! ## The records of a plan -/

section

variable (shapes : List FieldShape) (table : SubmessageTable) (target : Target)

theorem map_presence_records :
    (plan shapes table target).records.map (·.presence) = presences shapes := by
  rw [plan_records, List.map_map, ← placements_map_presence shapes target]
  rfl

theorem map_number_records :
    (plan shapes table target).records.map (·.number) = shapes.map (·.number) :=
  (isLaidOut_plan shapes table target).numbers

/-- The record at `place` is that of the shape there, with `presenceIn`. -/
theorem exists_shape_of_record {place : Nat} {record : FieldRecord}
    (h : (plan shapes table target).records[place]? = some record) :
    ∃ shape, shapes[place]? = some shape ∧ record.number = shape.number ∧
      record.presence = presenceIn shapes place shape := by
  have hpresence := congrArg (·[place]?) (map_presence_records shapes table target)
  simp only [List.getElem?_map, h, getElem?_presences] at hpresence
  have hnumber := congrArg (·[place]?) (map_number_records shapes table target)
  simp only [List.getElem?_map, h] at hnumber
  cases hshape : shapes[place]? with
  | none =>
    rw [hshape] at hnumber
    cases hnumber
  | some shape =>
    rw [hshape] at hnumber hpresence
    exact ⟨shape, rfl, Option.some.inj hnumber, Option.some.inj hpresence⟩

end

end Placement

end SchemaLayout
