import Mathlib.Algebra.Ring.Nat
import Mathlib.Data.List.Basic
import SchemaLayout.Proofs.Layout.Cursor
import SchemaLayout.Proofs.Layout.Slots

/-!
# Layouts in words of 32 bits

Placement computes on natural numbers. Here is the same computation step by step on words: a cursor is moved
over has-bits, slots and values, and every sum and product on the way must fit into 32 bits, or
there is no result (`checkedPlan`). As long as the end of the last value fits, so does everything
before it, and the result is the plan that placement computes (`checkedPlan_eq`).
-/

namespace SchemaLayout.Placement

/-! ## Words -/

/-- What words of 32 bits are below. -/
def word32Limit : Nat := 0x100000000

/-- `number`, if it is a word. -/
def word? (number : Nat) : Option Nat :=
  if number < word32Limit then some number else none

theorem word?_eq {number : Nat} (h : number < word32Limit) : word? number = some number :=
  if_pos h

/-- `alignUp` on words. -/
def alignUp? (stride offset : Nat) : Option Nat :=
  if offset % stride = 0 then some offset else word? (offset + (stride - offset % stride))

/-- `alignUp?` agrees with `alignUp` if that is a word. -/
theorem alignUp?_eq {stride offset : Nat} (h : alignUp stride offset < word32Limit) :
    alignUp? stride offset = some (alignUp stride offset) := by
  unfold alignUp alignUp? at *
  split
  · rfl
  · next hoffset =>
    rw [if_neg hoffset] at h
    exact word?_eq h

/-! ## The steps -/

/-- The bytes of the has-bits, on words. -/
def hasBitBytes? (count : Nat) : Option Nat := do
  let count ← word? count
  if count % 8 = 0 then return count / 8 else word? (count / 8 + 1)

/-- The number of slots, on words. -/
def slotCount? (shapes : List FieldShape) : Option Nat :=
  match (shapes.filterMap (·.oneofIndex)).max? with
  | none => some 0
  | some top => word? (top + 1)

/-- The end of has-bits and slots, on words. -/
def presenceEnd? (hasBits slots : Nat) : Option Nat := do
  if slots = 0 then return hasBits
  let start ← alignUp? slotBytes hasBits
  let room ← word? (slotBytes * slots)
  word? (start + room)

/-- How the fields are tracked, on words, where `start` is the offset of the first slot. -/
def presencesFrom? (start required others : Nat) : List FieldShape → Option (List Presence)
  | [] => some []
  | shape :: rest =>
    match shape.oneofIndex with
    | some index => do
      let distance ← word? (slotBytes * index)
      let offset ← word? (start + distance)
      return .oneofSlot offset :: (← presencesFrom? start required others rest)
    | none => do
      if !shape.hasPresence then return .none :: (← presencesFrom? start required others rest)
      else if shape.isRequired then
        return .hasBit (← word? required) :: (← presencesFrom? start (required + 1) others rest)
      else return .hasBit (← word? others) :: (← presencesFrom? start required (others + 1) rest)

/-- Moves a cursor over the values at the given places and notes their offsets. -/
def placeAll? (target : Target) :
    (items : List (StorageKind × Nat)) → (offsets : List Nat) → (cursor : Nat) →
      Option (List Nat × Nat)
  | [], offsets, cursor => some (offsets, cursor)
  | (kind, place) :: rest, offsets, cursor => do
    let offset ← alignUp? (kind.stride target) cursor
    let next ← word? (offset + kind.stride target)
    placeAll? target rest (offsets.set place offset) next

/-- The first number behind `last` that is not next in the ascending `numbers`, on words. -/
def denseBelow? (last : Nat) : (numbers : List Nat) → Option Nat
  | [] => word? (last + 1)
  | number :: rest => do
    let next ← word? (last + 1)
    if number = next then denseBelow? number rest else return next

/-- The plan of a message on `target`, computed on words: `none` where a word overflows. -/
def checkedPlan (shapes : List FieldShape) (table : SubmessageTable) (target : Target) :
    Option LayoutPlan := do
  let kinds := shapes.map (·.storageKind)
  let hasBits ← hasBitBytes? shapes.length
  let slots ← slotCount? shapes
  let start ← alignUp? slotBytes hasBits
  let required := shapes.countP fun shape => shape.isTracked && shape.isRequired
  let presences ← presencesFrom? start 0 required shapes
  let cursor ← presenceEnd? hasBits slots
  let (offsets, size) ← placeAll? target (inStorageOrder (·.1) kinds.zipIdx)
    (List.replicate shapes.length 0) cursor
  return {
    size
    requiredCount := ← word? (shapes.countP (·.isRequired))
    explicitCount := ← word? (shapes.countP (·.isTracked))
    denseBelow := ← denseBelow? 0 (shapes.map (·.number))
    records := ((shapes.zip offsets).zip presences).map fun ((shape, offset), presence) =>
      record table shape offset presence
  }

/-! ## The steps fit -/

theorem hasBitBytes?_eq {count : Nat} (h : count < word32Limit) :
    hasBitBytes? count = some (hasBitBytes count) := by
  rw [hasBitBytes?, word?_eq h]
  show (if count % 8 = 0 then some (count / 8) else word? (count / 8 + 1)) = _
  simp only [word32Limit] at h
  rw [hasBitBytes]
  split
  · congr 1
    omega
  · rw [word?_eq (by simp only [word32Limit]; omega)]
    congr 1
    omega

theorem slotCount?_eq {shapes : List FieldShape} (h : slotCount shapes < word32Limit) :
    slotCount? shapes = some (slotCount shapes) := by
  rw [slotCount_eq] at h ⊢
  rw [slotCount?]
  cases hmax : (shapes.filterMap (·.oneofIndex)).max? with
  | none => rfl
  | some top =>
    rw [hmax] at h
    exact word?_eq h

theorem presenceEnd?_eq {shapes : List FieldShape} (h : presenceEnd shapes < word32Limit) :
    presenceEnd? (hasBitBytes shapes.length) (slotCount shapes) = some (presenceEnd shapes) := by
  rw [presenceEnd] at h ⊢
  rw [presenceEnd?]
  by_cases hcount : slotCount shapes = 0
  · rw [if_pos hcount, if_pos hcount]
    rfl
  · rw [if_neg hcount] at h
    rw [if_neg hcount, if_neg hcount, alignUp?_eq (Nat.lt_of_le_of_lt (Nat.le_add_right _ _) h),
      Option.bind_eq_bind, Option.bind_some, word?_eq (Nat.lt_of_le_of_lt (Nat.le_add_left _ _) h)]
    exact word?_eq h

/-- `presencesFrom?` agrees with `presencesFrom` if all bits and slots are words. -/
theorem presencesFrom?_eq (start required others : Nat) {shapes : List FieldShape}
    (hrequired : required + shapes.length < word32Limit)
    (hothers : others + shapes.length < word32Limit)
    (hslots : ∀ shape ∈ shapes, ∀ index, shape.oneofIndex = some index →
      start + slotBytes * index < word32Limit) :
    presencesFrom? start required others shapes
      = some (presencesFrom start required others shapes) := by
  induction shapes generalizing required others with
  | nil => rfl
  | cons shape rest ih =>
    rw [List.length_cons] at hrequired hothers
    obtain ⟨hshape, hrest⟩ := List.forall_mem_cons.1 hslots
    rw [presencesFrom?, presencesFrom]
    -- Each field moves one of the counters at most, and the room that is left shrinks with the fields.
    cases hindex : shape.oneofIndex with
    | some index =>
      have hslot := hshape index hindex
      simp only [word?_eq (Nat.lt_of_le_of_lt (Nat.le_add_left _ _) hslot), word?_eq hslot,
        ih required others (Nat.lt_of_succ_lt hrequired) (Nat.lt_of_succ_lt hothers) hrest,
        Option.bind_eq_bind, Option.bind_some]
      rfl
    | none =>
      simp only [word?_eq (show required < word32Limit by omega),
        word?_eq (show others < word32Limit by omega),
        ih required others (Nat.lt_of_succ_lt hrequired) (Nat.lt_of_succ_lt hothers) hrest,
        ih (required + 1) others (by omega) (Nat.lt_of_succ_lt hothers) hrest,
        ih required (others + 1) (Nat.lt_of_succ_lt hrequired) (by omega) hrest]
      split
      · rfl
      · split <;> rfl

theorem le_denseBelow (next : Nat) (numbers : List Nat) : next ≤ denseBelow next numbers := by
  induction numbers generalizing next with
  | nil => exact Nat.le_refl _
  | cons number rest ih =>
    have hrest := ih (next + 1)
    rw [denseBelow]
    split <;> omega

theorem denseBelow_le (next : Nat) (numbers : List Nat) :
    denseBelow next numbers ≤ next + numbers.length := by
  induction numbers generalizing next with
  | nil => exact Nat.le_refl _
  | cons number rest ih =>
    have hrest := ih (next + 1)
    rw [denseBelow, List.length_cons]
    split <;> omega

/-- `denseBelow?` agrees with `denseBelow`: the numbers that it compares with never go back, so all of them are
words if the last one is. -/
theorem denseBelow?_eq {last : Nat} {numbers : List Nat}
    (h : denseBelow (last + 1) numbers < word32Limit) :
    denseBelow? last numbers = some (denseBelow (last + 1) numbers) := by
  induction numbers generalizing last with
  | nil => exact word?_eq h
  | cons number rest ih =>
    have hnext : last + 1 < word32Limit := Nat.lt_of_le_of_lt (le_denseBelow _ _) h
    rw [denseBelow?, word?_eq hnext]
    rw [denseBelow] at h ⊢
    show (if number = last + 1 then _ else some (last + 1)) = _
    split
    · next hnumber =>
      rw [if_pos hnumber] at h
      rw [hnumber, ih h]
    · rfl

/-! ## Notes of offsets -/

/-- Notes values at their places in `list`. -/
def noteAll (notes : List (Nat × Nat)) (list : List Nat) : List Nat :=
  notes.foldl (fun list note => list.set note.1 note.2) list

/-- Notes that agree with `final` and cover what differs from it make it. -/
theorem noteAll_eq {notes : List (Nat × Nat)} {list final : List Nat}
    (hlength : list.length = final.length) (hnotes : ∀ note ∈ notes, final[note.1]? = some note.2)
    (hcover : ∀ place, place ∈ notes.map (·.1) ∨ list[place]? = final[place]?) :
    noteAll notes list = final := by
  induction notes generalizing list with
  | nil =>
    refine List.ext_getElem? fun place => ?_
    rcases hcover place with hplace | hplace
    · simp at hplace
    · exact hplace
  | cons note rest ih =>
    obtain ⟨hnote, hrest⟩ := List.forall_mem_cons.1 hnotes
    refine ih (by rw [List.length_set, hlength]) hrest fun place => ?_
    by_cases hplace : note.1 = place
    · -- The note has just put the value there that belongs there.
      have hin : note.1 < list.length := by
        rw [hlength]
        exact (List.getElem?_eq_some_iff.1 hnote).1
      right
      rw [← hplace, hnote, List.getElem?_set_self hin]
    · rcases hcover place with hmem | hmem
      · rw [List.map_cons, List.mem_cons] at hmem
        exact Or.inl (hmem.resolve_left fun heq => hplace heq.symm)
      · right
        rw [List.getElem?_set_ne hplace, hmem]

/-- Noting the elements of `final` at their places makes it, in whatever order. -/
theorem noteAll_of_perm {notes : List (Nat × Nat)} {list final : List Nat}
    (hlength : list.length = final.length)
    (hperm : notes.Perm (final.zipIdx.map Prod.swap)) : noteAll notes list = final := by
  apply noteAll_eq hlength
  · intro note hnote
    obtain ⟨entry, hentry, rfl⟩ := List.mem_map.1 (hperm.mem_iff.1 hnote)
    exact List.mem_zipIdx_iff_getElem?.1 hentry
  · intro place
    by_cases hplace : place < final.length
    · left
      have hentry : (final[place], place) ∈ final.zipIdx :=
        List.mem_zipIdx_iff_getElem?.2 (List.getElem?_eq_getElem hplace)
      exact List.mem_map.2 ⟨_, hperm.mem_iff.2 (List.mem_map_of_mem hentry), rfl⟩
    · right
      rw [List.getElem?_eq_none (by omega), List.getElem?_eq_none (by omega)]

/-- `placeAll?` notes what `place` finds, if the cursor ends at a word. -/
theorem placeAll?_eq {target : Target} {items : List (StorageKind × Nat)} {offsets : List Nat}
    {cursor : Nat} (h : (place target (items.map (·.1)) cursor).2 < word32Limit) :
    placeAll? target items offsets cursor =
      some (noteAll ((items.map (·.2)).zip (place target (items.map (·.1)) cursor).1) offsets,
        (place target (items.map (·.1)) cursor).2) := by
  induction items generalizing offsets cursor with
  | nil => rfl
  | cons item rest ih =>
    obtain ⟨kind, index⟩ := item
    simp only [List.map_cons, place] at h ⊢
    -- The cursor never goes back, so it is a word now if it is one in the end.
    have hnext : alignUp (kind.stride target) cursor + kind.stride target < word32Limit :=
      Nat.lt_of_le_of_lt (chain_placedSpans target (rest.map (·.1)) _).start_le_stop h
    have hoffset : alignUp (kind.stride target) cursor < word32Limit :=
      Nat.lt_of_le_of_lt (Nat.le_add_right _ _) hnext
    rw [placeAll?, alignUp?_eq hoffset, Option.bind_eq_bind, Option.bind_some, word?_eq hnext,
      Option.bind_some, ih h]
    rfl

/-- With the values in the order of storage, `placeAll?` notes what `offsets` computes. -/
theorem placeAll?_inStorageOrder {target : Target} {shapes : List FieldShape}
    (h : (offsets target shapes).2 < word32Limit) :
    placeAll? target (inStorageOrder (·.1) (shapes.map (·.storageKind)).zipIdx)
      (List.replicate shapes.length 0) (presenceEnd shapes) = some (offsets target shapes) := by
  have hcursor := place_inStorageOrder target shapes
  have hlength := length_offsets target shapes
  generalize hoffsets : (offsets target shapes).1 = found at hcursor hlength
  generalize hkinds : shapes.map (·.storageKind) = kinds at hcursor
  have hsame : kinds.length = found.length := by rw [← hkinds, List.length_map, hlength]
  -- All lists in sight are views of this one: kinds with their offsets and places.
  let all := (kinds.zip found).zipIdx
  let ordered := inStorageOrder (·.1.1) all
  have hitems : inStorageOrder (·.1) kinds.zipIdx = ordered.map fun entry => (entry.1.1, entry.2) := by
    have hall : kinds.zipIdx = all.map fun entry => (entry.1.1, entry.2) := by
      conv => lhs; rw [← List.map_fst_zip (Nat.le_of_eq hsame), List.zipIdx_map]
      rfl
    rw [hall, ← map_inStorageOrder]
    rfl
  have hpairs : inStorageOrder (·.1) (kinds.zip found) = ordered.map (·.1) := by
    conv => lhs; rw [← List.zipIdx_map_fst 0 (kinds.zip found), ← map_inStorageOrder]
    rfl
  have hids : inStorageOrder id kinds = (ordered.map fun entry => (entry.1.1, entry.2)).map (·.1) := by
    have hfirst := map_inStorageOrder (·.1) id (kinds.zip found)
    rw [List.map_fst_zip (Nat.le_of_eq hsame)] at hfirst
    rw [← hfirst, Function.id_comp, hpairs, List.map_map, List.map_map]
    rfl
  -- In the order of storage, each offset is noted at the place of its field.
  have hnotes : (ordered.map fun entry => (entry.2, entry.1.2)).Perm
      (found.zipIdx.map Prod.swap) := by
    have hall : found.zipIdx.map Prod.swap = all.map fun entry => (entry.2, entry.1.2) := by
      conv => lhs; rw [← List.map_snd_zip (Nat.le_of_eq hsame.symm), List.zipIdx_map, List.map_map]
      rfl
    rw [hall]
    exact (inStorageOrder_perm _ all).map _
  rw [hpairs, hids] at hcursor
  rw [hitems, placeAll?_eq (by rw [hcursor]; exact h), hcursor]
  simp only [List.map_map, List.zip_map']
  congr 1
  refine Prod.ext ((noteAll_of_perm ?_ hnotes).trans hoffsets.symm) rfl
  rw [List.length_replicate, hlength]

/-! ## The plan -/

theorem presenceEnd_le_size (target : Target) (shapes : List FieldShape) :
    presenceEnd shapes ≤ (offsets target shapes).2 := by
  have hchain := chain_placedSpans target (inStorageOrder id (shapes.map (·.storageKind)))
    (presenceEnd shapes)
  rw [place_inStorageOrder] at hchain
  exact hchain.start_le_stop

/-- The size is at most has-bits, slots and 32 bytes for each value. -/
theorem size_le (target : Target) (shapes : List FieldShape) :
    (offsets target shapes).2 ≤
      hasBitBytes shapes.length + slotBytes * (slotCount shapes + 1) + 32 * shapes.length := by
  have hplace := place_stop_le target (inStorageOrder id (shapes.map (·.storageKind)))
    (presenceEnd shapes)
  have hpresence := presenceEnd_le shapes
  rw [place_inStorageOrder, (inStorageOrder_perm _ _).length_eq, List.length_map] at hplace
  exact Nat.le_trans hplace (Nat.add_le_add_right hpresence _)

/-- A slot ends before the values start. -/
theorem slot_le_presenceEnd {shapes : List FieldShape} {index : Nat}
    (h : index < slotCount shapes) :
    slotStart shapes + slotBytes * index + slotBytes ≤ presenceEnd shapes := by
  have hroom : slotBytes * index + slotBytes ≤ slotBytes * slotCount shapes :=
    Nat.mul_le_mul_left slotBytes h
  rw [presenceEnd, if_neg (by omega)]
  omega

/-- `checkedPlan` agrees with `plan` if the number of fields and the size are words. -/
theorem checkedPlan_eq {shapes : List FieldShape} (table : SubmessageTable) {target : Target}
    (hcount : 2 * shapes.length < word32Limit) (hstart : slotStart shapes < word32Limit)
    (hsize : (offsets target shapes).2 < word32Limit) :
    checkedPlan shapes table target = some (plan shapes table target) := by
  have hpresence : presenceEnd shapes < word32Limit :=
    Nat.lt_of_le_of_lt (presenceEnd_le_size target shapes) hsize
  have hslot {index : Nat} (hindex : index < slotCount shapes) :
      slotStart shapes + slotBytes * index < word32Limit := by
    have hend := slot_le_presenceEnd hindex
    simp only [slotBytes] at hend ⊢
    omega
  -- The end of the last slot is a word, so the number of slots is one all the more.
  have hslots : slotCount shapes < word32Limit := by
    by_cases hzero : slotCount shapes = 0
    · rw [hzero]
      decide
    · have hlast := hslot (Nat.pred_lt hzero)
      have htop := slot_le_presenceEnd (Nat.pred_lt hzero)
      simp only [slotBytes, Nat.pred_eq_sub_one] at hlast htop
      omega
  have hcounts (p : FieldShape → Bool) : shapes.countP p < word32Limit :=
    Nat.lt_of_le_of_lt List.countP_le_length (by omega)
  have hrequired (p : FieldShape → Bool) : shapes.countP p + shapes.length < word32Limit := by
    have hle : shapes.countP p ≤ shapes.length := List.countP_le_length
    omega
  have hpresences := presencesFrom?_eq (slotStart shapes) 0
    (shapes.countP fun shape => shape.isTracked && shape.isRequired) (by omega) (hrequired _)
    fun shape hshape index hindex => hslot (lt_slotCount hshape hindex)
  have hdense : denseBelow? 0 (shapes.map (·.number)) = some (denseBelow 1 (shapes.map (·.number))) := by
    have hle := denseBelow_le 1 (shapes.map (·.number))
    rw [List.length_map] at hle
    refine denseBelow?_eq (Nat.lt_of_le_of_lt hle ?_)
    simp only [word32Limit] at hcount ⊢
    omega
  simp only [checkedPlan, hasBitBytes?_eq (show shapes.length < word32Limit by omega),
    slotCount?_eq hslots, alignUp?_eq hstart, presenceEnd?_eq hpresence,
    placeAll?_inStorageOrder hsize, word?_eq (hcounts _), hdense, Option.bind_eq_bind,
    Option.bind_some]
  rw [show alignUp slotBytes (hasBitBytes shapes.length) = slotStart shapes from rfl, hpresences]
  rfl

end SchemaLayout.Placement
