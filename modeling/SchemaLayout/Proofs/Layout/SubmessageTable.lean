import SchemaLayout.Proofs.Layout.Bounds

/-!
# Tables of submessages

What the table of a message says, in terms of its fields. Types are met in the order in which the fields are
placed, and each is entered where a field refers to it for the first time. So the table is known entry by entry
(`toList_submessages`): it has the types in the order of their first references, an entry has the place of its
type as index, and lists the fields that refer to the type. Adding one field changes at most one entry, and in the
same way (`toList_note`).

Indices end at the largest number of 16 bits. Types beyond it share it, but what has so many types has no
program, since a record leaves 14 bits to an index. Hence fields with the same index in a program refer to the same
type (`layout_identifiesTypes`).
-/

namespace SchemaLayout

/-- The name of the type that a field refers to. -/
def FieldShape.typeName? (shape : FieldShape) : Option String :=
  shape.submessage.map (·.typeName)

namespace Placement

/-! ## Entries -/

/-- The types that fields refer to, in the order of first reference. -/
def typeNames (placed : List FieldShape) : List String :=
  (placed.filterMap FieldShape.typeName?).eraseDups

/-- The fields that refer to `typeName`. -/
def referring (placed : List FieldShape) (typeName : String) : List FieldShape :=
  placed.filter (·.typeName? = some typeName)

/-- The first reference to `typeName`. -/
def firstRef? (placed : List FieldShape) (typeName : String) : Option SubmessageRef :=
  (placed.filterMap (·.submessage)).find? (·.typeName = typeName)

/-- The entry of a type that is met as the one after `place` others. -/
def tableEntry (placed : List FieldShape) (place : Nat) (typeName : String) : Submessage where
  typeName := typeName
  index := min (place + 1) SubmessageTable.maxIndex
  needsCheck := (firstRef? placed typeName).any (·.needsCheck)
  fieldNumbers := ((referring placed typeName).map (·.number)).toArray

/-- The entries of all `typeNames`. -/
def tableEntries (placed : List FieldShape) : List (String × Submessage) :=
  (typeNames placed).mapIdx fun place typeName => (typeName, tableEntry placed place typeName)

section

variable (placed : List FieldShape) {shape : FieldShape} {ref : SubmessageRef}

theorem mem_typeNames {typeName : String} :
    typeName ∈ typeNames placed ↔ ∃ shape ∈ placed, shape.typeName? = some typeName := by
  rw [typeNames, List.mem_eraseDups, List.mem_filterMap]

theorem nodup_typeNames : (typeNames placed).Nodup :=
  nodup_eraseDups _

theorem length_tableEntries : (tableEntries placed).length = (typeNames placed).length :=
  List.length_mapIdx

theorem map_fst_tableEntries : (tableEntries placed).map (·.1) = typeNames placed := by
  unfold tableEntries
  apply List.ext_getElem
  · rw [List.length_map, List.length_mapIdx]
  · intro place _ _
    rw [List.getElem_map, List.getElem_mapIdx]

theorem typeName_of_mem_tableEntries {entry : String × Submessage} (h : entry ∈ tableEntries placed) :
    entry.2.typeName = entry.1 := by
  unfold tableEntries at h
  obtain ⟨place, _, rfl⟩ := List.mem_mapIdx.1 h
  rfl

/-! ### One more field -/

/-- One more field adds its type to `typeNames` unless it is there. -/
theorem typeNames_concat (href : shape.submessage = some ref) : typeNames (placed ++ [shape]) =
    if ref.typeName ∈ typeNames placed then typeNames placed else typeNames placed ++ [ref.typeName] := by
  have hname : [shape].filterMap FieldShape.typeName? = [ref.typeName] := by
    simp [FieldShape.typeName?, href]
  unfold typeNames
  simp only [List.filterMap_append, hname, eraseDups_concat, List.mem_eraseDups]

/-- One more field leaves the entries of other types. -/
theorem tableEntry_concat_of_ne {typeName : String} (h : shape.typeName? ≠ some typeName) (place : Nat) :
    tableEntry (placed ++ [shape]) place typeName = tableEntry placed place typeName := by
  have hrefs : referring (placed ++ [shape]) typeName = referring placed typeName := by
    simp [referring, h]
  have hfirst : firstRef? (placed ++ [shape]) typeName = firstRef? placed typeName := by
    unfold firstRef?
    cases href : shape.submessage with
    | none => simp [href]
    | some ref =>
      have hname : ref.typeName ≠ typeName := by simpa [FieldShape.typeName?, href] using h
      simp [href, hname]
  unfold tableEntry
  rw [hrefs, hfirst]

theorem firstRef?_isSome_of_mem {typeName : String} (h : typeName ∈ typeNames placed) :
    (firstRef? placed typeName).isSome = true := by
  obtain ⟨shape, hshape, hname⟩ := (mem_typeNames placed).1 h
  obtain ⟨ref, href, hsame⟩ := Option.map_eq_some_iff.1 hname
  unfold firstRef?
  rw [List.find?_isSome]
  exact ⟨ref, List.mem_filterMap.2 ⟨shape, hshape, href⟩, by simpa using hsame⟩

/-- A type that was met before gets another field. -/
theorem tableEntry_concat_of_mem (href : shape.submessage = some ref)
    (h : ref.typeName ∈ typeNames placed) (place : Nat) :
    tableEntry (placed ++ [shape]) place ref.typeName =
      { tableEntry placed place ref.typeName with
        fieldNumbers := (tableEntry placed place ref.typeName).fieldNumbers.push shape.number } := by
  have hname : shape.typeName? = some ref.typeName := by simp [FieldShape.typeName?, href]
  have hfirst : firstRef? (placed ++ [shape]) ref.typeName = firstRef? placed ref.typeName := by
    obtain ⟨first, hfirst⟩ := Option.isSome_iff_exists.1 (firstRef?_isSome_of_mem placed h)
    unfold firstRef? at hfirst ⊢
    rw [List.filterMap_append, List.find?_append, hfirst]
    rfl
  unfold tableEntry
  simp [hfirst, referring, hname]

/-- A new type gets an entry with the field. -/
theorem tableEntry_concat_of_not_mem (href : shape.submessage = some ref)
    (h : ref.typeName ∉ typeNames placed) (place : Nat) :
    tableEntry (placed ++ [shape]) place ref.typeName = {
      typeName := ref.typeName
      index := min (place + 1) SubmessageTable.maxIndex
      needsCheck := ref.needsCheck
      fieldNumbers := #[shape.number] } := by
  have hname : shape.typeName? = some ref.typeName := by simp [FieldShape.typeName?, href]
  -- No field before refers to the type.
  have hnone (other : FieldShape) (hother : other ∈ placed) : other.typeName? ≠ some ref.typeName :=
    fun hsame => h ((mem_typeNames placed).2 ⟨other, hother, hsame⟩)
  have hrefs : referring placed ref.typeName = [] := by
    unfold referring
    rw [List.filter_eq_nil_iff]
    intro other hother
    simpa using hnone other hother
  have hbefore : firstRef? placed ref.typeName = none := by
    unfold firstRef?
    rw [List.find?_eq_none]
    intro known hknown
    obtain ⟨other, hother, hsame⟩ := List.mem_filterMap.1 hknown
    have hne := hnone other hother
    simpa [FieldShape.typeName?, hsame] using hne
  have hfirst : firstRef? (placed ++ [shape]) ref.typeName = some ref := by
    unfold firstRef? at hbefore ⊢
    rw [List.filterMap_append, List.find?_append, hbefore]
    simp [href]
  unfold tableEntry
  rw [hfirst]
  unfold referring at hrefs ⊢
  rw [List.filter_append, hrefs]
  simp [hname]

/-! ### The table -/

variable {placed} {table : SubmessageTable}

/-- A table with these entries finds exactly `typeNames`. -/
theorem isSome_find?_iff (h : table.toList = tableEntries placed) {typeName : String} :
    (table.find? typeName).isSome = true ↔ typeName ∈ typeNames placed := by
  rw [OrderedMap.isSome_find?_iff, OrderedMap.keys, h, map_fst_tableEntries]

theorem tableEntries_concat_of_none (placed : List FieldShape) (h : shape.submessage = none) :
    tableEntries (placed ++ [shape]) = tableEntries placed := by
  have hnames : typeNames (placed ++ [shape]) = typeNames placed := by
    simp [typeNames, FieldShape.typeName?, h]
  have hother (typeName : String) : shape.typeName? ≠ some typeName := by
    simp [FieldShape.typeName?, h]
  unfold tableEntries
  simp only [hnames, tableEntry_concat_of_ne placed (hother _)]

theorem typeName?_ne (href : shape.submessage = some ref) {typeName : String} (h : typeName ≠ ref.typeName) :
    shape.typeName? ≠ some typeName := by
  simpa [FieldShape.typeName?, href] using h.symm

/-- `collect` of a known type changes the entries as `tableEntries` says. -/
theorem toList_collect_of_mem (h : table.toList = tableEntries placed) (href : shape.submessage = some ref)
    (hmem : ref.typeName ∈ typeNames placed) :
    (table.collect ref shape.number).toList = tableEntries (placed ++ [shape]) := by
  unfold SubmessageTable.collect
  rw [OrderedMap.toList_update_of_isSome ((isSome_find?_iff h).2 hmem), h]
  unfold tableEntries
  rw [typeNames_concat placed href, if_pos hmem]
  apply List.ext_getElem
  · rw [List.length_map, List.length_mapIdx, List.length_mapIdx]
  · intro place _ hright
    have hplace : place < (typeNames placed).length := by rwa [List.length_mapIdx] at hright
    simp only [List.getElem_map, List.getElem_mapIdx]
    by_cases hsame : (typeNames placed)[place] = ref.typeName
    · rw [if_pos hsame, hsame, tableEntry_concat_of_mem placed href hmem]
    · rw [if_neg hsame, tableEntry_concat_of_ne placed (typeName?_ne href hsame)]

/-- `collect` of a new type changes the entries as `tableEntries` says. -/
theorem toList_collect_of_not_mem (h : table.toList = tableEntries placed) (href : shape.submessage = some ref)
    (hnew : ref.typeName ∉ typeNames placed) :
    (table.collect ref shape.number).toList = tableEntries (placed ++ [shape]) := by
  have hsize : table.size = (typeNames placed).length := by
    rw [← OrderedMap.length_toList, h, length_tableEntries]
  have hnone : table.find? ref.typeName = none := by
    rw [← Option.not_isSome_iff_eq_none, isSome_find?_iff h]
    exact hnew
  unfold SubmessageTable.collect
  rw [OrderedMap.toList_update_of_none hnone, h, hsize]
  unfold tableEntries
  rw [typeNames_concat placed href, if_neg hnew, List.mapIdx_append, List.mapIdx_cons, List.mapIdx_nil,
    Nat.zero_add, tableEntry_concat_of_not_mem placed href hnew]
  congr 1
  -- The entries that are there stay as they are.
  rw [List.mapIdx_eq_mapIdx_iff]
  intro place hplace
  have hne : (typeNames placed)[place] ≠ ref.typeName := fun hsame => hnew (hsame ▸ List.getElem_mem hplace)
  rw [tableEntry_concat_of_ne placed (typeName?_ne href hne)]

/-- `note` keeps the table equal to `tableEntries`. -/
theorem toList_note (h : table.toList = tableEntries placed) (shape : FieldShape) :
    (note table shape).toList = tableEntries (placed ++ [shape]) := by
  unfold note
  cases href : shape.submessage with
  | none => exact h.trans (tableEntries_concat_of_none placed href).symm
  | some ref =>
    by_cases hmem : ref.typeName ∈ typeNames placed
    · exact toList_collect_of_mem h href hmem
    · exact toList_collect_of_not_mem h href hmem

/-- From `.empty`, `note` for each field gives `tableEntries`. -/
theorem toList_foldl_note (placed : List FieldShape) :
    (placed.foldl note .empty).toList = tableEntries placed := by
  induction placed using List.reverseRecOn with
  | nil => rfl
  | append_singleton placed shape ih =>
    rw [List.foldl_append]
    exact toList_note ih shape

/-- `submessages` are the `tableEntries` of the fields `byStorage`. -/
theorem toList_submessages (shapes : List FieldShape) :
    (submessages shapes).toList = tableEntries (byStorage shapes) :=
  toList_foldl_note (byStorage shapes)

end

/-! ## Indices -/

section

variable {shapes : List FieldShape} {typeName : String}

theorem length_submessages : (submessages shapes).values.length = (typeNames (byStorage shapes)).length := by
  rw [OrderedMap.values, List.length_map, toList_submessages, length_tableEntries]

theorem map_typeName_submessages :
    (submessages shapes).values.map (·.typeName) = typeNames (byStorage shapes) := by
  rw [OrderedMap.values, List.map_map, toList_submessages, ← map_fst_tableEntries]
  exact List.map_congr_left fun entry hentry => typeName_of_mem_tableEntries _ hentry

/-- The submessage at `place` is the `tableEntry` of the type name there. -/
theorem getElem?_submessages_eq_some_iff {place : Nat} {info : Submessage} :
    (submessages shapes).values[place]? = some info ↔
      ∃ typeName, (typeNames (byStorage shapes))[place]? = some typeName ∧
        tableEntry (byStorage shapes) place typeName = info := by
  rw [OrderedMap.values, toList_submessages]
  unfold tableEntries
  rw [List.getElem?_map, List.getElem?_mapIdx, Option.map_map, Option.map_eq_some_iff]
  rfl

/-- What is listed for a type is what the first field that refers to it says of it. -/
theorem exists_ref_of_mem_submessages {info : Submessage} (h : info ∈ (submessages shapes).values) :
    ∃ shape ∈ shapes, ∃ ref, shape.submessage = some ref ∧ info.typeName = ref.typeName ∧
      info.needsCheck = ref.needsCheck := by
  obtain ⟨place, hplace⟩ := List.mem_iff_getElem?.1 h
  obtain ⟨typeName, hname, rfl⟩ := getElem?_submessages_eq_some_iff.1 hplace
  have hsome := firstRef?_isSome_of_mem (byStorage shapes) (List.mem_of_getElem? hname)
  obtain ⟨ref, hfirst⟩ := Option.isSome_iff_exists.1 hsome
  have hcheck : (tableEntry (byStorage shapes) place typeName).needsCheck = ref.needsCheck := by
    rw [tableEntry, hfirst]
    rfl
  unfold firstRef? at hfirst
  have hsame : ref.typeName = typeName := by simpa using List.find?_some hfirst
  obtain ⟨shape, hshape, href⟩ := List.mem_filterMap.1 (List.mem_of_find?_eq_some hfirst)
  exact ⟨shape, (byStorage_perm shapes).mem_iff.1 hshape, ref, href, hsame.symm, hcheck⟩

/-- A type that a field refers to has a place in `typeNames`. -/
theorem exists_place {shape : FieldShape} (hshape : shape ∈ shapes) (hname : shape.typeName? = some typeName) :
    ∃ place : Nat, (typeNames (byStorage shapes))[place]? = some typeName := by
  have hmem : shape ∈ byStorage shapes := (byStorage_perm shapes).mem_iff.2 hshape
  exact List.mem_iff_getElem?.1 ((mem_typeNames _).2 ⟨shape, hmem, hname⟩)

/-- `submessageIndex` is one more than the place of the type, up to `maxIndex`. -/
theorem submessageIndex_eq {shape : FieldShape} {place : Nat}
    (hplace : (typeNames (byStorage shapes))[place]? = some typeName)
    (hname : shape.typeName? = some typeName) :
    submessageIndex (submessages shapes) shape = min (place + 1) SubmessageTable.maxIndex := by
  obtain ⟨ref, href, rfl⟩ := Option.map_eq_some_iff.1 hname
  have hentry : (ref.typeName, tableEntry (byStorage shapes) place ref.typeName)
      ∈ (submessages shapes).toList := by
    rw [toList_submessages]
    exact List.mem_iff_getElem?.2 ⟨place, by simp [tableEntries, hplace]⟩
  unfold submessageIndex
  rw [href, Option.bind_some, SubmessageTable.index?, OrderedMap.find?_eq_some_iff.2 hentry]
  rfl

/-- With more than `0x3FFF` types, no plan `Fits`. -/
theorem not_fits_of_length_lt (h : 0x3FFF < (typeNames (byStorage shapes)).length) (target : Target) :
    ¬(plan shapes (submessages shapes) target).Fits := by
  intro hfits
  -- The first type without an index in programs, and a field that refers to it.
  obtain ⟨typeName, hplace⟩ : ∃ typeName, (typeNames (byStorage shapes))[0x3FFF]? = some typeName :=
    ⟨_, List.getElem?_eq_getElem h⟩
  obtain ⟨shape, hshape, hname⟩ := (mem_typeNames _).1 (List.mem_of_getElem? hplace)
  have hmem : shape ∈ shapes := (byStorage_perm shapes).mem_iff.1 hshape
  have hindex := (fits_plan_iff.1 hfits).1.submessages shape hmem
  rw [submessageIndex_eq hplace hname] at hindex
  unfold SubmessageTable.maxIndex at hindex
  omega

end

/-! ## Layouts -/

section

variable (shapes : List FieldShape) (target : Target)

/-- The record of a field has its number and its `submessageIndex`. -/
theorem record_of_mem_zip {table : SubmessageTable} {field : FieldShape × FieldRecord}
    (h : field ∈ shapes.zip (plan shapes table target).records) :
    field.1 ∈ shapes ∧ field.2.number = field.1.number ∧ field.2.submessage = submessageIndex table field.1 := by
  have hmem : field.1 ∈ shapes := (List.of_mem_zip h).1
  rw [zip_plan_records] at h
  obtain ⟨entry, _, rfl⟩ := List.mem_map.1 h
  exact ⟨hmem, rfl, rfl⟩

theorem pairwise_offset_lt (table : SubmessageTable) :
    (inStorageOrder (·.1.storageKind) (shapes.zip (plan shapes table target).records)).Pairwise
      fun first second => first.2.offset < second.2.offset := by
  refine (pairwise_stored shapes table target).imp ?_
  intro first second hbehind
  have hstride := first.1.storageKind.stride_pos target
  show first.2.offset < second.2.offset
  have hstop : first.2.offset + first.1.storageKind.stride target ≤ second.2.offset := hbehind
  omega

end

/-- The index of each record is 0 exactly without a submessage, follows the order in which types are first
stored, and tells types apart as long as a program holds it. -/
structure IdentifiesTypes (shapes : List FieldShape) (layout : MessageLayout) : Prop where
  /-- Each field has its record, with the index zero exactly if it holds no message. -/
  zero : ∀ target, List.Forall₂ (fun shape record =>
    record.number = shape.number ∧ (record.submessage = 0 ↔ shape.submessage = none))
      shapes (layout.plans.get target).records
  /-- The order of storage is that in which the values of the fields lie. -/
  placed : ∀ target, ∃ fields : List (FieldShape × FieldRecord),
    fields.Perm (shapes.zip (layout.plans.get target).records) ∧
    fields.map (·.1) = byStorage shapes ∧
    fields.Pairwise fun first second => first.2.offset < second.2.offset
  /-- Types are listed in the order in which the fields placed refer to them for the first time. -/
  names : layout.submessages.map (·.typeName) = typeNames (byStorage shapes)
  nodup : (layout.submessages.map (·.typeName)).Nodup
  /-- The fields listed for a type are those that refer to it, in the order of their placement. -/
  fieldNumbers : ∀ info ∈ layout.submessages,
    info.fieldNumbers.toList = (referring (byStorage shapes) info.typeName).map (·.number)
  /-- Each field has the index of its type. -/
  records : ∀ target, ∀ field ∈ shapes.zip (layout.plans.get target).records,
    ∀ typeName, field.1.typeName? = some typeName →
      ∃ info ∈ layout.submessages, info.typeName = typeName ∧ field.2.submessage = info.index
  /-- Indices count the types as long as they have 16 bits. -/
  indices : layout.submessages.length ≤ 0xFFFF → ∀ place info,
    layout.submessages[place]? = some info → info.index = place + 1
  /-- Then fields have the same index exactly if they refer to the same type. -/
  same : layout.submessages.length ≤ 0xFFFF → ∀ target,
    ∀ first ∈ shapes.zip (layout.plans.get target).records,
    ∀ second ∈ shapes.zip (layout.plans.get target).records,
      first.2.submessage = second.2.submessage ∧ first.2.submessage ≠ 0 ↔
        ∃ typeName, first.1.typeName? = some typeName ∧ second.1.typeName? = some typeName
  /-- More types than 14 bits can count have no program. -/
  refused : 0x3FFF < layout.submessages.length → ∀ target,
    ∃ error, (layout.plans.get target).encode = .error error
  /-- So an index in a program stands for a single type. -/
  encoded : ∀ target program plan, (layout.plans.get target).encode = .ok program →
    LayoutPlan.decode program = .ok plan →
      ∀ first ∈ shapes.zip plan.records, ∀ second ∈ shapes.zip plan.records,
        first.2.submessage = second.2.submessage → first.2.submessage ≠ 0 →
          ∃ typeName, first.1.typeName? = some typeName ∧ second.1.typeName? = some typeName

/-- Up to `maxIndex` types, fields share a `submessageIndex` other than 0 exactly if they share a type. -/
theorem submessageIndex_eq_iff {shapes : List FieldShape}
    (hcount : (typeNames (byStorage shapes)).length ≤ SubmessageTable.maxIndex) {first second : FieldShape}
    (hfirst : first ∈ shapes) (hsecond : second ∈ shapes) :
    submessageIndex (submessages shapes) first = submessageIndex (submessages shapes) second ∧
        submessageIndex (submessages shapes) first ≠ 0 ↔
      ∃ typeName, first.typeName? = some typeName ∧ second.typeName? = some typeName := by
  constructor
  · rintro ⟨hsame, hfirstIndex⟩
    have hsecondIndex : submessageIndex (submessages shapes) second ≠ 0 := hsame ▸ hfirstIndex
    rw [submessageIndex_ne_zero_iff hfirst, Option.isSome_iff_exists] at hfirstIndex
    rw [submessageIndex_ne_zero_iff hsecond, Option.isSome_iff_exists] at hsecondIndex
    obtain ⟨firstRef, hfirstRef⟩ := hfirstIndex
    obtain ⟨secondRef, hsecondRef⟩ := hsecondIndex
    have hfirstName : first.typeName? = some firstRef.typeName := by rw [FieldShape.typeName?, hfirstRef]; rfl
    have hsecondName : second.typeName? = some secondRef.typeName := by
      rw [FieldShape.typeName?, hsecondRef]; rfl
    obtain ⟨firstPlace, hfirstPlace⟩ := exists_place hfirst hfirstName
    obtain ⟨secondPlace, hsecondPlace⟩ := exists_place hsecond hsecondName
    rw [submessageIndex_eq hfirstPlace hfirstName, submessageIndex_eq hsecondPlace hsecondName] at hsame
    -- All places are below the last index, so none of the two is cut off.
    have hfirstLt := (List.getElem?_eq_some_iff.1 hfirstPlace).1
    have hsecondLt := (List.getElem?_eq_some_iff.1 hsecondPlace).1
    have hplaces : firstPlace = secondPlace := by omega
    rw [hplaces, hsecondPlace] at hfirstPlace
    exact ⟨firstRef.typeName, hfirstName, by rw [hsecondName, hfirstPlace]⟩
  · rintro ⟨typeName, hfirstName, hsecondName⟩
    obtain ⟨place, hplace⟩ := exists_place hfirst hfirstName
    rw [submessageIndex_eq hplace hfirstName, submessageIndex_eq hplace hsecondName]
    refine ⟨rfl, ?_⟩
    unfold SubmessageTable.maxIndex
    omega

/-- `layout` satisfies `IdentifiesTypes`, for any `shapes`. -/
theorem layout_identifiesTypes (shapes : List FieldShape) : IdentifiesTypes shapes (layout shapes) := by
  have hplans (target : Target) : (layout shapes).plans.get target = plan shapes (submessages shapes) target :=
    PerTarget.get_ofTarget _ target
  have hinfos : (layout shapes).submessages = (submessages shapes).values := rfl
  constructor
  case zero =>
    intro target
    rw [hplans, List.forall₂_iff_zip]
    refine ⟨(length_plan_records shapes _ target).symm, ?_⟩
    intro shape found hfound
    obtain ⟨hmem, hnumber, hindex⟩ := record_of_mem_zip shapes target hfound
    refine ⟨hnumber, ?_⟩
    rw [hindex, ← Option.not_isSome_iff_eq_none, ← submessageIndex_ne_zero_iff hmem, not_not]
  case placed =>
    intro target
    rw [hplans]
    refine ⟨inStorageOrder (·.1.storageKind) (shapes.zip (plan shapes (submessages shapes) target).records),
      inStorageOrder_perm _ _, ?_, pairwise_offset_lt shapes target _⟩
    -- Shapes are brought into the order of storage together with their records.
    have hfirst := map_inStorageOrder (·.1) FieldShape.storageKind
      (shapes.zip (plan shapes (submessages shapes) target).records)
    rw [List.map_fst_zip (Nat.le_of_eq (length_plan_records shapes _ target).symm)] at hfirst
    exact hfirst
  case names => exact map_typeName_submessages
  case nodup =>
    rw [hinfos, map_typeName_submessages]
    exact nodup_typeNames _
  case fieldNumbers =>
    intro info hinfo
    obtain ⟨place, hplace⟩ := List.mem_iff_getElem?.1 hinfo
    obtain ⟨typeName, _, rfl⟩ := getElem?_submessages_eq_some_iff.1 hplace
    rfl
  case records =>
    intro target field hfield typeName hname
    rw [hplans] at hfield
    obtain ⟨hmem, _, hindex⟩ := record_of_mem_zip shapes target hfield
    obtain ⟨place, hplace⟩ := exists_place hmem hname
    refine ⟨tableEntry (byStorage shapes) place typeName, ?_, rfl, ?_⟩
    · exact List.mem_iff_getElem?.2 ⟨place, getElem?_submessages_eq_some_iff.2 ⟨typeName, hplace, rfl⟩⟩
    · rw [hindex, submessageIndex_eq hplace hname]
      rfl
  case indices =>
    intro hcount place info hinfo
    have hlt := (List.getElem?_eq_some_iff.1 hinfo).1
    obtain ⟨typeName, _, rfl⟩ := getElem?_submessages_eq_some_iff.1 hinfo
    show min (place + 1) SubmessageTable.maxIndex = place + 1
    unfold SubmessageTable.maxIndex
    omega
  case same =>
    intro hcount target first hfirst second hsecond
    rw [hinfos, length_submessages] at hcount
    rw [hplans] at hfirst hsecond
    obtain ⟨hfirst, _, hfirstIndex⟩ := record_of_mem_zip shapes target hfirst
    obtain ⟨hsecond, _, hsecondIndex⟩ := record_of_mem_zip shapes target hsecond
    rw [hfirstIndex, hsecondIndex]
    exact submessageIndex_eq_iff hcount hfirst hsecond
  case refused =>
    intro hcount target
    rw [hinfos, length_submessages] at hcount
    rw [hplans]
    cases hencode : (plan shapes (submessages shapes) target).encode with
    -- A plan with a program fits, which it cannot with so many types.
    | ok program =>
      have hfits := LayoutPlan.exists_encode_iff.1 ⟨program, hencode⟩
      exact absurd hfits (not_fits_of_length_lt hcount target)
    | error error => exact ⟨error, rfl⟩
  case encoded =>
    intro target program found hencode hdecode first hfirst second hsecond hsame hindex
    rw [hplans, LayoutPlan.writesExactly_encode] at hencode
    rw [LayoutPlan.decode_eq_ok_iff.2 hencode] at hdecode
    cases hdecode
    -- A plan with a program has no more types than there are indices, so none of them is cut off.
    have hcount : (typeNames (byStorage shapes)).length ≤ SubmessageTable.maxIndex := by
      by_contra hmany
      unfold SubmessageTable.maxIndex at hmany
      exact not_fits_of_length_lt (by omega) target hencode.1
    obtain ⟨hfirst, _, hfirstIndex⟩ := record_of_mem_zip shapes target hfirst
    obtain ⟨hsecond, _, hsecondIndex⟩ := record_of_mem_zip shapes target hsecond
    rw [hfirstIndex, hsecondIndex] at hsame
    rw [hfirstIndex] at hindex
    exact (submessageIndex_eq_iff hcount hfirst hsecond).1 ⟨hsame, hindex⟩

end Placement

end SchemaLayout
