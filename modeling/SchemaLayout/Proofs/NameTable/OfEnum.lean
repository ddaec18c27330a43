import SchemaLayout.NameTable.OfSchema
import SchemaLayout.Proofs.Data.List
import SchemaLayout.Proofs.NameTable.RoundTrip
import SchemaLayout.Proofs.Schema.Ownership
import SchemaLayout.Proofs.Schema.SingleFile

/-!
# The names of an enum

The name table of an enum is decoded to one entry for each number that its values have, in ascending order of
number, and what is reserved after them (`decode_enumNameProgram`). The entry of a number goes by the first
value that was declared with it, and the others are its aliases, so no name is lost and none is there twice.
-/

namespace SchemaLayout

open Program

/-! ## Entries of values -/

namespace NameEntry

/-- All names that an entry gives to its number. -/
def allNames : NameEntry → List String
  | same _ name | standard _ name | unique _ name _ | group _ name => [name]
  | aliased _ name aliases => name :: aliases
  | reservedName _ | reservedNumbers _ _ => []

/-- The entry of values that share a number, of which `first` was declared first. -/
def ofShared (first : EnumValueNode) : List EnumValueNode → NameEntry
  | [] => .same first.number first.name
  | others => .aliased first.number first.name (others.map (·.name))

theorem allNames_ofShared (first : EnumValueNode) (others : List EnumValueNode) :
    (ofShared first others).allNames = first.name :: others.map (·.name) := by
  cases others <;> rfl

end NameEntry

namespace Schema

/-- The values of an enum in the order of their declarations. -/
def valuesOf (schema : Schema) (id : EnumId) : List EnumValueNode :=
  (schema.enum id).values.map schema.value

/-- No name in the name tables of enums has a zero in it. -/
structure HasZeroFreeValueNames (schema : Schema) : Prop where
  value : ∀ value ∈ schema.values, IsZeroFree value.name
  reserved : ∀ enum ∈ schema.enums, ∀ name ∈ enum.reservedNames, IsZeroFree name

variable {schema : Schema} {id : EnumId}

/-! ## First values of their numbers -/

section

variable (h : schema.IsOwned) (hid : id ∈ schema.enumIds) {value : EnumValueId}

include h hid

/-- The values of an enum are in the schema, and are its own. -/
theorem value_of_mem (hvalue : value ∈ (schema.enum id).values) :
    schema.value value ∈ schema.values ∧ (schema.value value).enum = id := by
  obtain ⟨node, hnode, henum⟩ := (h.mem_values_iff hid).1 hvalue
  rw [Schema.value, hnode]
  exact ⟨Array.mem_of_getElem? hnode, henum⟩

/-- `isCanonical` holds of the first value with its number. -/
theorem isCanonical_iff (hvalue : value ∈ (schema.enum id).values) :
    schema.isCanonical value = true ↔
      (schema.enum id).values.find? (fun other =>
        (schema.value other).number = (schema.value value).number) = some value := by
  rw [isCanonical, valueWithNumber?, (value_of_mem h hid hvalue).2, decide_eq_true_iff]

/-- A value with `isCanonical` stands before its `aliases`. -/
theorem filter_eq_cons_aliases (hvalue : value ∈ (schema.enum id).values)
    (hfirst : schema.isCanonical value = true) :
    (schema.enum id).values.filter (fun other =>
      (schema.value other).number = (schema.value value).number) =
        value :: schema.aliases value := by
  rw [filter_eq_cons_of_find? (h.nodup_values hid) ((isCanonical_iff h hid hvalue).1 hfirst), aliases, if_pos hfirst,
    (value_of_mem h hid hvalue).2]

/-- No two values with `isCanonical` have the same number. -/
theorem eq_of_isCanonical {other : EnumValueId} (hvalue : value ∈ (schema.enum id).values)
    (hother : other ∈ (schema.enum id).values) (hfirst : schema.isCanonical value = true)
    (hsecond : schema.isCanonical other = true)
    (hnumber : (schema.value value).number = (schema.value other).number) : value = other := by
  have hfound := (isCanonical_iff h hid hvalue).1 hfirst
  rw [hnumber, (isCanonical_iff h hid hother).1 hsecond] at hfound
  exact (Option.some.inj hfound).symm

/-- Some value with `isCanonical` has the number of any value. -/
theorem exists_isCanonical (hvalue : value ∈ (schema.enum id).values) :
    ∃ first ∈ (schema.enum id).values, schema.isCanonical first = true ∧
      (schema.value first).number = (schema.value value).number := by
  have hsome : ((schema.enum id).values.find? fun other =>
      (schema.value other).number = (schema.value value).number).isSome :=
    List.find?_isSome.2 ⟨value, hvalue, decide_eq_true rfl⟩
  obtain ⟨first, hfound⟩ := Option.isSome_iff_exists.1 hsome
  have hmem := List.mem_of_find?_eq_some hfound
  have hnumber : (schema.value first).number = (schema.value value).number := by
    simpa using List.find?_some hfound
  exact ⟨first, hmem, (isCanonical_iff h hid hmem).2 (hnumber ▸ hfound), hnumber⟩

end

/-! ## Numbers in ascending order -/

/-- The numbers of the values of an enum, each once, in ascending order. -/
def valueNumbers (schema : Schema) (id : EnumId) : List Int32 :=
  (schema.canonicalValues id).map fun value => (schema.value value).number

theorem mem_canonicalValues {value : EnumValueId} : value ∈ schema.canonicalValues id ↔
    value ∈ (schema.enum id).values ∧ schema.isCanonical value = true := by
  rw [canonicalValues, List.mem_mergeSort, List.mem_filter]

section

variable (h : schema.IsOwned) (hid : id ∈ schema.enumIds)

include h hid

theorem mem_valueNumbers {number : Int32} :
    number ∈ schema.valueNumbers id ↔ ∃ value ∈ schema.valuesOf id, value.number = number := by
  simp only [valueNumbers, valuesOf, List.mem_map, mem_canonicalValues, exists_exists_and_eq_and]
  constructor
  · rintro ⟨value, ⟨hvalue, _⟩, rfl⟩
    exact ⟨value, hvalue, rfl⟩
  · rintro ⟨value, hvalue, rfl⟩
    obtain ⟨first, hfirst, hcanonical, hnumber⟩ := exists_isCanonical h hid hvalue
    exact ⟨first, ⟨hfirst, hcanonical⟩, hnumber⟩

theorem pairwise_valueNumbers : (schema.valueNumbers id).Pairwise (· < ·) := by
  have hsorted : (schema.valueNumbers id).Pairwise (· ≤ ·) := by
    refine List.pairwise_map.2 ((List.pairwise_mergeSort (fun a b c hab hbc => ?_)
      (fun a b => ?_) _).imp of_decide_eq_true)
    · exact decide_eq_true (Int32.le_trans (of_decide_eq_true hab) (of_decide_eq_true hbc))
    · simpa using Int32.le_total (schema.value a).number (schema.value b).number
  have hnodup : (schema.valueNumbers id).Nodup := by
    have hvalues : (schema.canonicalValues id).Nodup :=
      (List.mergeSort_perm _ _).nodup_iff.2 ((h.nodup_values hid).filter _)
    refine List.Nodup.map_on (fun value hvalue other hother hnumber => ?_) hvalues
    obtain ⟨hvalue, hfirst⟩ := mem_canonicalValues.1 hvalue
    obtain ⟨hother, hsecond⟩ := mem_canonicalValues.1 hother
    exact eq_of_isCanonical h hid hvalue hother hfirst hsecond hnumber
  exact hsorted.imp₂ (fun _ _ hle hne => Int32.lt_of_le_of_ne hle hne) hnodup

/-! ## Entries -/

/-- `valueEntry` is `ofShared` of all values with the number. -/
theorem valueEntry_eq {value : EnumValueId} (hvalue : value ∈ schema.canonicalValues id) :
    ∃ others, (schema.valuesOf id).filter (·.number = (schema.value value).number) =
        schema.value value :: others ∧
      schema.valueEntry value = .ofShared (schema.value value) others := by
  obtain ⟨hmem, hfirst⟩ := mem_canonicalValues.1 hvalue
  refine ⟨(schema.aliases value).map schema.value, ?_, ?_⟩
  · rw [valuesOf, List.filter_map, ← List.map_cons, ← filter_eq_cons_aliases h hid hmem hfirst]
    rfl
  · rw [valueEntry]
    cases schema.aliases value with
    | nil => rfl
    | cons other rest =>
      simp only [List.map_cons, NameEntry.ofShared, List.map_map]
      rfl

/-- Every value has its name in exactly one entry. -/
theorem allNames_valueEntries_perm :
    (((schema.canonicalValues id).map schema.valueEntry).flatMap (·.allNames)).Perm
      ((schema.valuesOf id).map (·.name)) := by
  have hgroups : ((schema.canonicalValues id).map schema.valueEntry).flatMap (·.allNames) =
      ((schema.valueNumbers id).flatMap fun number =>
        (schema.valuesOf id).filter (·.number = number)).map (·.name) := by
    rw [valueNumbers, List.flatMap_map, List.flatMap_map, List.map_flatMap]
    refine List.flatMap_congr fun value hvalue => ?_
    obtain ⟨others, hothers, hentry⟩ := valueEntry_eq h hid hvalue
    rw [hentry, NameEntry.allNames_ofShared, hothers, List.map_cons]
  rw [hgroups]
  refine (flatMap_filter_perm (fun value : EnumValueNode => value.number) ?_
    fun value hvalue => ?_).map _
  · exact (pairwise_valueNumbers h hid).imp Int32.ne_of_lt
  · exact (mem_valueNumbers h hid).2 ⟨value, hvalue, rfl⟩

end

/-! ## Enums -/

theorem isWritable_ofShared {first : EnumValueNode} {others : List EnumValueNode}
    (hfirst : IsZeroFree first.name) (hothers : ∀ other ∈ others, IsZeroFree other.name)
    (hcount : others.length < wordLimit) : (NameEntry.ofShared first others).IsWritable := by
  cases others with
  | nil => exact hfirst
  | cons other rest =>
    refine ⟨hfirst, by rwa [List.length_map], fun name hname => ?_⟩
    obtain ⟨value, hvalue, rfl⟩ := List.mem_map.1 hname
    exact hothers value hvalue

section

variable {config : Config} {files : List FileDecl} (hfiles : ofFiles config files = .ok schema)
  (hnames : schema.HasZeroFreeValueNames) (hcount : schema.values.size < wordLimit)
  (hid : id ∈ schema.enumIds)

include hfiles hid

theorem length_valuesOf_le : (schema.valuesOf id).length ≤ schema.values.size := by
  have h := isOwned_ofFiles hfiles
  have hsubset : (schema.enum id).values ⊆ (List.range schema.values.size).map .mk := by
    intro value hvalue
    obtain ⟨node, hnode, _⟩ := (h.mem_values_iff hid).1 hvalue
    exact List.mem_map.2 ⟨value.index, List.mem_range.2 (Array.getElem?_eq_some_iff.1 hnode).1, rfl⟩
  have hle := (List.subperm_of_subset (h.nodup_values hid) hsubset).length_le
  rwa [List.length_map, List.length_range, ← List.length_map (f := schema.value)] at hle

include hnames hcount

/-- All entries of `enumNames` are writable. -/
theorem isWritable_of_mem_enumNames : ∀ entry ∈ schema.enumNames id, entry.IsWritable := by
  have h := isOwned_ofFiles hfiles
  intro entry hentry
  rcases List.mem_append.1 hentry with hentry | hentry
  · rcases List.mem_append.1 hentry with hentry | hentry
    · obtain ⟨value, hvalue, rfl⟩ := List.mem_map.1 hentry
      obtain ⟨others, hothers, hentry⟩ := valueEntry_eq h hid hvalue
      -- The values of the entry are some of those of the enum, and these are values of the schema.
      have hname (other : EnumValueNode) (hother : other ∈ schema.value value :: others) :
          IsZeroFree other.name := by
        rw [← hothers] at hother
        obtain ⟨otherId, hmem, rfl⟩ := List.mem_map.1 (List.mem_filter.1 hother).1
        exact hnames.value _ (value_of_mem h hid hmem).1
      have hlength : others.length < (schema.valuesOf id).length := by
        have hle := List.length_filter_le
          (fun other : EnumValueNode => other.number = (schema.value value).number) (schema.valuesOf id)
        rw [hothers, List.length_cons] at hle
        exact hle
      rw [hentry]
      obtain ⟨hfirst, hrest⟩ := List.forall_mem_cons.1 hname
      have hle := length_valuesOf_le hfiles hid
      exact isWritable_ofShared hfirst hrest (by omega)
    · obtain ⟨name, hname, rfl⟩ := List.mem_map.1 hentry
      exact hnames.reserved _ (Array.mem_of_getElem? (getElem?_of_mem_enumIds hid)) name hname
  · obtain ⟨range, _, rfl⟩ := List.mem_map.1 hentry
    trivial

/-- `decode` gives one entry for each number of an enum's values, in ascending order, then its reserved names
and ranges as they were declared. The entry of a number is `ofShared` of its values, so `allNames` together are
those of all values, each once. -/
theorem decode_enumNameProgram :
    ∃ (numbers : List Int32) (entries : List NameEntry),
      NameTable.decode (schema.enumNameProgram id) = .ok (entries
        ++ (schema.enum id).reservedNames.map .reservedName
        ++ (schema.enum id).reservedRanges.map fun range => .reservedNumbers range.start range.stop) ∧
      numbers.Pairwise (· < ·) ∧
      (∀ number, number ∈ numbers ↔ ∃ value ∈ schema.valuesOf id, value.number = number) ∧
      List.Forall₂ (fun number entry => ∃ first others,
        (schema.valuesOf id).filter (·.number = number) = first :: others ∧
          entry = .ofShared first others) numbers entries ∧
      (entries.flatMap (·.allNames)).Perm ((schema.valuesOf id).map (·.name)) := by
  have h := isOwned_ofFiles hfiles
  refine ⟨schema.valueNumbers id, (schema.canonicalValues id).map schema.valueEntry, ?_,
    pairwise_valueNumbers h hid, fun number => mem_valueNumbers h hid, ?_, allNames_valueEntries_perm h hid⟩
  · exact NameTable.decode_encode (isWritable_of_mem_enumNames hfiles hnames hcount hid)
  · rw [valueNumbers, List.forall₂_map_left_iff, List.forall₂_map_right_iff, List.forall₂_same]
    intro value hvalue
    obtain ⟨others, hothers, hentry⟩ := valueEntry_eq h hid hvalue
    exact ⟨schema.value value, others, hothers, hentry⟩

end

/-! ## The names of a direction -/

/-- Directions, with numbers out of order, values that share a number, and an empty reserved range. -/
def directionFile : FileDecl where
  name := "direction.proto"
  enumType := [
    { name := "Direction"
      value := [
        { name := "NORTH" },
        { name := "DOWN", number := -2147483648 },
        { name := "UP", number := 7 },
        { name := "TOP" },
        { name := "SKY", number := 7 },
        { name := "AHEAD" }]
      reservedName := ["LEFT", "RIGHT"]
      reservedRange := [⟨20, 2147483647⟩, ⟨9, 8⟩] }]

/-- The name table of a direction. -/
theorem decode_enumNameProgram_direction :
    ∃ schema, ofFiles {} [directionFile] = .ok schema ∧ schema.HasZeroFreeValueNames ∧
      schema.values.size < wordLimit ∧ ⟨0⟩ ∈ schema.enumIds ∧
      NameTable.decode (schema.enumNameProgram ⟨0⟩) = .ok [
        .same (-2147483648) "DOWN",
        .aliased 0 "NORTH" ["TOP", "AHEAD"],
        .aliased 7 "UP" ["SKY"],
        .reservedName "LEFT", .reservedName "RIGHT",
        .reservedNumbers 20 2147483647, .reservedNumbers 9 8] := by
  have hrules := ofTable_proto2 (show directionFile.level = .proto2 from rfl)
  obtain ⟨schema, hschema⟩ := exists_ofFiles_proto2 directionFile rfl rfl (by cbv)
  have henums := enums_of_ofFiles hrules hschema
  have hvalues := values_of_ofFiles hrules hschema
  have hnames : schema.HasZeroFreeValueNames := by
    refine ⟨fun value hvalue => ?_, fun enum henum => ?_⟩
    · rw [hvalues, List.mem_toArray] at hvalue
      revert value
      decide
    · rw [henums, List.mem_toArray] at henum
      revert enum
      decide
  have hcount : schema.values.size < wordLimit := by
    rw [hvalues]
    decide
  have hid : ⟨0⟩ ∈ schema.enumIds := by
    rw [mem_enumIds, henums]
    decide
  obtain ⟨numbers, entries, hdecode, hascending, hnumbers, hentries, _⟩ :=
    decode_enumNameProgram hschema hnames hcount hid
  have hvalue : schema.value = fun id =>
      (Numbering.file ⟨proto2Rules, ⟨0⟩⟩ {} directionFile).2.values[id.index]?.getD default := by
    funext id
    rw [Schema.value, hvalues, List.getElem?_toArray]
  have hof : schema.valuesOf ⟨0⟩ =
      (Numbering.file ⟨proto2Rules, ⟨0⟩⟩ {} directionFile).2.values := by
    rw [valuesOf, Schema.enum, henums, hvalue]
    decide
  rw [hof] at hnumbers hentries
  -- A strictly ascending list is given by its members.
  have hall : numbers = [-2147483648, 0, 7] := by
    have hmem (number : Int32) : number ∈ numbers ↔ number ∈ [-2147483648, 0, 7] := by
      rw [hnumbers, ← List.mem_map (f := EnumValueNode.number)]
      show number ∈ [0, -2147483648, 7, 0, 7, 0] ↔ _
      simp
      tauto
    refine ((List.perm_ext_iff_of_nodup (hascending.imp Int32.ne_of_lt) (by decide)).2
      hmem).eq_of_pairwise (fun a b _ _ hab hba => ?_) hascending (by decide)
    exact absurd hba (Int32.lt_asymm hab)
  subst hall
  obtain _ | ⟨⟨_, _, hdown, rfl⟩, _ | ⟨⟨_, _, hnorth, rfl⟩, _ | ⟨⟨_, _, hup, rfl⟩, _ | _⟩⟩⟩ := hentries
  cases hdown
  cases hnorth
  cases hup
  refine ⟨schema, hschema, hnames, hcount, hid, ?_⟩
  rw [hdecode, Schema.enum, henums]
  rfl

end Schema

end SchemaLayout
