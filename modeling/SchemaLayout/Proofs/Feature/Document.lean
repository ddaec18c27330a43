import SchemaLayout.Proofs.Feature.Inheritance
import SchemaLayout.Proofs.Text.Json.Decoding

/-!
# Features are read back from documents

A feature set is read back from its document if its extension features can be told from the features that have names
and stand in the form in which free values are kept (`FeatureSet.IsWritable`). All of this holds of a feature set that
was itself read, unless a number in it is not whole. A default table is read back if the sets in its rows are.
-/

namespace SchemaLayout

open Json (Decoder)

/-! ## Extension features -/

namespace Extensions

theorem insert_of_not_mem {key : String} {extensions : Extensions} (h : key ∉ extensions.map (·.1)) (value : Json) :
    extensions.insert key value = extensions ++ [(key, value)] := by
  induction extensions with
  | nil => rfl
  | cons head rest ih =>
    rw [List.map_cons, List.mem_cons, not_or] at h
    rw [insert, if_neg (Ne.symm h.1), ih h.2]
    rfl

/-- `merge` of sets without a common key is `earlier ++ later`. -/
theorem merge_eq_append {earlier later : Extensions} (h : ((earlier ++ later).map (·.1)).Nodup) :
    earlier.merge later = earlier ++ later := by
  unfold merge
  induction later generalizing earlier with
  | nil => exact (List.append_nil earlier).symm
  | cons entry rest ih =>
    obtain ⟨key, value⟩ := entry
    have hkey : key ∉ earlier.map (·.1) := by
      rw [List.map_append, List.map_cons] at h
      intro hmem
      exact (List.nodup_append.1 h).2.2 key hmem key List.mem_cons_self rfl
    rw [List.foldl_cons]
    simp only [insert_of_not_mem hkey]
    rw [ih (by rwa [List.append_assoc]), List.append_assoc]
    rfl

end Extensions

/-! ## Feature sets -/

namespace FeatureSet

/-- The extension features can be written beside the features that have names: each key is there once and is
none of `memberNames`, all numbers in the values are whole, and objects in there are sorted. -/
structure IsWritable (set : FeatureSet) : Prop where
  keys : (set.extensions.map (·.1)).Nodup
  names : ∀ key ∈ set.extensions.map (·.1), key ∉ memberNames
  whole : ∀ entry ∈ set.extensions, entry.2.IsWhole
  sorted : ∀ entry ∈ set.extensions, entry.2.IsSorted

section

variable {α : Type} [DecidableEq α] {name : String} {names : List (String × α)} {value : Option α}

theorem keys_leaf_sublist : ((leaf name names value).map (·.1)).Sublist [name] := by
  cases value with
  | none => exact List.nil_sublist _
  | some value => exact List.Sublist.refl _

theorem isWhole_of_mem_leaf : ∀ entry ∈ leaf name names value, entry.2.IsWhole := by
  cases value with
  | none => exact List.forall_mem_nil _
  | some value => exact List.forall_mem_singleton.2 trivial

/-- `leaf` has a value under `name` only. -/
theorem lookup_leaf (key : String) : (leaf name names value).lookup key =
    if key = name then value.map fun value => .text (nameIn names value) else none := by
  cases value with
  | none => exact (ite_self none).symm
  | some value => exact Extensions.lookup_cons_eq _ _ key

/-- `Json.member` reads back a `leaf` if `names` tells the values apart. -/
theorem leaf_bind_eq_some {β : Type} {members : List (String × Json)} {room : Nat} {next : Option α → Option β}
    {b : β} (hlookup : members.lookup name = value.map fun value => .text (nameIn names value))
    (hnames : ∀ value, names.lookup (nameIn names value) = some value) (hnext : next value = some b) :
    (Json.member members name room (.optional (.oneOf names)) none >>= next) = some b := by
  have hmember : Json.member members name room (.optional (.oneOf names)) none = some value := by
    rw [Json.member, hlookup]
    cases value with
    | none => rfl
    | some value =>
      show (names.lookup (nameIn names value)).map some = some (some value)
      rw [hnames]
      rfl
  rw [hmember]
  exact hnext

end

/-- The keys of `leaves` are among `memberNames`, in their order. -/
theorem keys_leaves_sublist (set : FeatureSet) : (set.leaves.map (·.1)).Sublist memberNames := by
  simp only [leaves, List.map_append]
  exact ((((keys_leaf_sublist.append keys_leaf_sublist).append keys_leaf_sublist).append keys_leaf_sublist).append
    keys_leaf_sublist).append keys_leaf_sublist

/-- Each member that `encode` writes is there once. -/
theorem nodup_keys {set : FeatureSet} (h : set.IsWritable) : ((set.leaves ++ set.extensions).map (·.1)).Nodup := by
  rw [List.map_append, List.nodup_append]
  refine ⟨(keys_leaves_sublist set).nodup (by decide), h.keys, fun key hkey other hother hsame => ?_⟩
  exact h.names other hother (hsame ▸ (keys_leaves_sublist set).subset hkey)

theorem filter_leaves_append {set : FeatureSet} (h : set.IsWritable) :
    (set.leaves ++ set.extensions).filter (!memberNames.contains ·.1) = set.extensions := by
  have hleaves : set.leaves.filter (!memberNames.contains ·.1) = [] := by
    refine List.filter_eq_nil_iff.2 fun entry hentry => ?_
    have hmem := (keys_leaves_sublist set).subset (List.mem_map_of_mem hentry)
    simpa using hmem
  have hextensions : set.extensions.filter (!memberNames.contains ·.1) = set.extensions := by
    refine List.filter_eq_self.2 fun entry hentry => ?_
    have hmem := h.names entry.1 (List.mem_map_of_mem hentry)
    simp [hmem]
  rw [List.filter_append, hleaves, hextensions]
  rfl

theorem decodeExtensions_eq_some {set : FeatureSet} (h : set.IsWritable) {room : Nat}
    (hroom : ∀ entry ∈ set.extensions, entry.2.nesting ≤ room) :
    decodeExtensions room (set.leaves ++ set.extensions) = some set.extensions := by
  have hfree : set.extensions.mapM (fun entry => (Decoder.free room entry.2).map (entry.1, ·)) =
      some set.extensions := by
    refine mapM_eq_some_self fun entry hentry => ?_
    have hreads := Decoder.reads_free (h.whole entry hentry) (h.sorted entry hentry)
    rw [hreads.eq_some (hroom entry hentry)]
    rfl
  rw [decodeExtensions, filter_leaves_append h]
  show (set.extensions.mapM (fun entry => (Decoder.free room entry.2).map (entry.1, ·)) >>= fun written =>
    some (Extensions.merge [] written)) = some set.extensions
  rw [hfree]
  exact congrArg some (Extensions.merge_eq_append h.keys)

theorem lookup_leaves_append {set : FeatureSet} (h : set.IsWritable) {name : String} (hname : name ∈ memberNames) :
    (set.leaves ++ set.extensions).lookup name = set.leaves.lookup name := by
  have hnone : List.lookup name set.extensions = none := by
    refine List.lookup_eq_none_iff.2 fun entry hentry => ?_
    have hkey : entry.1 ≠ name := fun hsame => h.names entry.1 (List.mem_map_of_mem hentry) (hsame ▸ hname)
    simpa using hkey.symm
  rw [List.lookup_append, hnone, Option.or_none]

/-- `lookup` in `leaves`, for each of `memberNames`. -/
theorem lookup_leaves (set : FeatureSet) :
    set.leaves.lookup "fieldPresence" = set.fieldPresence.map (fun value => .text (nameIn FieldPresence.names value)) ∧
    set.leaves.lookup "enumType" = set.enumOpenness.map (fun value => .text (nameIn EnumOpenness.names value)) ∧
    set.leaves.lookup "repeatedFieldEncoding" =
      set.repeatedEncoding.map (fun value => .text (nameIn RepeatedEncoding.names value)) ∧
    set.leaves.lookup "utf8Validation" =
      set.utf8Validation.map (fun value => .text (nameIn Utf8Validation.names value)) ∧
    set.leaves.lookup "messageEncoding" =
      set.messageEncoding.map (fun value => .text (nameIn MessageEncoding.names value)) ∧
    set.leaves.lookup "jsonFormat" = set.jsonFormat.map (fun value => .text (nameIn JsonFormat.names value)) := by
  refine ⟨?_, ?_, ?_, ?_, ?_, ?_⟩ <;> simp [leaves, lookup_leaf, List.lookup_append]

/-- `decode` reads back `encode` for a writable set. -/
theorem reads_encode {set : FeatureSet} (h : set.IsWritable) : decode.Reads set.encode set := by
  rw [encode]
  refine Decoder.reads_object ?_ fun room hroom => ?_
  · simp only [leaves, List.forall_mem_append]
    exact ⟨⟨⟨⟨⟨⟨isWhole_of_mem_leaf, isWhole_of_mem_leaf⟩, isWhole_of_mem_leaf⟩, isWhole_of_mem_leaf⟩,
      isWhole_of_mem_leaf⟩, isWhole_of_mem_leaf⟩, h.whole⟩
  · obtain ⟨hpresence, hopenness, hrepeated, hutf8, hmessage, hjson⟩ := set.lookup_leaves
    show (Json.members? memberNames (.object (set.leaves ++ set.extensions)) >>= fun members => _) = some set
    rw [Json.members?_object _ (nodup_keys h)]
    refine leaf_bind_eq_some ((lookup_leaves_append h (by decide)).trans hpresence)
      (fun value => by cases value <;> rfl) ?_
    refine leaf_bind_eq_some ((lookup_leaves_append h (by decide)).trans hopenness)
      (fun value => by cases value <;> rfl) ?_
    refine leaf_bind_eq_some ((lookup_leaves_append h (by decide)).trans hrepeated)
      (fun value => by cases value <;> rfl) ?_
    refine leaf_bind_eq_some ((lookup_leaves_append h (by decide)).trans hutf8)
      (fun value => by cases value <;> rfl) ?_
    refine leaf_bind_eq_some ((lookup_leaves_append h (by decide)).trans hmessage)
      (fun value => by cases value <;> rfl) ?_
    refine leaf_bind_eq_some ((lookup_leaves_append h (by decide)).trans hjson)
      (fun value => by cases value <;> rfl) ?_
    rw [decodeExtensions_eq_some h (List.forall_mem_append.1 hroom).2]
    rfl

/-- Keys that `decodeExtensions` reads are none of `memberNames`, and the values are sorted. -/
theorem of_decodeExtensions {room : Nat} {members : List (String × Json)} {extensions : Extensions}
    (h : decodeExtensions room members = some extensions) : (extensions.map (·.1)).Nodup ∧
      ∀ entry ∈ extensions, entry.1 ∉ memberNames ∧ entry.2.IsSorted := by
  obtain ⟨written, hwritten, h⟩ := Option.bind_eq_some_iff.1 h
  cases h
  refine ⟨@Extensions.nodup_merge [] List.nodup_nil written, fun entry hentry => ?_⟩
  have hmem := (Extensions.mem_of_mem_merge hentry).resolve_left List.not_mem_nil
  obtain ⟨member, hmember, hread⟩ := exists_of_mem_right (mapM_eq_some_iff.1 hwritten) hmem
  obtain ⟨value, hvalue, rfl⟩ := Option.map_eq_some_iff.1 hread
  have hname : member.1 ∉ memberNames := by simpa using (List.mem_filter.1 hmember).2
  refine ⟨hname, ?_⟩
  rw [Decoder.free] at hvalue
  split at hvalue
  · cases hvalue
    exact Json.isSorted_canonical member.2
  · cases hvalue

/-- What `decode` reads has its extensions from `decodeExtensions`. -/
theorem exists_decodeExtensions_of_decode {room : Nat} {document : Json} {set : FeatureSet}
    (h : decode room document = some set) : ∃ room members, decodeExtensions room members = some set.extensions := by
  unfold decode at h
  split at h
  · simp only [Option.bind_eq_bind, Option.bind_eq_some_iff] at h
    -- What was read of the features that have names does not matter.
    obtain ⟨_, _, _, _, _, _, _, _, _, _, _, _, _, _, extensions, h, hset⟩ := h
    cases hset
    exact ⟨_, _, h⟩
  · cases h

/-- What `decode` reads is writable if its numbers are whole. -/
theorem isWritable_of_decode {room : Nat} {document : Json} {set : FeatureSet} (h : decode room document = some set)
    (hwhole : ∀ entry ∈ set.extensions, entry.2.IsWhole) : set.IsWritable := by
  obtain ⟨_, _, hextensions⟩ := exists_decodeExtensions_of_decode h
  obtain ⟨hkeys, hentries⟩ := of_decodeExtensions hextensions
  refine ⟨hkeys, fun key hkey => ?_, hwhole, fun entry hentry => (hentries entry hentry).2⟩
  obtain ⟨entry, hentry, rfl⟩ := List.mem_map.1 hkey
  exact (hentries entry hentry).1

/-- `Decoder.optional` reads back a set that may be absent. -/
theorem reads_ofOption {features : Option FeatureSet} (h : ∀ set ∈ features.toList, set.IsWritable) :
    (Decoder.optional decode).Reads (Json.ofOption encode features) features :=
  Decoder.reads_optional (fun set hset => reads_encode (h set (Option.mem_toList.2 hset))) (fun _ => nofun)

/-! ## Records with feature sets in them -/

section

variable {α : Type} {decode : Decoder α} {encode : α → Json} {featureSets : α → List FeatureSet}
  (hreads : ∀ a, (∀ set ∈ featureSets a, set.IsWritable) → decode.Reads (encode a) a)

include hreads

/-- If `decode` reads back records with writable `featureSets`, `Decoder.optional` does. -/
theorem reads_option_of_forall (hnull : ∀ a, encode a ≠ .null) {value : Option α}
    (h : ∀ set ∈ value.toList.flatMap featureSets, set.IsWritable) :
    (Decoder.optional decode).Reads (Json.ofOption encode value) value :=
  Decoder.reads_optional (fun a ha => hreads a fun set hset =>
    h set (List.mem_flatMap.2 ⟨a, Option.mem_toList.2 ha, hset⟩)) hnull

/-- If `decode` reads back records with writable `featureSets`, `Decoder.list` does. -/
theorem reads_list_of_forall {values : List α} (h : ∀ set ∈ values.flatMap featureSets, set.IsWritable) :
    (Decoder.list decode).Reads (Json.ofList encode values) values :=
  Decoder.reads_list fun a ha => hreads a fun set hset => h set (List.mem_flatMap.2 ⟨a, ha, hset⟩)

end

end FeatureSet

/-! ## Default tables -/

/-- Editions are told apart by their keywords. -/
theorem Edition.reads_keyword (edition : Edition) :
    (Decoder.oneOf Edition.names).Reads (.text edition.keyword) edition :=
  Decoder.reads_oneOf (by cases edition <;> rfl)

namespace DefaultsRow

/-- The feature sets of a row. -/
def featureSets (row : DefaultsRow) : List FeatureSet :=
  [row.fixed, row.overridable]

theorem reads_encode (row : DefaultsRow) (h : ∀ set ∈ row.featureSets, set.IsWritable) :
    decode.Reads row.encode row := by
  have hedition := row.edition.reads_keyword
  have hfixed := FeatureSet.reads_encode (h row.fixed (by simp [featureSets]))
  have hoverridable := FeatureSet.reads_encode (h row.overridable (by simp [featureSets]))
  refine Decoder.reads_object (by simp [hedition.whole, hfixed.whole, hoverridable.whole]) fun room hroom => ?_
  refine Json.members?_bind_eq_some rfl (by decide) ?_
  refine Json.requiredMember_bind_eq_some hedition hroom rfl ?_
  refine Json.member_bind_eq_some hfixed hroom rfl ?_
  refine Json.member_bind_eq_some hoverridable hroom rfl ?_
  rfl

end DefaultsRow

namespace DefaultsTable

/-- The feature sets of all rows. -/
def featureSets (table : DefaultsTable) : List FeatureSet :=
  table.rows.flatMap (·.featureSets)

theorem reads_encode (table : DefaultsTable) (h : ∀ set ∈ table.featureSets, set.IsWritable) :
    decode.Reads table.encode table := by
  have hrows : (Decoder.list DefaultsRow.decode).Reads (.array (table.rows.map DefaultsRow.encode)) table.rows :=
    FeatureSet.reads_list_of_forall DefaultsRow.reads_encode h
  have hminimum := table.minimum.reads_keyword
  have hmaximum := table.maximum.reads_keyword
  refine Decoder.reads_object (by simp [hrows.whole, hminimum.whole, hmaximum.whole]) fun room hroom => ?_
  refine Json.members?_bind_eq_some rfl (by decide) ?_
  refine Json.member_bind_eq_some hrows hroom rfl ?_
  refine Json.requiredMember_bind_eq_some hminimum hroom rfl ?_
  refine Json.requiredMember_bind_eq_some hmaximum hroom rfl ?_
  rfl

end DefaultsTable

end SchemaLayout
