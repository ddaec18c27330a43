import Mathlib.Data.List.Count
import Mathlib.Data.List.Nodup
import SchemaLayout.Declaration.Writing
import SchemaLayout.Proofs.Data.Except
import SchemaLayout.Proofs.Text.Json.RoundTrip

/-!
# Decoding what was written

A decoder reads a document if it gives back the value that the document was written from, in any room that is enough
for the arrays and objects in it (`Decoder.Reads`). Decoders of values, of lists and of members read what was written
of them, and so a decoder of records reads an object if it reads each of its members.
-/

namespace SchemaLayout.Json

/-! ## Nesting -/

mutual

/-- How many arrays and objects stand one inside the other. -/
def nesting : Json → Nat
  | .array items => nestingOfItems items + 1
  | .object members => nestingOfMembers members + 1
  | _ => 0

/-- The greatest `nesting` of the items of an array. -/
def nestingOfItems : List Json → Nat
  | [] => 0
  | item :: rest => max (nesting item) (nestingOfItems rest)

/-- The greatest `nesting` of the members of an object. -/
def nestingOfMembers : List (String × Json) → Nat
  | [] => 0
  | (_, value) :: rest => max (nesting value) (nestingOfMembers rest)

end

/-- `nestingOfItems` in terms of `nesting`. -/
theorem nestingOfItems_le_iff {items : List Json} {room : Nat} :
    nestingOfItems items ≤ room ↔ ∀ item ∈ items, item.nesting ≤ room := by
  induction items with
  | nil => simp [nestingOfItems]
  | cons item rest ih => rw [nestingOfItems, Nat.max_le, ih, List.forall_mem_cons]

/-- `nestingOfMembers` in terms of `nesting`. -/
theorem nestingOfMembers_le_iff {members : List (String × Json)} {room : Nat} :
    nestingOfMembers members ≤ room ↔ ∀ entry ∈ members, entry.2.nesting ≤ room := by
  induction members with
  | nil => simp [nestingOfMembers]
  | cons entry rest ih => rw [nestingOfMembers, Nat.max_le, ih, List.forall_mem_cons]

/-- Room for an array is room for one and in it for each item. -/
theorem exists_of_nesting_array_le {items : List Json} {room : Nat} (h : (Json.array items).nesting ≤ room) :
    ∃ left, room = left + 1 ∧ ∀ item ∈ items, item.nesting ≤ left := by
  rw [nesting] at h
  obtain ⟨left, rfl⟩ := Nat.exists_eq_succ_of_ne_zero (by omega : room ≠ 0)
  exact ⟨left, rfl, nestingOfItems_le_iff.1 (Nat.le_of_succ_le_succ h)⟩

theorem exists_of_nesting_object_le {members : List (String × Json)} {room : Nat}
    (h : (Json.object members).nesting ≤ room) :
    ∃ left, room = left + 1 ∧ ∀ entry ∈ members, entry.2.nesting ≤ left := by
  rw [nesting] at h
  obtain ⟨left, rfl⟩ := Nat.exists_eq_succ_of_ne_zero (by omega : room ≠ 0)
  exact ⟨left, rfl, nestingOfMembers_le_iff.1 (Nat.le_of_succ_le_succ h)⟩

/-! ## Free values -/

mutual

/-- The members of every object are in ascending order of key. -/
def IsSorted : Json → Prop
  | .array items => IsSortedItems items
  | .object members => (members.map (·.1)).Pairwise (· < ·) ∧ IsSortedMembers members
  | _ => True

/-- `IsSorted` of each item. -/
def IsSortedItems : List Json → Prop
  | [] => True
  | item :: rest => IsSorted item ∧ IsSortedItems rest

/-- `IsSorted` of each member. -/
def IsSortedMembers : List (String × Json) → Prop
  | [] => True
  | (_, value) :: rest => IsSorted value ∧ IsSortedMembers rest

end

theorem isSortedMembers_iff {members : List (String × Json)} :
    IsSortedMembers members ↔ ∀ entry ∈ members, entry.2.IsSorted := by
  induction members with
  | nil => simp [IsSortedMembers]
  | cons entry rest ih => rw [IsSortedMembers, ih, List.forall_mem_cons]

theorem eq_or_mem_of_mem_insertMember {member entry : String × Json} {members : List (String × Json)}
    (h : entry ∈ insertMember member members) : entry = member ∨ entry ∈ members := by
  induction members with
  | nil => exact Or.inl (List.mem_singleton.1 h)
  | cons head rest ih =>
    rw [insertMember] at h
    split at h
    · exact List.mem_cons.1 h
    · split at h
      · exact Or.inr h
      · rcases List.mem_cons.1 h with rfl | hrest
        · exact Or.inr List.mem_cons_self
        · exact (ih hrest).imp_right (List.mem_cons_of_mem head)

/-- `insertMember` keeps members in order of key. -/
theorem pairwise_insertMember (member : String × Json) {members : List (String × Json)}
    (h : (members.map (·.1)).Pairwise (· < ·)) : ((insertMember member members).map (·.1)).Pairwise (· < ·) := by
  induction members with
  | nil => exact List.pairwise_singleton _ _
  | cons head rest ih =>
    rw [List.map_cons, List.pairwise_cons] at h
    obtain ⟨hhead, hrest⟩ := h
    rw [insertMember]
    -- In front of a greater key, in place of the same one, or further behind.
    split
    case isTrue hless =>
      refine List.pairwise_cons.2 ⟨fun key hkey => ?_, List.pairwise_cons.2 ⟨hhead, hrest⟩⟩
      rcases List.mem_cons.1 hkey with rfl | hkey
      · exact hless
      · exact String.lt_trans hless (hhead key hkey)
    case isFalse hless =>
      split
      case isTrue => exact List.pairwise_cons.2 ⟨hhead, hrest⟩
      case isFalse hdifferent =>
        refine List.pairwise_cons.2 ⟨fun key hkey => ?_, ih hrest⟩
        obtain ⟨entry, hentry, rfl⟩ := List.mem_map.1 hkey
        rcases eq_or_mem_of_mem_insertMember hentry with rfl | hentry
        · exact Std.lt_of_le_of_ne (String.not_lt.1 hless) (Ne.symm hdifferent)
        · exact hhead entry.1 (List.mem_map_of_mem hentry)

mutual

/-- `canonical` gives `IsSorted`. -/
theorem isSorted_canonical (document : Json) : document.canonical.IsSorted := by
  match document with
  | .null | .bool _ | .int _ | .real _ | .text _ | .unreadable => exact trivial
  | .array items => exact isSortedItems_canonicalItems items
  | .object members => exact isSortedMembers_canonicalMembers members

/-- `isSorted_canonical` for the items of an array. -/
theorem isSortedItems_canonicalItems (items : List Json) : IsSortedItems (canonicalItems items) := by
  match items with
  | [] => exact trivial
  | item :: rest => exact ⟨isSorted_canonical item, isSortedItems_canonicalItems rest⟩

/-- `isSorted_canonical` for the members of an object, whose keys ascend. -/
theorem isSortedMembers_canonicalMembers (members : List (String × Json)) :
    ((canonicalMembers members).map (·.1)).Pairwise (· < ·) ∧ IsSortedMembers (canonicalMembers members) := by
  match members with
  | [] => exact ⟨List.Pairwise.nil, trivial⟩
  | (key, value) :: rest =>
    obtain ⟨hkeys, hrest⟩ := isSortedMembers_canonicalMembers rest
    refine ⟨pairwise_insertMember (key, value.canonical) hkeys, isSortedMembers_iff.2 fun entry hentry => ?_⟩
    rcases eq_or_mem_of_mem_insertMember hentry with rfl | hentry
    · exact isSorted_canonical value
    · exact isSortedMembers_iff.1 hrest entry hentry

end
mutual

/-- `canonical` leaves a document alone that satisfies `IsWhole` and `IsSorted`. -/
theorem canonical_eq_self (document : Json) (hwhole : document.IsWhole) (h : document.IsSorted) :
    document.canonical = document := by
  match document with
  | .null | .bool _ | .int _ | .text _ => rfl
  | .array items => rw [canonical, canonicalItems_eq_self items hwhole h]
  | .object members => rw [canonical, canonicalMembers_eq_self members hwhole h.1 h.2]

/-- `canonical_eq_self` for the items of an array. -/
theorem canonicalItems_eq_self (items : List Json) (hwhole : IsWholeItems items) (h : IsSortedItems items) :
    canonicalItems items = items := by
  match items with
  | [] => rfl
  | item :: rest => rw [canonicalItems, canonical_eq_self item hwhole.1 h.1, canonicalItems_eq_self rest hwhole.2 h.2]

/-- `canonical_eq_self` for the members of an object. -/
theorem canonicalMembers_eq_self (members : List (String × Json)) (hwhole : IsWholeMembers members)
    (hkeys : (members.map (·.1)).Pairwise (· < ·)) (h : IsSortedMembers members) :
    canonicalMembers members = members := by
  match members with
  | [] => rfl
  | (key, value) :: rest =>
    obtain ⟨hfirst, hkeys⟩ := List.pairwise_cons.1 hkeys
    rw [canonicalMembers, canonical_eq_self value hwhole.1 h.1, canonicalMembers_eq_self rest hwhole.2 hkeys h.2]
    cases rest with
    | nil => rfl
    | cons head others => rw [insertMember, if_pos (hfirst head.1 List.mem_cons_self)]

end

mutual

/-- A document that satisfies `IsWhole` is `readable` in a room of its `nesting`. -/
theorem readable_eq_true (document : Json) (h : document.IsWhole) {room : Nat} (hroom : document.nesting ≤ room) :
    Decoder.readable room document = true := by
  match document with
  | .null | .bool _ | .int _ | .text _ => rw [Decoder.readable] <;> simp
  | .array items =>
    obtain ⟨room, rfl, hitems⟩ := exists_of_nesting_array_le hroom
    rw [Decoder.readable]
    exact readableItems_eq_true items h hitems
  | .object members =>
    obtain ⟨room, rfl, hmembers⟩ := exists_of_nesting_object_le hroom
    rw [Decoder.readable]
    exact readableMembers_eq_true members h hmembers

theorem readableItems_eq_true (items : List Json) (h : IsWholeItems items) {room : Nat}
    (hroom : ∀ item ∈ items, item.nesting ≤ room) : Decoder.readableItems room items = true := by
  match items with
  | [] => rw [Decoder.readableItems]
  | item :: rest =>
    obtain ⟨hitem, hrest⟩ := List.forall_mem_cons.1 hroom
    rw [Decoder.readableItems, readable_eq_true item h.1 hitem, readableItems_eq_true rest h.2 hrest]
    rfl

theorem readableMembers_eq_true (members : List (String × Json)) (h : IsWholeMembers members) {room : Nat}
    (hroom : ∀ entry ∈ members, entry.2.nesting ≤ room) : Decoder.readableMembers room members = true := by
  match members with
  | [] => rw [Decoder.readableMembers]
  | (key, value) :: rest =>
    obtain ⟨hvalue, hrest⟩ := List.forall_mem_cons.1 hroom
    rw [Decoder.readableMembers, readable_eq_true value h.1 hvalue, readableMembers_eq_true rest h.2 hrest]
    rfl

end

/-! ## Decoders -/

namespace Decoder

variable {α : Type} {decode : Decoder α} {encode : α → Json}

/-- The decoder reads the document as `a`: all numbers in there are whole, and the result is `a` in any room of
at least `nesting`. -/
structure Reads (decode : Decoder α) (document : Json) (a : α) : Prop where
  whole : document.IsWhole
  eq_some : ∀ {room : Nat}, document.nesting ≤ room → decode room document = some a

theorem reads_text (content : String) : text.Reads (.text content) content :=
  ⟨trivial, fun _ => rfl⟩

theorem reads_bool (value : Bool) : bool.Reads (.bool value) value :=
  ⟨trivial, fun _ => rfl⟩

/-- `oneOf` reads the name of a value. -/
theorem reads_oneOf {names : List (String × α)} {name : String} {a : α} (h : names.lookup name = some a) :
    (oneOf names).Reads (.text name) a :=
  ⟨trivial, fun _ => by rw [oneOf, h]⟩

/-- `free` reads a document in canonical form as itself. -/
theorem reads_free {document : Json} (hwhole : document.IsWhole) (hsorted : document.IsSorted) :
    free.Reads document document := by
  refine ⟨hwhole, fun hroom => ?_⟩
  rw [free, readable_eq_true document hwhole hroom, if_pos rfl, canonical_eq_self document hwhole hsorted]

/-- `int32` reads numbers of 32 bits, which are written within 64. -/
theorem reads_int32 (number : Int32) : int32.Reads (ofInt32 number) number := by
  have hlower := number.le_toInt
  have hupper := number.toInt_lt
  refine ⟨⟨by omega, by omega⟩, fun _ => ?_⟩
  rw [ofInt32, int32, if_pos ⟨by omega, by omega⟩, Int32.ofInt_toInt]

/-- `optional` reads an absent value as `none`, if no value is written as `.null`. -/
theorem reads_optional {value : Option α} (h : ∀ a ∈ value, decode.Reads (encode a) a)
    (hnull : ∀ a, encode a ≠ .null) : (optional decode).Reads (ofOption encode value) value := by
  cases value with
  | none => exact ⟨trivial, fun _ => rfl⟩
  | some a =>
    obtain ⟨hwhole, hdecode⟩ := h a rfl
    refine ⟨hwhole, fun hroom => ?_⟩
    show optional decode _ (encode a) = _
    rw [optional, hdecode hroom]
    · rfl
    · exact hnull a

/-- `list` reads what its decoder reads item by item. -/
theorem reads_list {values : List α} (h : ∀ a ∈ values, decode.Reads (encode a) a) :
    (list decode).Reads (ofList encode values) values := by
  constructor
  case whole =>
    rw [ofList, IsWhole, isWholeItems_iff, List.forall_mem_map]
    exact fun a ha => (h a ha).whole
  case eq_some =>
    intro room hroom
    obtain ⟨room, rfl, hitems⟩ := exists_of_nesting_array_le hroom
    rw [List.forall_mem_map] at hitems
    rw [ofList, list, List.mapM_map]
    exact mapM_eq_some_self fun a ha => (h a ha).eq_some (hitems a ha)

theorem reads_optional_text (value : Option String) : (optional text).Reads (ofOption .text value) value :=
  reads_optional (fun content _ => reads_text content) (fun _ => nofun)

theorem reads_list_text (values : List String) : (list text).Reads (ofList .text values) values :=
  reads_list fun content _ => reads_text content

theorem reads_list_int32 (values : List Int32) : (list int32).Reads (ofList ofInt32 values) values :=
  reads_list fun number _ => reads_int32 number

/-- What `Reads` a document reads its text, if `nestingLimit` is room for it. -/
theorem Reads.parse_render_bind {document : Json} {a : α} (h : decode.Reads document a)
    (hnesting : document.nesting ≤ nestingLimit) :
    (parse document.render).bind (decode nestingLimit) = some a := by
  rw [parse_render h.whole]
  exact h.eq_some hnesting

/-! ## Records -/

/-- A record is read if its members are whole and it is decoded with room for each of them. -/
theorem reads_object {members : List (String × Json)} {a : α} (hwhole : ∀ entry ∈ members, entry.2.IsWhole)
    (h : ∀ room, (∀ entry ∈ members, entry.2.nesting ≤ room) → decode (room + 1) (.object members) = some a) :
    decode.Reads (.object members) a := by
  refine ⟨isWholeMembers_iff.2 hwhole, fun hroom => ?_⟩
  obtain ⟨room, rfl, hmembers⟩ := exists_of_nesting_object_le hroom
  exact h room hmembers

end Decoder

/-- `members?` of a record whose names are different. -/
theorem members?_object (names : List String) {members : List (String × Json)} (h : (members.map (·.1)).Nodup) :
    members? names (.object members) = some members := by
  have honce (name : String) : (members.filter (·.1 == name)).length ≤ 1 := by
    rw [← List.countP_eq_length_filter, ← Function.comp_def (· == name), ← List.countP_map]
    exact List.nodup_iff_count_le_one.1 h name
  rw [members?, if_pos]
  exact List.all_eq_true.2 fun name _ => decide_eq_true (honce name)

variable {α β : Type} {members : List (String × Json)} {b : β}

/-- `members?` finds the members of a record that has each of them once. -/
theorem members?_bind_eq_some {names : List String} {next : List (String × Json) → Option β}
    (hnames : members.map (·.1) = names) (hnodup : names.Nodup) (h : next members = some b) :
    (members? names (.object members) >>= next) = some b := by
  rw [members?_object names (hnames ▸ hnodup)]
  exact h

section

variable {decode : Decoder α} {document : Json} {a : α} (h : decode.Reads document a) {room : Nat}
  (hroom : ∀ entry ∈ members, entry.2.nesting ≤ room) {name : String} (hlookup : members.lookup name = some document)
  {next : α → Option β}

include h hroom hlookup

/-- What `Reads` the document of a member decodes it, with room for all members. -/
theorem eq_some_of_lookup : decode room document = some a := by
  obtain ⟨before, behind, rfl, _⟩ := List.lookup_eq_some_iff.1 hlookup
  exact h.eq_some (hroom (name, document) (List.mem_append_right _ List.mem_cons_self))

/-- `member` is what its decoder reads. -/
theorem member_bind_eq_some {default : α} (hnext : next a = some b) :
    (member members name room decode default >>= next) = some b := by
  rw [member, hlookup]
  show (decode room document >>= next) = some b
  rw [eq_some_of_lookup h hroom hlookup]
  exact hnext

theorem requiredMember_bind_eq_some (hnext : next a = some b) :
    (requiredMember members name room decode >>= next) = some b := by
  rw [requiredMember, hlookup]
  show (decode room document >>= next) = some b
  rw [eq_some_of_lookup h hroom hlookup]
  exact hnext

end

end SchemaLayout.Json
