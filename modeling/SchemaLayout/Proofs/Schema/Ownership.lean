import Mathlib.Data.List.Nodup
import SchemaLayout.Proofs.Schema.Assembly

/-!
# What belongs to what

Elements name their parts, and parts name what they belong to: a field its message and its oneof, a oneof its
message, a value its enum, a method its service. In every schema both agree (`isOwned_ofFiles`): an element has
exactly those parts that belong to it, in the order of their numbers, and each part belongs to an element of
the schema.
-/

namespace SchemaLayout

attribute [ext] MessageId FieldId OneofId EnumId EnumValueId

/-! ## Parts and owners -/

/-- The numbers of the parts that belong to `owner`. The first part has the number `first`, and `owners` says of
each part what it belongs to. -/
def belongings {κ : Type} [DecidableEq κ] (first : Nat) (owners : List κ) (owner : κ) : List Nat :=
  ((owners.zipIdx first).filter fun entry => entry.1 = owner).map (·.2)

section

variable {κ : Type} [DecidableEq κ] {first : Nat} {owner : κ} {owners others : List κ}

/-- In `owners ++ others`, the numbers of `others` begin at `first + owners.length`. -/
theorem belongings_append : belongings first (owners ++ others) owner =
    belongings first owners owner ++ belongings (first + owners.length) others owner := by
  rw [belongings, List.zipIdx_append, List.filter_append, List.map_append]
  rfl

/-- `belongings` in terms of `numbered?`. -/
theorem mem_belongings {index : Nat} :
    index ∈ belongings first owners owner ↔ numbered? first owners index = some owner := by
  rw [belongings, numbered?]
  simp only [List.mem_map, List.mem_filter, decide_eq_true_eq, Prod.exists, exists_eq_right]
  rw [List.mk_mem_zipIdx_iff_le_and_getElem?_sub]
  split
  · exact iff_of_false (fun h => by omega) (fun h => by cases h)
  · exact and_iff_right (by omega)

/-- `belongings` in terms of `items[place]?`. -/
theorem mem_belongings_iff {β : Type} {ownerOf : β → κ} {items : Array β} {place : Nat} :
    place ∈ belongings 0 (items.toList.map ownerOf) owner ↔
      ∃ item, items[place]? = some item ∧ ownerOf item = owner := by
  rw [mem_belongings, numbered?, if_neg (Nat.not_lt_zero _), Nat.sub_zero, List.getElem?_map,
    Array.getElem?_toList, Option.map_eq_some_iff]

theorem nodup_belongings (first : Nat) (owners : List κ) (owner : κ) : (belongings first owners owner).Nodup := by
  have hsublist : (belongings first owners owner).Sublist ((owners.zipIdx first).map (·.2)) :=
    List.filter_sublist.map _
  rw [List.zipIdx_map_snd] at hsublist
  exact (List.nodup_range' 1).sublist hsublist

theorem belongings_eq_nil (h : owner ∉ owners) : belongings first owners owner = [] := by
  rw [List.eq_nil_iff_forall_not_mem]
  intro index hindex
  exact h (mem_of_numbered? (mem_belongings.1 hindex))

/-- If all parts belong to `owner`, its belongings are all numbers from `first` on. -/
theorem belongings_replicate (count : Nat) :
    belongings first (List.replicate count owner) owner = List.range' first count := by
  rw [belongings, List.filter_eq_self.2, List.zipIdx_map_snd, List.length_replicate]
  intro entry hentry
  exact decide_eq_true (List.eq_of_mem_replicate (List.fst_mem_of_mem_zipIdx hentry))

/-- Looking up the belongings of `owner` filters the parts by it. -/
theorem map_belongings {α : Type} [Inhabited α] (ownerOf : α → κ) (parts : Array α) (owner : κ) :
    (belongings 0 (parts.toList.map ownerOf) owner).map (fun index => parts[index]?.getD default) =
      parts.toList.filter fun part => ownerOf part = owner := by
  have hparts : (parts.toList.zipIdx.filter fun entry => ownerOf entry.1 = owner).map
      (fun entry => parts[entry.2]?.getD default) =
        (parts.toList.zipIdx.filter fun entry => ownerOf entry.1 = owner).map (·.1) := by
    refine List.map_congr_left fun entry hentry => ?_
    have hat := List.mem_zipIdx_iff_getElem?.1 (List.mem_filter.1 hentry).1
    rw [← Array.getElem?_toList, hat]
    rfl
  rw [belongings, List.zipIdx_map, List.filter_map, List.map_map, List.map_map]
  refine hparts.trans ?_
  conv => rhs; rw [← List.zipIdx_map_fst 0 parts.toList, List.filter_map]
  rfl

end

/-- The elements whose numbers begin at `start` have exactly the parts that belong to them, and no part belongs
to anything else. `owned` are the numbers of the parts that each element names. -/
structure Owns (start : Nat) (owned : List (List Nat)) (first : Nat) (owners : List (Option Nat)) :
    Prop where
  eq_belongings : ∀ {index : Nat} {parts : List Nat},
    numbered? start owned index = some parts → parts = belongings first owners (some index)
  mem_range : ∀ {index : Nat}, some index ∈ owners → start ≤ index ∧ index < start + owned.length

namespace Owns

variable {start first : Nat} {owned : List (List Nat)} {owners : List (Option Nat)}

theorem nothing (start first : Nat) : Owns start [] first [] :=
  ⟨fun h => by simp at h, fun h => absurd h List.not_mem_nil⟩

/-- `Owns` for a single element to which all parts belong. -/
theorem single {α : Type} {owner : α → Option Nat} {items : List α} {count : Nat} {parts : List Nat}
    (hparts : parts = List.range' first count) (hcount : items.length = count)
    (howner : ∀ item ∈ items, owner item = some start) : Owns start [parts] first (items.map owner) := by
  have howners : items.map owner = List.replicate count (some start) :=
    List.eq_replicate_iff.2 ⟨(List.length_map _).trans hcount, by simpa using howner⟩
  rw [howners, hparts]
  constructor
  · intro index parts hnumbered
    obtain ⟨rfl, rfl⟩ := eq_of_numbered?_singleton hnumbered
    exact (belongings_replicate count).symm
  · intro index hmem
    cases List.eq_of_mem_replicate hmem
    exact ⟨Nat.le_refl _, Nat.lt_succ_self _⟩

/-- `Owns` for parts that belong to nothing. -/
theorem none_map {α : Type} {owner : α → Option Nat} {items : List α}
    (howner : ∀ item ∈ items, owner item = none) : Owns start [] first (items.map owner) where
  eq_belongings h := by simp at h
  mem_range {index} h := by
    obtain ⟨item, hitem, hindex⟩ := List.mem_map.1 h
    rw [howner item hitem] at hindex
    cases hindex

theorem append {moreOwned : List (List Nat)} {moreOwners : List (Option Nat)}
    (h : Owns start owned first owners)
    (hmore : Owns (start + owned.length) moreOwned (first + owners.length) moreOwners) :
    Owns start (owned ++ moreOwned) first (owners ++ moreOwners) where
  eq_belongings {index parts} hparts := by
    rw [belongings_append]
    -- The numbers of the elements say which of the two has the parts.
    rcases numbered?_append.1 hparts with hparts | hparts
    · have hlt := (List.mem_range'_1.1 (mem_range'_of_numbered? hparts)).2
      rw [← h.eq_belongings hparts, belongings_eq_nil, List.append_nil]
      exact fun hmem => Nat.not_le_of_lt hlt (hmore.mem_range hmem).1
    · have hle := (List.mem_range'_1.1 (mem_range'_of_numbered? hparts)).1
      rw [← hmore.eq_belongings hparts, belongings_eq_nil, List.nil_append]
      exact fun hmem => Nat.not_le_of_lt (h.mem_range hmem).2 hle
  mem_range {index} hmem := by
    rw [List.length_append]
    rcases List.mem_append.1 hmem with hmem | hmem
    · have hrange := h.mem_range hmem
      omega
    · have hrange := hmore.mem_range hmem
      omega

/-- `Owns.append` for the parts of elements and the owners of items. -/
theorem append_map {α β : Type} {parts : α → List Nat} {owner : β → Option Nat} {elements moreElements : List α}
    {items moreItems : List β} (h : Owns start (elements.map parts) first (items.map owner))
    (hmore : Owns (start + elements.length) (moreElements.map parts) (first + items.length)
      (moreItems.map owner)) :
    Owns start ((elements ++ moreElements).map parts) first ((items ++ moreItems).map owner) := by
  rw [List.map_append, List.map_append]
  refine h.append ?_
  rwa [List.length_map, List.length_map]

/-- `Owns.append_map` for arrays. -/
theorem append_array {α β : Type} {parts : α → List Nat} {owner : β → Option Nat}
    {elements : Array α} {items : Array β} {moreElements : List α} {moreItems : List β}
    (h : Owns 0 (elements.toList.map parts) 0 (items.toList.map owner))
    (hmore : Owns elements.size (moreElements.map parts) items.size (moreItems.map owner)) :
    Owns 0 ((elements ++ moreElements).toList.map parts) 0 ((items ++ moreItems).toList.map owner) := by
  rw [Array.toList_appendList, Array.toList_appendList]
  refine h.append_map ?_
  rwa [Nat.zero_add, Nat.zero_add, Array.length_toList, Array.length_toList]

section

variable {α β : Type} {parts : α → List Nat} {owner : β → Option Nat} {elements : Array α}
  {items : Array β} (h : Owns 0 (elements.toList.map parts) 0 (items.toList.map owner))

include h

/-- The parts of an element in terms of `belongings`. -/
theorem parts_eq {index : Nat} {element : α} (helement : elements[index]? = some element) :
    parts element = belongings 0 (items.toList.map owner) (some index) := by
  refine h.eq_belongings ?_
  rw [numbered?, if_neg (Nat.not_lt_zero _), Nat.sub_zero, List.getElem?_map, Array.getElem?_toList,
    helement, Option.map_some]

/-- The parts of an element are the items that belong to it. -/
theorem mem_parts_iff {index place : Nat} {element : α} (helement : elements[index]? = some element) :
    place ∈ parts element ↔ ∃ item, items[place]? = some item ∧ owner item = some index := by
  rw [h.parts_eq helement, mem_belongings_iff]

/-- No element names a part twice. -/
theorem nodup_parts {index : Nat} {element : α} (helement : elements[index]? = some element) :
    (parts element).Nodup := by
  rw [h.parts_eq helement]
  exact nodup_belongings _ _ _

/-- What an item belongs to is an element. -/
theorem exists_owner {place index : Nat} {item : β} (hitem : items[place]? = some item)
    (howner : owner item = some index) : ∃ element, elements[index]? = some element := by
  have hmem : some index ∈ items.toList.map owner :=
    List.mem_map.2 ⟨item, Array.mem_toList_iff.2 (Array.mem_of_getElem? hitem), howner⟩
  have hlt := (h.mem_range hmem).2
  rw [List.length_map, Nat.zero_add, Array.length_toList] at hlt
  exact ⟨_, Array.getElem?_eq_getElem hlt⟩

end

end Owns

/-! ## Additions -/

/-- The message among whose fields the field was declared. Extensions have none. -/
def FieldNode.home? (field : FieldNode) : Option MessageId :=
  if field.isExtension then none else field.containingType

namespace Numbering

/-- In additions whose numbers begin at `start`, elements have exactly the parts that belong to them. -/
structure IsOwned (start : Counts) (additions : Additions) : Prop where
  fields : Owns start.messages (additions.messages.map fun message => message.fields.map (·.index))
    start.fields (additions.fields.map fun draft => draft.node.home?.map (·.index))
  members : Owns start.oneofs (additions.oneofs.map fun oneof => oneof.fields.map (·.index))
    start.fields (additions.fields.map fun draft => draft.node.oneof.map (·.index))
  oneofs : Owns start.messages (additions.messages.map fun message => message.oneofs.map (·.index))
    start.oneofs (additions.oneofs.map fun oneof => some oneof.containingType.index)
  values : Owns start.enums (additions.enums.map fun enum => enum.values.map (·.index))
    start.values (additions.values.map fun value => some value.enum.index)
  methods : Owns start.services (additions.services.map fun service => service.methods.map (·.index))
    start.methods (additions.methods.map fun method => some method.service.index)

variable {context : Context} {start : Counts}

theorem IsOwned.append {first second : Additions} (hfirst : IsOwned start first)
    (hsecond : IsOwned (start + first.counts) second) : IsOwned start (first ++ second) where
  fields := hfirst.fields.append_map hsecond.fields
  members := hfirst.members.append_map hsecond.members
  oneofs := hfirst.oneofs.append_map hsecond.oneofs
  values := hfirst.values.append_map hsecond.values
  methods := hfirst.methods.append_map hsecond.methods

theorem map_index_fieldIds (first count : Nat) :
    (fieldIds first count).map (·.index) = List.range' first count := by
  rw [fieldIds, List.map_map]
  exact List.map_id _

/-- The members of a oneof are the fields with its `oneofPlace?`. -/
theorem owns_members (fullName : String) (features : Features) (decl : MessageDecl) :
    Owns start.oneofs
      ((oneofs context start fullName features decl).map fun oneof => oneof.fields.map (·.index))
      start.fields (decl.field.map fun member => (member.oneofPlace? decl.oneofDecl.length).map fun place =>
        start.oneofs + place) where
  eq_belongings {index parts} hparts := by
    obtain ⟨place, rfl⟩ := Nat.exists_eq_add_of_le
      (List.mem_range'_1.1 (mem_range'_of_numbered? hparts)).1
    rw [numbered?_add, oneofs, List.map_map, List.getElem?_map, Option.map_eq_some_iff] at hparts
    obtain ⟨⟨oneof, other⟩, hentry, rfl⟩ := hparts
    obtain rfl : other = place := by
      obtain ⟨_, _, hsame⟩ := Option.map_eq_some_iff.1 ((List.getElem?_zipIdx ..).symm.trans hentry)
      have hplace := congrArg Prod.snd hsame
      simpa using hplace.symm
    -- Both sides go through the fields and their numbers, and ask each field for its place.
    have hplaces (entry : FieldDecl × Nat) :
        (entry.1.oneofPlace? decl.oneofDecl.length = some other) =
          ((entry.1.oneofPlace? decl.oneofDecl.length).map (start.oneofs + ·) =
            some (start.oneofs + other)) := by
      cases entry.1.oneofPlace? decl.oneofDecl.length <;> simp
    rw [belongings, List.zipIdx_map, List.zipIdx_eq_zip_range', List.filter_map, List.map_map]
    simp only [Function.comp_apply, fieldIds, List.zip_map_right, List.filter_map, List.map_map]
    refine congrArg (List.map _) (List.filter_congr fun entry _ => ?_)
    exact decide_eq_decide.2 (iff_of_eq (hplaces entry))
  mem_range {index} hmem := by
    obtain ⟨member, _, hplace⟩ := List.mem_map.1 hmem
    obtain ⟨place, hmember, rfl⟩ := Option.map_eq_some_iff.1 hplace
    have hlt := FieldDecl.lt_of_oneofPlace? hmember
    rw [List.length_map, oneofs, List.length_map, List.length_zipIdx]
    omega

/-- The `head` of a message satisfies `IsOwned`. -/
theorem isOwned_head (container : Option MessageId) (fullName : String) (features : Features)
    (nestedTypes : List MessageId) (enums : List EnumId) (extensions : List FieldId)
    (decl : MessageDecl) :
    IsOwned start
      (head context start container fullName features nestedTypes enums extensions decl) where
  fields := by
    refine .single (map_index_fieldIds _ _) (List.length_map _) fun draft hdraft => ?_
    obtain ⟨member, _, rfl⟩ := List.mem_map.1 hdraft
    rfl
  members := by
    have howners : (fields context start fullName features
        (oneofs context start fullName features decl).toArray decl).map
          (fun draft => draft.node.oneof.map (·.index)) =
        decl.field.map fun member => (member.oneofPlace? decl.oneofDecl.length).map fun place =>
          start.oneofs + place := by
      have hsize : (oneofs context start fullName features decl).toArray.size = decl.oneofDecl.length := by
        simp [oneofs]
      rw [fields, hsize, List.map_map]
      refine List.map_congr_left fun member _ => ?_
      show ((member.oneofPlace? decl.oneofDecl.length).map _).map _ = _
      rw [Option.map_map]
      rfl
    exact howners ▸ owns_members fullName features decl
  oneofs := by
    refine .single ((List.map_map ..).trans (List.map_id _)) rfl fun oneof honeof => ?_
    obtain ⟨_, _, rfl⟩ := List.mem_map.1 honeof
    rfl
  values := .nothing _ _
  methods := .nothing _ _

theorem isOwned_enum (container : Option MessageId) (scope : String) (inherited : Features)
    (decl : EnumDecl) : IsOwned start (enum context start container scope inherited decl) where
  fields := .nothing _ _
  members := .nothing _ _
  oneofs := .nothing _ _
  values := by
    refine .single ((List.map_map ..).trans (List.map_id _)) (List.length_map _) fun value hvalue => ?_
    obtain ⟨_, _, rfl⟩ := List.mem_map.1 hvalue
    rfl
  methods := .nothing _ _

theorem isOwned_service (scope : String) (inherited : Features) (decl : ServiceDecl) :
    IsOwned start (service context start scope inherited decl) where
  fields := .nothing _ _
  members := .nothing _ _
  oneofs := .nothing _ _
  values := .nothing _ _
  methods := by
    refine .single ((List.map_map ..).trans (List.map_id _)) (List.length_map _) fun method hmethod => ?_
    obtain ⟨_, _, rfl⟩ := List.mem_map.1 hmethod
    rfl

/-- Extensions belong to no message and no oneof. -/
theorem isOwned_extensions (declaredIn : Option MessageId) (scope : String) (inherited : Features)
    (decls : List FieldDecl) : IsOwned start (extensions context declaredIn scope inherited decls) where
  fields := .none_map fun draft hdraft => by
    obtain ⟨_, _, rfl⟩ := List.mem_map.1 hdraft
    rfl
  members := .none_map fun draft hdraft => by
    obtain ⟨_, _, rfl⟩ := List.mem_map.1 hdraft
    rfl
  oneofs := .nothing _ _
  values := .nothing _ _
  methods := .nothing _ _

/-- What numbering builds satisfies `IsOwned`. -/
theorem Built.isOwned {additions : Additions} (h : Built context start additions) :
    IsOwned start additions := by
  induction h with
  | nothing start => exact ⟨.nothing _ _, .nothing _ _, .nothing _ _, .nothing _ _, .nothing _ _⟩
  | head start container fullName features nestedTypes enums extensions decl =>
    exact isOwned_head container fullName features nestedTypes enums extensions decl
  | enum start container scope inherited decl => exact isOwned_enum container scope inherited decl
  | service start scope inherited decl => exact isOwned_service scope inherited decl
  | extensions start declaredIn scope inherited decls =>
    exact isOwned_extensions declaredIn scope inherited decls
  | append _ _ ihfirst ihsecond => exact ihfirst.append ihsecond

end Numbering

/-! ## Schemas -/

namespace Linking

variable {context : Context} {draft : FieldDraft} {node : FieldNode}

/-- `Linking.field` leaves `home?` alone. -/
theorem home?_of_field (h : field context draft = .ok node)
    (hextendee : draft.node.isExtension = false → draft.extendee = none) :
    node.home? = draft.node.home? := by
  obtain ⟨container, _, hcontainer, _, rfl⟩ := field_eq_ok_iff.1 h
  show (if draft.node.isExtension then none else container) =
    if draft.node.isExtension then none else draft.node.containingType
  split
  · rfl
  · next hdeclared =>
    rw [containingType, hextendee (Bool.not_eq_true _ ▸ hdeclared)] at hcontainer
    cases hcontainer
    rfl

theorem service_of_method {draft : MethodDraft} {node : MethodNode} (h : method context draft = .ok node) :
    node.service = draft.service := by
  obtain ⟨_, _, _, _, rfl⟩ := method_eq_ok_iff.1 h
  rfl

end Linking

namespace Schema

/-- In a schema, elements have exactly the parts that belong to them. -/
structure IsOwned (schema : Schema) : Prop where
  fields : Owns 0 (schema.messages.toList.map fun message => message.fields.map (·.index))
    0 (schema.fields.toList.map fun field => field.home?.map (·.index))
  members : Owns 0 (schema.oneofs.toList.map fun oneof => oneof.fields.map (·.index))
    0 (schema.fields.toList.map fun field => field.oneof.map (·.index))
  oneofs : Owns 0 (schema.messages.toList.map fun message => message.oneofs.map (·.index))
    0 (schema.oneofs.toList.map fun oneof => some oneof.containingType.index)
  values : Owns 0 (schema.enums.toList.map fun enum => enum.values.map (·.index))
    0 (schema.values.toList.map fun value => some value.enum.index)
  methods : Owns 0 (schema.services.toList.map fun service => service.methods.map (·.index))
    0 (schema.methods.toList.map fun method => some method.service.index)

theorem isOwned_empty : empty.IsOwned :=
  ⟨.nothing _ _, .nothing _ _, .nothing _ _, .nothing _ _, .nothing _ _⟩

/-- `addDeclarations` keeps `IsOwned`. -/
theorem isOwned_addDeclarations {schema next : Schema} {rules : FeatureRules} {decl : FileDecl}
    (h : schema.IsOwned) (hadd : schema.addDeclarations rules decl = .ok next) : next.IsOwned := by
  obtain ⟨directory, dependencies, fields, methods, _, _, hfields, hmethods, rfl⟩ :=
    addDeclarations_eq_ok_iff.1 hadd
  have hbuilt := Numbering.built_file ⟨rules, ⟨schema.files.size⟩⟩ schema.counts decl
  have hnew := hbuilt.isOwned
  -- Linking changes none of the owners, so those of the drafts are those of the fields.
  have hhomes := map_eq_of_mapM (fun draft => draft.node.home?.map (·.index))
    (fun field => field.home?.map (·.index)) hfields fun draft hdraft field hlink =>
      congrArg _ (Linking.home?_of_field hlink (hbuilt.isConsistent.extendee draft hdraft))
  have honeofs := map_eq_of_mapM (fun draft => draft.node.oneof.map (·.index))
    (fun field => field.oneof.map (·.index)) hfields fun draft _ field hlink =>
      congrArg _ (Linking.oneofs_of_field hlink).1
  have hservices := map_eq_of_mapM (fun draft => some draft.service.index)
    (fun method => some method.service.index) hmethods fun draft _ method hlink =>
      congrArg (fun id => some id.index) (Linking.service_of_method hlink)
  constructor
  case fields => exact h.fields.append_array (hhomes ▸ hnew.fields)
  case members => exact h.members.append_array (honeofs ▸ hnew.members)
  case oneofs => exact h.oneofs.append_array hnew.oneofs
  case values => exact h.values.append_array hnew.values
  case methods => exact h.methods.append_array (hservices ▸ hnew.methods)

/-- `IsOwned` holds of every schema of files. -/
theorem isOwned_ofFiles {config : Config} {files : List FileDecl} {schema : Schema}
    (h : ofFiles config files = .ok schema) : schema.IsOwned := by
  refine foldlM_preserves (fun schema decl next hschema hnext => ?_) isOwned_empty h
  obtain ⟨rules, _, hadd⟩ := addFile_eq_ok_iff.1 hnext
  exact isOwned_addDeclarations hschema hadd

/-! ## Parts in a schema -/

section

variable {schema : Schema} {id : EnumId}

theorem mem_enumIds : id ∈ schema.enumIds ↔ id.index < schema.enums.size := by
  rw [enumIds, List.mem_map]
  constructor
  · intro h
    rcases h with ⟨index, hindex, rfl⟩
    exact List.mem_range.1 hindex
  · intro hindex
    exact ⟨id.index, List.mem_range.2 hindex, rfl⟩

theorem getElem?_of_mem_enumIds (h : id ∈ schema.enumIds) :
    schema.enums[id.index]? = some (schema.enum id) := by
  rw [Schema.enum, Array.getElem?_eq_getElem (mem_enumIds.1 h)]
  rfl

end

namespace IsOwned

variable {schema : Schema} (h : schema.IsOwned)

include h

/-- `fieldsOf` in terms of `home?`. -/
theorem fieldsOf_eq {id : MessageId} (hid : id ∈ schema.messageIds) :
    schema.fieldsOf id = schema.fields.toList.filter fun field => field.home? = some id := by
  have hindices := h.fields.parts_eq (getElem?_of_mem_messageIds hid)
  have hfields : (schema.message id).fields.map schema.field =
      ((schema.message id).fields.map (·.index)).map fun index => schema.fields[index]?.getD default := by
    rw [List.map_map]
    rfl
  rw [fieldsOf, hfields, hindices, map_belongings]
  refine List.filter_congr fun field _ => decide_eq_decide.2 ?_
  cases field.home? <;> simp [MessageId.ext_iff]

/-- The members of a oneof in terms of `oneof`. -/
theorem members_eq {id : OneofId} {oneof : OneofNode} (honeof : schema.oneofs[id.index]? = some oneof) :
    oneof.fields.map schema.field = schema.fields.toList.filter fun field => field.oneof = some id := by
  have hindices := h.members.parts_eq honeof
  have hfields : oneof.fields.map schema.field =
      (oneof.fields.map (·.index)).map fun index => schema.fields[index]?.getD default := by
    rw [List.map_map]
    rfl
  rw [hfields, hindices, map_belongings]
  refine List.filter_congr fun field _ => decide_eq_decide.2 ?_
  cases field.oneof <;> simp [OneofId.ext_iff]

/-- The numbers of `fields` in terms of `home?`. -/
theorem mem_fields_iff {id : MessageId} (hid : id ∈ schema.messageIds) {field : FieldId} :
    field ∈ (schema.message id).fields ↔ ∃ node, schema.fields[field.index]? = some node ∧ node.home? = some id := by
  have hindex : field ∈ (schema.message id).fields ↔
      field.index ∈ (schema.message id).fields.map (·.index) :=
    (List.mem_map_of_injective fun _ _ => FieldId.ext).symm
  rw [hindex, h.fields.mem_parts_iff (getElem?_of_mem_messageIds hid)]
  exact exists_congr fun node => and_congr_right fun _ =>
    (Option.map_injective fun _ _ => MessageId.ext).eq_iff' rfl

theorem nodup_fields {id : MessageId} (hid : id ∈ schema.messageIds) : (schema.message id).fields.Nodup :=
  .of_map _ (h.fields.nodup_parts (getElem?_of_mem_messageIds hid))

/-- The numbers of members in terms of `oneof`. -/
theorem mem_members_iff {id : OneofId} {oneof : OneofNode} (honeof : schema.oneofs[id.index]? = some oneof)
    {field : FieldId} :
    field ∈ oneof.fields ↔ ∃ node, schema.fields[field.index]? = some node ∧ node.oneof = some id := by
  have hindex : field ∈ oneof.fields ↔ field.index ∈ oneof.fields.map (·.index) :=
    (List.mem_map_of_injective fun _ _ => FieldId.ext).symm
  rw [hindex, h.members.mem_parts_iff honeof]
  exact exists_congr fun node => and_congr_right fun _ =>
    (Option.map_injective fun _ _ => OneofId.ext).eq_iff' rfl

/-- The oneofs of a message in terms of `containingType`. -/
theorem mem_oneofs_iff {id : MessageId} (hid : id ∈ schema.messageIds) {oneof : OneofId} :
    oneof ∈ (schema.message id).oneofs ↔
      ∃ node, schema.oneofs[oneof.index]? = some node ∧ node.containingType = id := by
  have hindex : oneof ∈ (schema.message id).oneofs ↔
      oneof.index ∈ (schema.message id).oneofs.map (·.index) :=
    (List.mem_map_of_injective fun _ _ => OneofId.ext).symm
  rw [hindex, h.oneofs.mem_parts_iff (getElem?_of_mem_messageIds hid)]
  simp only [Option.some.injEq, MessageId.ext_iff]

/-- The values of an enum in terms of `enum`. -/
theorem mem_values_iff {id : EnumId} (hid : id ∈ schema.enumIds) {value : EnumValueId} :
    value ∈ (schema.enum id).values ↔
      ∃ node, schema.values[value.index]? = some node ∧ node.enum = id := by
  have hindex : value ∈ (schema.enum id).values ↔ value.index ∈ (schema.enum id).values.map (·.index) :=
    (List.mem_map_of_injective fun _ _ => EnumValueId.ext).symm
  rw [hindex, h.values.mem_parts_iff (getElem?_of_mem_enumIds hid)]
  simp only [Option.some.injEq, EnumId.ext_iff]

theorem nodup_values {id : EnumId} (hid : id ∈ schema.enumIds) : (schema.enum id).values.Nodup :=
  .of_map _ (h.values.nodup_parts (getElem?_of_mem_enumIds hid))

end IsOwned

end Schema

end SchemaLayout
