import Mathlib.Data.List.Basic
import SchemaLayout.Proofs.Data.Except
import SchemaLayout.Proofs.Schema.Numbering

/-!
# Additions refer to themselves

The elements that numbering builds refer to each other by numbers that are given out in the same breath. Seen
from where the numbers of the additions start, each of these numbers is that of an element of the right
kind (`IsConsistent`), whatever the declarations are: a message's fields and oneofs are there, and the
members of its oneofs are among its fields.
-/

namespace SchemaLayout

/-! ## Numbered lists -/

/-- The element with the number `index`, where the first one has the number `start`. -/
def numbered? {α : Type} (start : Nat) (list : List α) (index : Nat) : Option α :=
  if index < start then none else list[index - start]?

section

variable {α : Type} {start index : Nat} {first second : List α} {a : α}

/-- `numbered?` counts places from `start` on. -/
theorem numbered?_add (place : Nat) (list : List α) :
    numbered? start list (start + place) = list[place]? := by
  rw [numbered?, if_neg (by omega), Nat.add_sub_cancel_left]

@[simp] theorem numbered?_nil : numbered? start ([] : List α) index = none := by
  unfold numbered?
  split <;> rfl

theorem eq_of_numbered?_singleton {b : α} (h : numbered? start [b] index = some a) :
    index = start ∧ b = a := by
  unfold numbered? at h
  split at h
  · cases h
  · obtain ⟨hplace, hb⟩ := List.getElem?_eq_some_iff.1 h
    rw [List.length_singleton] at hplace
    exact ⟨by omega, by simpa using hb⟩

/-- In `first ++ second`, the numbers of `second` begin at `start + first.length`. -/
theorem numbered?_append : numbered? start (first ++ second) index = some a ↔
    numbered? start first index = some a ∨
      numbered? (start + first.length) second index = some a := by
  unfold numbered?
  by_cases hstart : index < start
  · rw [if_pos hstart, if_pos hstart, if_pos (by omega)]
    simp
  · rw [if_neg hstart, if_neg hstart]
    -- Behind the first list, positions are counted from the start of the second one.
    by_cases hfirst : index < start + first.length
    · rw [if_pos hfirst, List.getElem?_append_left (by omega)]
      simp
    · rw [if_neg hfirst, List.getElem?_append_right (by omega),
        List.getElem?_eq_none (l := first) (by omega), Nat.sub_sub]
      simp

theorem mem_of_numbered? {list : List α} (h : numbered? start list index = some a) : a ∈ list := by
  unfold numbered? at h
  split at h
  · cases h
  · exact List.mem_of_getElem? h

theorem size_append_list (array : Array α) (list : List α) :
    (array ++ list).size = array.size + list.length := by
  rw [← Array.length_toList, Array.toList_appendList, List.length_append, Array.length_toList]

theorem mem_append_list_iff {array : Array α} {list : List α} : a ∈ array ++ list ↔ a ∈ array ∨ a ∈ list := by
  rw [← Array.mem_toList_iff, Array.toList_appendList, List.mem_append, Array.mem_toList_iff]

/-- `numbered?` finds only numbers of `List.range' start list.length`. -/
theorem mem_range'_of_numbered? {list : List α} (h : numbered? start list index = some a) :
    index ∈ List.range' start list.length := by
  unfold numbered? at h
  split at h
  · cases h
  · have hlt := (List.getElem?_eq_some_iff.1 h).1
    exact List.mem_range'_1.2 (by omega)

/-- What is added to an array gets the numbers from `array.size` on. -/
theorem getElem?_append_eq_some_iff {array : Array α} {list : List α} :
    (array ++ list)[index]? = some a ↔
      array[index]? = some a ∨ numbered? array.size list index = some a := by
  rw [← Array.getElem?_toList, Array.toList_appendList, numbered?, ← Array.getElem?_toList,
    ← Array.length_toList]
  -- Only one of the two sides can have an element with this number.
  by_cases hindex : index < array.toList.length
  · rw [List.getElem?_append_left hindex, if_pos hindex]
    simp
  · rw [List.getElem?_append_right (by omega), if_neg hindex,
      List.getElem?_eq_none (l := array.toList) (by omega)]
    simp

/-- `numbered?` finds all numbers of `List.range' start list.length`. -/
theorem exists_numbered? {list : List α} (h : index ∈ List.range' start list.length) :
    ∃ a ∈ list, numbered? start list index = some a := by
  obtain ⟨hstart, hstop⟩ := List.mem_range'_1.1 h
  have hlt : index - start < list.length := by omega
  refine ⟨list[index - start], List.getElem_mem hlt, ?_⟩
  rw [numbered?, if_neg (by omega), List.getElem?_eq_getElem hlt]

/-- `mapM` gives each result the number of its element. -/
theorem exists_numbered?_of_mapM {β ε : Type} {f : α → Except ε β} {list : List α}
    {results : List β} (hresults : list.mapM f = .ok results)
    (h : numbered? start list index = some a) :
    ∃ b, numbered? start results index = some b ∧ f a = .ok b := by
  unfold numbered? at *
  split at h
  · cases h
  · next hstart =>
    rw [if_neg hstart]
    exact exists_getElem?_of_mapM hresults h

end

/-- `oneofPlace?` is one of `count` places. -/
theorem FieldDecl.lt_of_oneofPlace? {decl : FieldDecl} {count place : Nat}
    (h : decl.oneofPlace? count = some place) : place < count := by
  obtain ⟨index, _, hplace⟩ := Option.bind_eq_some_iff.1 h
  split at hplace
  · cases hplace
    omega
  · cases hplace

namespace Numbering

/-! ## Messages and their parts -/

/-- The parts of a message are among the additions, whose numbers begin at `start`. -/
structure Holds (start : Counts) (additions : Additions) (message : MessageNode) : Prop where
  fields : ∀ id ∈ message.fields,
    ∃ draft, numbered? start.fields additions.fields id.index = some draft
  byNumber : message.fieldsByNumber.Perm message.fields
  oneofs : ∀ id ∈ message.oneofs,
    ∃ oneof, numbered? start.oneofs additions.oneofs id.index = some oneof ∧
      ∀ field ∈ oneof.fields, field ∈ message.fields

/-- The `oneof` of a field is among the additions, and it is `realOneof` unless it is synthetic. -/
def HoldsOneof (start : Counts) (additions : Additions) (field : FieldNode) : Prop :=
  field.oneof = none ∧ field.realOneof = none ∨
    ∃ id oneof, numbered? start.oneofs additions.oneofs id.index = some oneof ∧ field.oneof = some id ∧
      field.realOneof = if oneof.isSynthetic then none else some id

/-- What additions refer to is among them, and they all belong to `context.file`. -/
structure IsConsistent (context : Context) (start : Counts) (additions : Additions) : Prop where
  message_file : ∀ message ∈ additions.messages, message.file = context.file
  field_file : ∀ draft ∈ additions.fields, draft.node.file = context.file
  enum_file : ∀ enum ∈ additions.enums, enum.file = context.file
  service_file : ∀ service ∈ additions.services, service.file = context.file
  /-- Only extensions extend a message. -/
  extendee : ∀ draft ∈ additions.fields, draft.node.isExtension = false → draft.extendee = none
  /-- Fields that are no extensions belong to the message in which they are declared. -/
  declaredIn : ∀ draft ∈ additions.fields, draft.node.isExtension = false →
    ∃ id, draft.node.containingType = some id ∧ draft.node.declaredIn = some id
  container : ∀ draft ∈ additions.fields, ∀ id, draft.node.containingType = some id →
    ∃ message, numbered? start.messages additions.messages id.index = some message
  /-- The names of messages are entered with the numbers of messages. -/
  entered : ∀ key id, .enter key (.message id) ∈ additions.steps →
    ∃ message, numbered? start.messages additions.messages id.index = some message
  /-- The names of enums are entered with the numbers of enums. -/
  enteredEnum : ∀ key id, .enter key (.enum id) ∈ additions.steps →
    ∃ enum, numbered? start.enums additions.enums id.index = some enum
  /-- The name of each message is entered. -/
  named : ∀ index message, numbered? start.messages additions.messages index = some message →
    .enter (Name.key message.fullName) (.message ⟨index⟩) ∈ additions.steps
  holds : ∀ message ∈ additions.messages, Holds start additions message
  holdsOneof : ∀ draft ∈ additions.fields, HoldsOneof start additions draft.node

variable {context : Context} {start : Counts} {first second : Additions}

theorem Holds.append_left {message : MessageNode} (h : Holds start first message) :
    Holds start (first ++ second) message where
  fields id hid := by
    obtain ⟨draft, hdraft⟩ := h.fields id hid
    exact ⟨draft, numbered?_append.2 (Or.inl hdraft)⟩
  byNumber := h.byNumber
  oneofs id hid := by
    obtain ⟨oneof, honeof, hmembers⟩ := h.oneofs id hid
    exact ⟨oneof, numbered?_append.2 (Or.inl honeof), hmembers⟩

theorem Holds.append_right {message : MessageNode}
    (h : Holds (start + first.counts) second message) :
    Holds start (first ++ second) message where
  fields id hid := by
    obtain ⟨draft, hdraft⟩ := h.fields id hid
    exact ⟨draft, numbered?_append.2 (Or.inr hdraft)⟩
  byNumber := h.byNumber
  oneofs id hid := by
    obtain ⟨oneof, honeof, hmembers⟩ := h.oneofs id hid
    exact ⟨oneof, numbered?_append.2 (Or.inr honeof), hmembers⟩

theorem HoldsOneof.append_left {field : FieldNode} (h : HoldsOneof start first field) :
    HoldsOneof start (first ++ second) field :=
  h.imp_right fun ⟨id, oneof, honeof, hreal⟩ => ⟨id, oneof, numbered?_append.2 (Or.inl honeof), hreal⟩

theorem HoldsOneof.append_right {field : FieldNode} (h : HoldsOneof (start + first.counts) second field) :
    HoldsOneof start (first ++ second) field :=
  h.imp_right fun ⟨id, oneof, honeof, hreal⟩ => ⟨id, oneof, numbered?_append.2 (Or.inr honeof), hreal⟩

theorem IsConsistent.append (hfirst : IsConsistent context start first)
    (hsecond : IsConsistent context (start + first.counts) second) :
    IsConsistent context start (first ++ second) where
  message_file := List.forall_mem_append.2 ⟨hfirst.message_file, hsecond.message_file⟩
  field_file := List.forall_mem_append.2 ⟨hfirst.field_file, hsecond.field_file⟩
  enum_file := List.forall_mem_append.2 ⟨hfirst.enum_file, hsecond.enum_file⟩
  service_file := List.forall_mem_append.2 ⟨hfirst.service_file, hsecond.service_file⟩
  extendee := List.forall_mem_append.2 ⟨hfirst.extendee, hsecond.extendee⟩
  declaredIn := List.forall_mem_append.2 ⟨hfirst.declaredIn, hsecond.declaredIn⟩
  container draft hdraft id hid := by
    rcases List.mem_append.1 hdraft with hdraft | hdraft
    · obtain ⟨message, hmessage⟩ := hfirst.container draft hdraft id hid
      exact ⟨message, numbered?_append.2 (Or.inl hmessage)⟩
    · obtain ⟨message, hmessage⟩ := hsecond.container draft hdraft id hid
      exact ⟨message, numbered?_append.2 (Or.inr hmessage)⟩
  entered key id hstep := by
    rcases List.mem_append.1 hstep with hstep | hstep
    · obtain ⟨message, hmessage⟩ := hfirst.entered key id hstep
      exact ⟨message, numbered?_append.2 (Or.inl hmessage)⟩
    · obtain ⟨message, hmessage⟩ := hsecond.entered key id hstep
      exact ⟨message, numbered?_append.2 (Or.inr hmessage)⟩
  enteredEnum key id hstep := by
    rcases List.mem_append.1 hstep with hstep | hstep
    · obtain ⟨enum, henum⟩ := hfirst.enteredEnum key id hstep
      exact ⟨enum, numbered?_append.2 (Or.inl henum)⟩
    · obtain ⟨enum, henum⟩ := hsecond.enteredEnum key id hstep
      exact ⟨enum, numbered?_append.2 (Or.inr henum)⟩
  named index message hmessage := by
    rcases numbered?_append.1 hmessage with hmessage | hmessage
    · exact List.mem_append_left _ (hfirst.named index message hmessage)
    · exact List.mem_append_right _ (hsecond.named index message hmessage)
  holds := List.forall_mem_append.2
    ⟨fun message hmessage => (hfirst.holds message hmessage).append_left,
      fun message hmessage => (hsecond.holds message hmessage).append_right⟩
  holdsOneof := List.forall_mem_append.2
    ⟨fun draft hdraft => (hfirst.holdsOneof draft hdraft).append_left,
      fun draft hdraft => (hsecond.holdsOneof draft hdraft).append_right⟩

/-! ## Heads of messages -/

/-- `fieldIds` in terms of `List.range'`. -/
theorem mem_fieldIds {id : FieldId} {first count : Nat} :
    id ∈ fieldIds first count ↔ id.index ∈ List.range' first count := by
  rw [fieldIds, List.mem_map]
  constructor
  · intro h
    rcases h with ⟨index, hindex, rfl⟩
    exact hindex
  · intro hindex
    exact ⟨id.index, hindex, rfl⟩

/-- `idsByNumber` sorts the `fieldIds`. -/
theorem idsByNumber_perm (start : Counts) (decl : MessageDecl) :
    (idsByNumber start decl).Perm (fieldIds start.fields decl.field.length) := by
  have hlength : (fieldIds start.fields decl.field.length).length ≤ decl.field.length := by
    simp [fieldIds]
  -- Without sorting, the numbers are those that the fields were zipped with.
  have hids := List.map_snd_zip hlength
  rw [idsByNumber]
  conv => rhs; rw [← hids]
  exact (List.mergeSort_perm _ _).map _

/-- The members of a oneof are `fieldIds` of its message. -/
theorem mem_fieldIds_of_mem_oneofs {fullName : String} {features : Features} {decl : MessageDecl}
    {oneof : OneofNode} (h : oneof ∈ oneofs context start fullName features decl) :
    ∀ id ∈ oneof.fields, id ∈ fieldIds start.fields decl.field.length := by
  obtain ⟨entry, _, rfl⟩ := List.mem_map.1 h
  intro id hid
  obtain ⟨member, hmember, rfl⟩ := List.mem_map.1 hid
  exact (List.of_mem_zip (List.mem_filter.1 hmember).1).2

/-- `ofField` enters no names. -/
theorem enter_not_mem_ofField {scope key : String} {count : Nat} {decl : FieldDecl}
    {definition : Definition} : .enter key definition ∉ Registration.ofField scope count decl := by
  rw [Registration.ofField, Registration.ofOneofIndex]
  cases decl.oneofIndex <;> simp

/-- `ofMessageHead` enters nothing but the name of the message. -/
theorem enter_mem_ofMessageHead {fullName key : String} {id : MessageId} {decl : MessageDecl}
    {definition : Definition}
    (h : .enter key definition ∈ Registration.ofMessageHead fullName id decl) :
    key = Name.key fullName ∧ definition = .message id := by
  rw [Registration.ofMessageHead] at h
  -- Everything that is registered for fields is a condition.
  rcases List.mem_append.1 h with h | h
  · simp only [List.mem_cons, List.mem_flatMap, enter_not_mem_ofField, reduceCtorEq, and_false,
      exists_false, or_false, Registration.enter.injEq] at h
    exact h
  · split at h <;> simp at h

/-- The `fields` of a message satisfy `HoldsOneof` in its `head`. -/
theorem holdsOneof_of_mem_fields {container : Option MessageId} {fullName : String} {features : Features}
    {nestedTypes : List MessageId} {enums : List EnumId} {extensions : List FieldId} {decl : MessageDecl}
    {draft : FieldDraft} (h : draft ∈ fields context start fullName features
      (oneofs context start fullName features decl).toArray decl) :
    HoldsOneof start
      (head context start container fullName features nestedTypes enums extensions decl) draft.node := by
  obtain ⟨member, _, rfl⟩ := List.mem_map.1 h
  simp only [HoldsOneof, Numbering.field, List.size_toArray]
  generalize hnodes : oneofs context start fullName features decl = nodes
  cases hplace : member.oneofPlace? nodes.length with
  | none => exact Or.inl ⟨rfl, rfl⟩
  | some place =>
    obtain ⟨node, hnode⟩ : ∃ node, nodes[place]? = some node :=
      ⟨_, List.getElem?_eq_getElem (FieldDecl.lt_of_oneofPlace? hplace)⟩
    refine Or.inr ⟨⟨start.oneofs + place⟩, node, ?_, rfl, ?_⟩
    · rw [head, hnodes, numbered?_add, hnode]
    · simp only [List.getElem?_toArray, hnode, Option.any_some, Option.filter_some]
      cases node.isSynthetic <;> rfl

/-- The `head` of a message satisfies `IsConsistent`. -/
theorem isConsistent_head (container : Option MessageId) (fullName : String) (features : Features)
    (nestedTypes : List MessageId) (enums : List EnumId) (extensions : List FieldId)
    (decl : MessageDecl) :
    IsConsistent context start
      (head context start container fullName features nestedTypes enums extensions decl) := by
  constructor
  case message_file =>
    intro message hmessage
    rw [List.mem_singleton.1 hmessage]
  case field_file =>
    intro draft hdraft
    obtain ⟨member, _, rfl⟩ := List.mem_map.1 hdraft
    rfl
  case enum_file => exact List.forall_mem_nil _
  case service_file => exact List.forall_mem_nil _
  case extendee =>
    intro draft hdraft _
    obtain ⟨member, _, rfl⟩ := List.mem_map.1 hdraft
    rfl
  case declaredIn =>
    intro draft hdraft _
    obtain ⟨member, _, rfl⟩ := List.mem_map.1 hdraft
    exact ⟨_, rfl, rfl⟩
  case container =>
    intro draft hdraft id hid
    obtain ⟨member, _, rfl⟩ := List.mem_map.1 hdraft
    cases hid
    exact ⟨_, numbered?_add 0 _⟩
  case enteredEnum =>
    intro key id hstep
    cases (enter_mem_ofMessageHead hstep).2
  case entered =>
    intro key id hstep
    obtain ⟨_, hid⟩ := enter_mem_ofMessageHead hstep
    cases hid
    exact ⟨_, numbered?_add 0 _⟩
  case named =>
    intro index message hmessage
    obtain ⟨rfl, rfl⟩ := eq_of_numbered?_singleton hmessage
    exact List.mem_cons_self
  case holds =>
    intro message hmessage
    rw [List.mem_singleton.1 hmessage]
    refine ⟨fun id hid => ?_, idsByNumber_perm start decl, fun id hid => ?_⟩
    -- There are as many drafts as declarations, so each number that is given out has a draft.
    · have hindex := mem_fieldIds.1 hid
      have hlength : decl.field.length = (fields context start fullName features
          (oneofs context start fullName features decl).toArray decl).length := by
        rw [fields, List.length_map]
      rw [hlength] at hindex
      obtain ⟨draft, _, hdraft⟩ := exists_numbered? hindex
      exact ⟨draft, hdraft⟩
    · obtain ⟨index, hindex, rfl⟩ := List.mem_map.1 hid
      obtain ⟨oneof, hmem, honeof⟩ := exists_numbered? hindex
      exact ⟨oneof, honeof, mem_fieldIds_of_mem_oneofs hmem⟩
  case holdsOneof => exact fun draft hdraft => holdsOneof_of_mem_fields hdraft

/-! ## Files -/

/-- What numbering builds satisfies `IsConsistent`. -/
theorem Built.isConsistent {additions : Additions} (h : Built context start additions) :
    IsConsistent context start additions := by
  induction h with
  | nothing start => constructor <;> simp
  | head start container fullName features nestedTypes enums extensions decl =>
    exact isConsistent_head container fullName features nestedTypes enums extensions decl
  | enum start container scope inherited decl =>
    constructor
    case enteredEnum =>
      intro key id hstep
      cases List.mem_singleton.1 hstep
      exact ⟨_, numbered?_add 0 _⟩
    all_goals simp [Numbering.enum]
  | service start scope inherited decl => constructor <;> simp [Numbering.service]
  | extensions start declaredIn scope inherited decls =>
    constructor <;> simp [Numbering.extensions, Numbering.field, HoldsOneof]
  | append _ _ ihfirst ihsecond => exact ihfirst.append ihsecond

end Numbering

end SchemaLayout
