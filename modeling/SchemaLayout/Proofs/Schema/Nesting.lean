import SchemaLayout.Proofs.Schema.Ownership

/-!
# What stands in what

Messages, enums and extensions stand in messages or, at the top level, in files; services stand in files only.
What they say of where they stand agrees with the lists of what stands in a message or in a file
(`isNested_ofFiles`), and a message comes before those that stand in it. Since numbers are given out before what
is nested is known, the nesting of messages is gone through from the inside to the outside: what was loose
inside a message belongs to it once the message is there (`Nests.wrap`).
-/

namespace SchemaLayout

/-! ## Nests -/

/-- Elements whose numbers begin at `start`, and parts, each of which stands in one of the elements or is
`loose` and stands in `outer`. `owners` says of each part in what it stands; some parts stand nowhere. -/
structure Nests (outer : Option Nat) (start : Nat) (owned : List (List Nat)) (first : Nat)
    (owners : List (Option (Option Nat))) (loose : List Nat) : Prop where
  eq_belongings : ∀ {index : Nat} {parts : List Nat},
    numbered? start owned index = some parts → parts = belongings first owners (some (some index))
  loose_eq : loose = belongings first owners (some outer)
  mem_range : ∀ {owner : Option Nat}, some owner ∈ owners →
    owner = outer ∨ ∃ index, owner = some index ∧ start ≤ index ∧ index < start + owned.length

namespace Nests

variable {outer : Option Nat} {start first : Nat} {owned : List (List Nat)}
  {owners : List (Option (Option Nat))} {loose : List Nat}

theorem nothing (outer : Option Nat) (start first : Nat) : Nests outer start [] first [] [] :=
  ⟨fun h => by simp at h, rfl, fun h => absurd h List.not_mem_nil⟩

/-- `Nests` with parts that all stand in `outer`. -/
theorem loose_map {α : Type} {owner : α → Option (Option Nat)} {items : List α} {count : Nat}
    (hcount : items.length = count) (howner : ∀ item ∈ items, owner item = some outer) :
    Nests outer start [] first (items.map owner) (List.range' first count) := by
  have howners : items.map owner = List.replicate count (some outer) :=
    List.eq_replicate_iff.2 ⟨(List.length_map _).trans hcount, by simpa using howner⟩
  rw [howners]
  refine ⟨fun h => by simp at h, (belongings_replicate count).symm, fun h => Or.inl ?_⟩
  exact Option.some.inj (List.eq_of_mem_replicate h)

section

variable (houter : ∀ index, outer = some index → index < start)

include houter

theorem append {moreOwned : List (List Nat)} {moreOwners : List (Option (Option Nat))}
    {moreLoose : List Nat} (h : Nests outer start owned first owners loose)
    (hmore : Nests outer (start + owned.length) moreOwned (first + owners.length) moreOwners moreLoose) :
    Nests outer start (owned ++ moreOwned) first (owners ++ moreOwners) (loose ++ moreLoose) where
  eq_belongings {index parts} hparts := by
    rw [belongings_append]
    -- What is around is neither of the elements, so parts stand in elements of their own side only.
    rcases numbered?_append.1 hparts with hparts | hparts
    · obtain ⟨hle, hlt⟩ := List.mem_range'_1.1 (mem_range'_of_numbered? hparts)
      rw [← h.eq_belongings hparts, belongings_eq_nil, List.append_nil]
      intro hmem
      rcases hmore.mem_range hmem with hin | ⟨other, hin, hother, _⟩
      · exact Nat.not_lt_of_le hle (houter index hin.symm)
      · cases hin
        exact Nat.not_le_of_lt hlt hother
    · obtain ⟨hle, _⟩ := List.mem_range'_1.1 (mem_range'_of_numbered? hparts)
      rw [← hmore.eq_belongings hparts, belongings_eq_nil, List.nil_append]
      intro hmem
      rcases h.mem_range hmem with hin | ⟨other, hin, _, hother⟩
      · have hlt := houter index hin.symm
        omega
      · cases hin
        exact Nat.not_le_of_lt hother hle
  loose_eq := by rw [belongings_append, ← h.loose_eq, ← hmore.loose_eq]
  mem_range {owner} hmem := by
    rw [List.length_append]
    rcases List.mem_append.1 hmem with hmem | hmem
    · refine (h.mem_range hmem).imp_right fun hin => ?_
      obtain ⟨index, rfl, hle, hlt⟩ := hin
      exact ⟨index, rfl, hle, by omega⟩
    · refine (hmore.mem_range hmem).imp_right fun hin => ?_
      obtain ⟨index, rfl, hle, hlt⟩ := hin
      exact ⟨index, rfl, by omega, by omega⟩

/-- `Nests.append` for the parts of elements and the owners of items. -/
theorem append_map {α β γ : Type} {parts : α → List Nat} {owner : β → Option (Option Nat)} {number : γ → Nat}
    {elements moreElements : List α} {items moreItems : List β} {loose moreLoose : List γ}
    (h : Nests outer start (elements.map parts) first (items.map owner) (loose.map number))
    (hmore : Nests outer (start + elements.length) (moreElements.map parts) (first + items.length)
      (moreItems.map owner) (moreLoose.map number)) :
    Nests outer start ((elements ++ moreElements).map parts) first ((items ++ moreItems).map owner)
      ((loose ++ moreLoose).map number) := by
  rw [List.map_append, List.map_append, List.map_append]
  refine h.append houter ?_
  rwa [List.length_map, List.length_map]

/-- With `start` as an element, what was loose in it is among its parts. Parts of `before` come with it and do
not stand in it. -/
theorem wrap (before : List (Option (Option Nat))) (hbefore : ∀ owner, some owner ∈ before → owner = outer)
    {next : Nat} (hnext : first + before.length = next)
    (h : Nests (some start) (start + 1) owned next owners loose) :
    Nests outer start (loose :: owned) first (before ++ owners) (belongings first before (some outer)) where
  eq_belongings {index parts} (hparts : numbered? start ([loose] ++ owned) index = some parts) := by
    -- Parts of `before` stand in `outer`, which comes before all of the elements.
    have hnone (other : Nat) (hle : start ≤ other) : belongings first before (some (some other)) = [] := by
      refine belongings_eq_nil fun hmem => ?_
      exact Nat.not_lt_of_le hle (houter other (hbefore _ hmem).symm)
    rw [belongings_append, hnext]
    rcases numbered?_append.1 hparts with hparts | hparts
    · obtain ⟨rfl, rfl⟩ := eq_of_numbered?_singleton hparts
      rw [hnone index (Nat.le_refl _), List.nil_append, h.loose_eq]
    · have hle := (List.mem_range'_1.1 (mem_range'_of_numbered? hparts)).1
      rw [hnone index (Nat.le_of_succ_le hle), List.nil_append, h.eq_belongings hparts]
  loose_eq := by
    have hnone : belongings next owners (some outer) = [] := by
      refine belongings_eq_nil fun hmem => ?_
      rcases h.mem_range hmem with hin | ⟨index, hin, hle, _⟩
      · exact Nat.lt_irrefl _ (houter start hin)
      · exact Nat.not_lt_of_le (Nat.le_of_succ_le hle) (houter index hin)
    rw [belongings_append, hnext, hnone, List.append_nil]
  mem_range {owner} hmem := by
    rw [List.length_cons]
    rcases List.mem_append.1 hmem with hmem | hmem
    · exact Or.inl (hbefore owner hmem)
    · rcases h.mem_range hmem with rfl | ⟨index, rfl, hle, hlt⟩
      · exact Or.inr ⟨start, rfl, Nat.le_refl _, by omega⟩
      · exact Or.inr ⟨index, rfl, by omega, by omega⟩

end

/-- `Nests.append_map` for arrays. -/
theorem append_array {α β γ : Type} {parts : α → List Nat} {owner : β → Option (Option Nat)} {number : γ → Nat}
    {elements : Array α} {moreElements : List α} {items : Array β} {moreItems : List β}
    {loose moreLoose : List γ}
    (h : Nests none 0 (elements.toList.map parts) 0 (items.toList.map owner) (loose.map number))
    (hmore : Nests none elements.size (moreElements.map parts) items.size (moreItems.map owner)
      (moreLoose.map number)) :
    Nests none 0 ((elements ++ moreElements).toList.map parts) 0 ((items ++ moreItems).toList.map owner)
      ((loose ++ moreLoose).map number) := by
  rw [Array.toList_appendList, Array.toList_appendList]
  refine h.append_map (fun _ hindex => by cases hindex) ?_
  rwa [Nat.zero_add, Nat.zero_add, Array.length_toList, Array.length_toList]

section

variable {α β : Type} {parts : α → List Nat} {owner : β → Option (Option Nat)} {elements : Array α}
  {items : Array β} (h : Nests outer 0 (elements.toList.map parts) 0 (items.toList.map owner) loose)

include h

/-- The parts of an element in terms of `belongings`. -/
theorem parts_eq {index : Nat} {element : α} (helement : elements[index]? = some element) :
    parts element = belongings 0 (items.toList.map owner) (some (some index)) := by
  refine h.eq_belongings ?_
  rw [numbered?, if_neg (Nat.not_lt_zero _), Nat.sub_zero, List.getElem?_map, Array.getElem?_toList,
    helement, Option.map_some]

/-- The parts of an element are the items that stand in it. -/
theorem mem_parts_iff {index place : Nat} {element : α} (helement : elements[index]? = some element) :
    place ∈ parts element ↔ ∃ item, items[place]? = some item ∧ owner item = some (some index) := by
  rw [h.parts_eq helement, mem_belongings_iff]

/-- No element lists a part twice. -/
theorem nodup_parts {index : Nat} {element : α} (helement : elements[index]? = some element) :
    (parts element).Nodup := by
  rw [h.parts_eq helement]
  exact nodup_belongings _ _ _

/-- The loose parts are the items that stand in `outer`. -/
theorem mem_loose_iff {place : Nat} :
    place ∈ loose ↔ ∃ item, items[place]? = some item ∧ owner item = some outer := by
  rw [h.loose_eq, mem_belongings_iff]

/-- What an item stands in is an element, or `outer`. -/
theorem exists_owner {item : β} (hitem : item ∈ items) {index : Nat}
    (howner : owner item = some (some index)) (houter : outer ≠ some index) :
    ∃ element, elements[index]? = some element := by
  have hmem : some (some index) ∈ items.toList.map owner :=
    List.mem_map.2 ⟨item, Array.mem_toList_iff.2 hitem, howner⟩
  rcases h.mem_range hmem with hin | ⟨other, hin, _, hlt⟩
  · exact absurd hin.symm houter
  · cases hin
    rw [List.length_map, Nat.zero_add, Array.length_toList] at hlt
    exact ⟨_, Array.getElem?_eq_getElem hlt⟩

end

end Nests

/-! ## Additions -/

/-- Where an extension stands. Other fields stand in no list of extensions. -/
def FieldNode.site? (field : FieldNode) : Option (Option MessageId) :=
  if field.isExtension then some field.declaredIn else none

theorem Additions.append_assoc (first second third : Additions) :
    first ++ second ++ third = first ++ (second ++ third) := by
  show Additions.mk _ _ _ _ _ _ _ _ = Additions.mk _ _ _ _ _ _ _ _
  congr 1 <;> exact List.append_assoc _ _ _

namespace Numbering

/-- In additions whose numbers begin at `start`, messages list what stands in them and come before it. What
stands directly in `container` are the given messages, enums and extensions, and all services. -/
structure IsNested (start : Counts) (container : Option MessageId) (additions : Additions)
    (messageIds : List MessageId) (enumIds : List EnumId) (extensionIds : List FieldId)
    (serviceIds : List ServiceId) : Prop where
  messages : Nests (container.map (·.index)) start.messages
    (additions.messages.map fun message => message.nestedTypes.map (·.index)) start.messages
    (additions.messages.map fun message => some (message.containingType.map (·.index)))
    (messageIds.map (·.index))
  enums : Nests (container.map (·.index)) start.messages
    (additions.messages.map fun message => message.enums.map (·.index)) start.enums
    (additions.enums.map fun enum => some (enum.containingType.map (·.index)))
    (enumIds.map (·.index))
  extensions : Nests (container.map (·.index)) start.messages
    (additions.messages.map fun message => message.extensions.map (·.index)) start.fields
    (additions.fields.map fun draft => draft.node.site?.map fun site => site.map (·.index))
    (extensionIds.map (·.index))
  services : serviceIds.map (·.index) = List.range' start.services additions.services.length
  before : ∀ {index : Nat} {message : MessageNode},
    numbered? start.messages additions.messages index = some message →
      ∀ parent, message.containingType = some parent → parent.index < index

variable {context : Context} {start : Counts} {container : Option MessageId}

/-- The message around comes before everything from `start` on. -/
def IsOutside (container : Option MessageId) (start : Counts) : Prop :=
  ∀ id, container = some id → id.index < start.messages

theorem isOutside_none (start : Counts) : IsOutside none start :=
  fun _ h => by cases h

theorem IsOutside.add (h : IsOutside container start) (counts : Counts) :
    IsOutside container (start + counts) :=
  fun id hid => Nat.lt_of_lt_of_le (h id hid) (Nat.le_add_right _ _)

theorem IsOutside.index_lt (h : IsOutside container start) (index : Nat)
    (hindex : container.map (·.index) = some index) : index < start.messages := by
  obtain ⟨id, hid, rfl⟩ := Option.map_eq_some_iff.1 hindex
  exact h id hid

theorem isNested_nothing : IsNested start container {} [] [] [] [] :=
  ⟨.nothing _ _ _, .nothing _ _ _, .nothing _ _ _, rfl, fun h => by simp at h⟩

theorem IsNested.append (hcontainer : IsOutside container start) {first second : Additions}
    {messageIds moreMessageIds : List MessageId} {enumIds moreEnumIds : List EnumId}
    {extensionIds moreExtensionIds : List FieldId} {serviceIds moreServiceIds : List ServiceId}
    (h : IsNested start container first messageIds enumIds extensionIds serviceIds)
    (hmore : IsNested (start + first.counts) container second moreMessageIds moreEnumIds moreExtensionIds
      moreServiceIds) :
    IsNested start container (first ++ second) (messageIds ++ moreMessageIds) (enumIds ++ moreEnumIds)
      (extensionIds ++ moreExtensionIds) (serviceIds ++ moreServiceIds) where
  messages := .append_map hcontainer.index_lt h.messages hmore.messages
  enums := .append_map hcontainer.index_lt h.enums hmore.enums
  extensions := .append_map hcontainer.index_lt h.extensions hmore.extensions
  services := by
    have hlength : (first ++ second).services.length = first.services.length + second.services.length :=
      List.length_append
    rw [List.map_append, h.services, hmore.services, hlength, ← List.range'_append_1]
    rfl
  before hmessage := (numbered?_append.1 hmessage).elim h.before hmore.before

/-- Enums stand in what is around them. -/
theorem isNested_enum (scope : String) (inherited : Features) (decl : EnumDecl) :
    IsNested start container (enum context start container scope inherited decl) [] [⟨start.enums⟩] [] [] where
  messages := .nothing _ _ _
  enums := .loose_map rfl (by simp [enum])
  extensions := .nothing _ _ _
  services := rfl
  before hmessage := by simp [enum] at hmessage

theorem fields_enums (scope : String) (inherited : Features) (decls : List EnumDecl) :
    (enums context start container scope inherited decls).fields = [] := by
  induction decls generalizing start with
  | nil => rfl
  | cons decl rest ih => exact ih

/-- `isNested_enum` for lists. -/
theorem isNested_enums (hcontainer : IsOutside container start) (scope : String) (inherited : Features)
    (decls : List EnumDecl) :
    IsNested start container (enums context start container scope inherited decls) []
      ((List.range' start.enums decls.length).map .mk) [] [] := by
  induction decls generalizing start with
  | nil => exact isNested_nothing
  | cons decl rest ih =>
    rw [List.length_cons, List.range'_succ]
    exact .append hcontainer (isNested_enum scope inherited decl) (ih (hcontainer.add _))

/-- Extensions stand in what is around them. -/
theorem isNested_extensions (scope : String) (inherited : Features) (decls : List FieldDecl) {first : Nat}
    (hfirst : start.fields = first) :
    IsNested start container (extensions context container scope inherited decls) [] []
      (fieldIds first decls.length) [] where
  messages := .nothing _ _ _
  enums := .nothing _ _ _
  extensions := by
    rw [map_index_fieldIds, hfirst]
    refine .loose_map (List.length_map _) fun draft hdraft => ?_
    obtain ⟨_, _, rfl⟩ := List.mem_map.1 hdraft
    rfl
  services := rfl
  before hmessage := by simp [extensions] at hmessage

theorem fields_services (scope : String) (inherited : Features) (decls : List ServiceDecl) :
    (services context start scope inherited decls).fields = [] := by
  induction decls generalizing start with
  | nil => rfl
  | cons decl rest ih => exact ih

theorem isNested_service (scope : String) (inherited : Features) (decl : ServiceDecl) :
    IsNested start container (service context start scope inherited decl) [] [] [] [⟨start.services⟩] :=
  ⟨.nothing _ _ _, .nothing _ _ _, .nothing _ _ _, rfl, fun h => by simp [service] at h⟩

/-- Services stand at the top of a file. -/
theorem isNested_services (hcontainer : IsOutside container start) (scope : String) (inherited : Features)
    (decls : List ServiceDecl) :
    IsNested start container (services context start scope inherited decls) [] [] []
      ((List.range' start.services decls.length).map .mk) := by
  induction decls generalizing start with
  | nil => exact isNested_nothing
  | cons decl rest ih =>
    rw [List.length_cons, List.range'_succ]
    exact .append hcontainer (isNested_service scope inherited decl) (ih (hcontainer.add _))

/-- What is loose inside a message stands in the message, once its `head` is in front. -/
theorem isNested_head (hcontainer : IsOutside container start) (fullName : String) (features : Features)
    {messageIds : List MessageId} {enumIds : List EnumId} {extensionIds : List FieldId} (decl : MessageDecl)
    {inside : Additions}
    (h : IsNested (start + headCounts decl) (some ⟨start.messages⟩) inside messageIds enumIds extensionIds []) :
    IsNested start container
      (head context start container fullName features messageIds enumIds extensionIds decl ++ inside)
      [⟨start.messages⟩] [] [] [] where
  messages := by
    have hown : belongings start.messages [some (container.map (·.index))] (some (container.map (·.index))) =
        [start.messages] := belongings_replicate 1
    have hwrap := h.messages.wrap hcontainer.index_lt [some (container.map (·.index))] (by simp) rfl
    rwa [hown] at hwrap
  enums := by
    exact h.enums.wrap hcontainer.index_lt [] (by simp) rfl
  extensions := by
    -- The fields of the message itself are no extensions.
    have hfields : (fields context start fullName features
        (oneofs context start fullName features decl).toArray decl).map
          (fun draft => draft.node.site?.map fun site => site.map (·.index)) =
        List.replicate decl.field.length none := by
      refine List.eq_replicate_iff.2 ⟨by simp [fields], ?_⟩
      simp [fields, field, FieldNode.site?]
    have hnone : belongings start.fields (List.replicate decl.field.length none)
        (some (container.map (·.index))) = [] :=
      belongings_eq_nil (by simp)
    have hwrap := h.extensions.wrap hcontainer.index_lt (List.replicate decl.field.length none) (by simp)
      (by rw [List.length_replicate]; rfl)
    rw [hnone, ← hfields, ← List.map_append] at hwrap
    exact hwrap
  services := h.services
  before {index message} hmessage := by
    rcases numbered?_append.1 hmessage with hmessage | hmessage
    · obtain ⟨rfl, rfl⟩ := eq_of_numbered?_singleton hmessage
      exact hcontainer
    · exact h.before hmessage

/-- Additions without fields do not change the number of the next field. -/
theorem fields_add_counts {additions : Additions} (h : additions.fields = []) :
    (start + additions.counts).fields = start.fields := by
  show start.fields + additions.fields.length = start.fields
  rw [h, List.length_nil, Nat.add_zero]

/-- `isNested_message` if it holds of `decl.nestedType`. -/
theorem isNested_message_of_nested (hcontainer : IsOutside container start) (scope : String)
    (inherited : Features) (decl : MessageDecl)
    (hnested : ∀ start container scope inherited, IsOutside container start →
      IsNested start container (messages context start container scope inherited decl.nestedType).2
        (messages context start container scope inherited decl.nestedType).1 [] [] []) :
    IsNested start container (message context start container scope inherited decl)
      [⟨start.messages⟩] [] [] [] := by
  -- What is nested in the message gets numbers behind its own.
  have hinside : IsOutside (some ⟨start.messages⟩) (start + headCounts decl) := fun id hid => by
    cases hid
    exact Nat.lt_succ_self _
  rw [message_eq, Additions.append_assoc, Additions.append_assoc]
  refine isNested_head hcontainer _ _ decl ?_
  generalize Name.qualify scope decl.name = fullName
  generalize context.rules.resolve (decl.options.bind (·.features)) inherited = features
  have hmessages := hnested _ _ fullName features hinside
  have hafter := hinside.add
    (messages context (start + headCounts decl) (some ⟨start.messages⟩) fullName features decl.nestedType).2.counts
  have henums := @isNested_enums context _ _ hafter fullName features decl.enumType
  have hparts := hmessages.append hinside (henums.append hafter
    (@isNested_extensions context _ _ fullName features decl.extension _
      (fields_add_counts (fields_enums _ _ _))))
  simpa only [List.append_nil, List.nil_append] using hparts

mutual

/-- A message satisfies `IsNested` with everything in it. -/
theorem isNested_message {start : Counts} {container : Option MessageId}
    (hcontainer : IsOutside container start) (scope : String) (inherited : Features) (decl : MessageDecl) :
    IsNested start container (message context start container scope inherited decl)
      [⟨start.messages⟩] [] [] [] := by
  match decl with
  | ⟨_, _, _, nestedType, _, _, _, _, _, _⟩ =>
    exact isNested_message_of_nested hcontainer scope inherited _ fun _ _ scope inherited hcontainer =>
      isNested_messages hcontainer scope inherited nestedType

/-- `isNested_message` for lists. -/
theorem isNested_messages {start : Counts} {container : Option MessageId}
    (hcontainer : IsOutside container start) (scope : String) (inherited : Features) (decls : List MessageDecl) :
    IsNested start container (messages context start container scope inherited decls).2
      (messages context start container scope inherited decls).1 [] [] [] := by
  match decls with
  | [] => exact isNested_nothing
  | decl :: rest =>
    rw [messages]
    exact .append hcontainer (isNested_message hcontainer scope inherited decl)
      (isNested_messages (hcontainer.add _) scope inherited rest)

end

/-- A file satisfies `IsNested`, and lists what stands in no message. -/
theorem isNested_file (context : Context) (start : Counts) (decl : FileDecl) :
    IsNested start none (file context start decl).2 (file context start decl).1.messages
      (file context start decl).1.enums (file context start decl).1.extensions
      (file context start decl).1.services := by
  rw [file]
  generalize context.rules.resolve (decl.options.bind (·.features)) context.rules.defaults = features
  have hmessages :=
    @isNested_messages context start _ (isOutside_none start) decl.package features decl.messageType
  have hafter := isOutside_none (start + (messages context start none decl.package features
    decl.messageType).2.counts)
  have henums := @isNested_enums context _ _ hafter decl.package features decl.enumType
  have hparts := hmessages.append (isOutside_none start) (henums.append hafter
    (.append (isOutside_none _) (@isNested_services context _ _ (isOutside_none _) decl.package features decl.service)
      (@isNested_extensions context _ _ decl.package features decl.extension _
        (fields_add_counts (fields_services _ _ _)))))
  simpa only [← Additions.append_assoc, List.append_nil, List.nil_append] using hparts

end Numbering

/-! ## Schemas -/

/-- `Linking.field` leaves `site?` alone. -/
theorem Linking.site?_of_field {context : Context} {draft : FieldDraft} {node : FieldNode}
    (h : Linking.field context draft = .ok node) : node.site? = draft.node.site? := by
  obtain ⟨_, _, _, _, rfl⟩ := field_eq_ok_iff.1 h
  rfl

namespace Schema

/-- In a schema, messages and files list what stands in them, and messages come before what is nested in them.
-/
structure IsNested (schema : Schema) : Prop where
  messages : Nests none 0 (schema.messages.toList.map fun message => message.nestedTypes.map (·.index))
    0 (schema.messages.toList.map fun message => some (message.containingType.map (·.index)))
    ((schema.files.toList.flatMap (·.messages)).map (·.index))
  enums : Nests none 0 (schema.messages.toList.map fun message => message.enums.map (·.index))
    0 (schema.enums.toList.map fun enum => some (enum.containingType.map (·.index)))
    ((schema.files.toList.flatMap (·.enums)).map (·.index))
  extensions : Nests none 0 (schema.messages.toList.map fun message => message.extensions.map (·.index))
    0 (schema.fields.toList.map fun field => field.site?.map fun site => site.map (·.index))
    ((schema.files.toList.flatMap (·.extensions)).map (·.index))
  services : (schema.files.toList.flatMap (·.services)).map (·.index) = List.range schema.services.size
  before : ∀ {index : Nat} {message : MessageNode}, schema.messages[index]? = some message →
    ∀ parent, message.containingType = some parent → parent.index < index

theorem isNested_empty : empty.IsNested :=
  ⟨.nothing _ _ _, .nothing _ _ _, .nothing _ _ _, rfl, fun h => by simp [empty] at h⟩

/-- `addDeclarations` keeps `IsNested`. -/
theorem isNested_addDeclarations {schema next : Schema} {rules : FeatureRules} {decl : FileDecl}
    (h : schema.IsNested) (hadd : schema.addDeclarations rules decl = .ok next) : next.IsNested := by
  obtain ⟨directory, dependencies, fields, methods, _, _, hfields, _, rfl⟩ :=
    addDeclarations_eq_ok_iff.1 hadd
  have hnew := Numbering.isNested_file ⟨rules, ⟨schema.files.size⟩⟩ schema.counts decl
  have hsites := map_eq_of_mapM (fun draft => draft.node.site?.map fun site => site.map (·.index))
    (fun field => field.site?.map fun site => site.map (·.index)) hfields fun draft _ field hlink =>
      congrArg (Option.map fun site => site.map (·.index)) (Linking.site?_of_field hlink)
  -- The new file is the last one, and what is loose in it comes behind what was loose before.
  have hloose {α : Type} (parts : FileNode → List α) (file : FileNode) :
      (schema.files.push file).toList.flatMap parts = schema.files.toList.flatMap parts ++ parts file := by
    rw [Array.toList_push, List.flatMap_append, List.flatMap_singleton]
  constructor
  case messages =>
    rw [extend, hloose]
    exact h.messages.append_array hnew.messages
  case enums =>
    rw [extend, hloose]
    exact h.enums.append_array hnew.enums
  case extensions =>
    rw [extend, hloose]
    exact h.extensions.append_array (hsites ▸ hnew.extensions)
  case services =>
    rw [extend, hloose, List.map_append, h.services, hnew.services, size_append_list, List.range_eq_range',
      List.range_eq_range', ← List.range'_append_1, Nat.zero_add]
    rfl
  case before =>
    intro index message hmessage
    exact (getElem?_append_eq_some_iff.1 hmessage).elim h.before hnew.before

/-- `IsNested` holds of every schema of files. -/
theorem isNested_ofFiles {config : Config} {files : List FileDecl} {schema : Schema}
    (h : ofFiles config files = .ok schema) : schema.IsNested := by
  refine foldlM_preserves (fun schema decl next hschema hnext => ?_) isNested_empty h
  obtain ⟨rules, _, hadd⟩ := addFile_eq_ok_iff.1 hnext
  exact isNested_addDeclarations hschema hadd

namespace IsNested

variable {schema : Schema} (h : schema.IsNested)

include h

/-- `nestedTypes` in terms of `containingType`. -/
theorem mem_nestedTypes_iff {id : MessageId} (hid : id ∈ schema.messageIds) {inner : MessageId} :
    inner ∈ (schema.message id).nestedTypes ↔
      ∃ node, schema.messages[inner.index]? = some node ∧ node.containingType = some id := by
  have hindex : inner ∈ (schema.message id).nestedTypes ↔
      inner.index ∈ (schema.message id).nestedTypes.map (·.index) :=
    (List.mem_map_of_injective fun _ _ => MessageId.ext).symm
  rw [hindex, h.messages.mem_parts_iff (getElem?_of_mem_messageIds hid)]
  refine exists_congr fun node => and_congr_right fun _ => ?_
  rw [Option.some.injEq]
  exact (Option.map_injective fun _ _ => MessageId.ext).eq_iff' rfl

theorem nodup_nestedTypes {id : MessageId} (hid : id ∈ schema.messageIds) :
    (schema.message id).nestedTypes.Nodup :=
  .of_map _ (h.messages.nodup_parts (getElem?_of_mem_messageIds hid))

end IsNested

end Schema

end SchemaLayout
