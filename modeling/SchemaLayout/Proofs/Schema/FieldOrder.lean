import SchemaLayout.Proofs.Schema.Members
import SchemaLayout.Proofs.Schema.Ownership

/-!
# Fields in another order

Two files may differ only in the order in which the messages in them declare their fields (`FileDecl.Reordered`).
Then either both can be added to a schema or none of them can, and what they add differs only in the order of
the fields and in what is told by their numbers (`Schema.Reordered`): the same fields with the same references
belong to the same messages and oneofs. The files are gone through side by side, as numbering goes through each
of them.
-/

namespace SchemaLayout

/-! ## Declarations -/

mutual

/-- The messages declare the same, but the fields, there and in `nestedType`, maybe in another order. -/
inductive MessageDecl.Reordered : MessageDecl → MessageDecl → Prop
  | mk (decl : MessageDecl) {field : List FieldDecl} {nestedType : List MessageDecl} :
    field.Perm decl.field → MessageDecl.AllReordered decl.nestedType nestedType →
      MessageDecl.Reordered decl { decl with field, nestedType }

/-- The messages are `Reordered` one by one. -/
inductive MessageDecl.AllReordered : List MessageDecl → List MessageDecl → Prop
  | nil : MessageDecl.AllReordered [] []
  | cons {decl other : MessageDecl} {rest others : List MessageDecl} :
    MessageDecl.Reordered decl other → MessageDecl.AllReordered rest others →
      MessageDecl.AllReordered (decl :: rest) (other :: others)

end

/-- The files declare the same, but the fields of messages maybe in another order. -/
inductive FileDecl.Reordered : FileDecl → FileDecl → Prop
  | mk (decl : FileDecl) {messageType : List MessageDecl} :
    MessageDecl.AllReordered decl.messageType messageType →
      FileDecl.Reordered decl { decl with messageType }

namespace MessageDecl

mutual

theorem Reordered.symm {decl other : MessageDecl} (h : decl.Reordered other) : other.Reordered decl := by
  match decl with
  | ⟨_, _, _, nestedType, _, _, _, _, _, _⟩ =>
    cases h with
    | mk _ hfields hnested => exact .mk _ hfields.symm hnested.symm

theorem AllReordered.symm {decls others : List MessageDecl} (h : AllReordered decls others) :
    AllReordered others decls := by
  match decls with
  | [] =>
    cases h
    exact .nil
  | decl :: rest =>
    cases h with
    | cons hfirst hrest => exact .cons hfirst.symm hrest.symm

end

end MessageDecl

theorem FileDecl.Reordered.symm {decl other : FileDecl} (h : decl.Reordered other) : other.Reordered decl := by
  cases h with
  | mk hmessages => exact .mk _ hmessages.symm

/-! ## Registration -/

/-- Sorted lists of the same numbers are the same. -/
theorem mergeSort_eq_of_perm {numbers others : List Int32} (h : others.Perm numbers) :
    others.mergeSort (· ≤ ·) = numbers.mergeSort (· ≤ ·) := by
  refine List.Perm.eq_of_pairwise (fun a b _ _ hab hba => Int32.le_antisymm hab hba)
    (pairwise_le_mergeSort others) (pairwise_le_mergeSort numbers) ?_
  exact (List.mergeSort_perm _ _).trans (h.trans (List.mergeSort_perm _ _).symm)

namespace MessageDecl

variable {decl : MessageDecl} {field : List FieldDecl} {nestedType : List MessageDecl}
  (h : field.Perm decl.field)

include h

/-- `isSynthetic` does not depend on the order of fields. -/
theorem isSynthetic_of_perm (place : Nat) :
    ({ decl with field, nestedType } : MessageDecl).isSynthetic place = decl.isSynthetic place := by
  have hmembers := h.filter fun member => member.oneofIndex = some (Int32.ofNat place)
  simp only [isSynthetic]
  generalize field.filter (fun member => member.oneofIndex = some (Int32.ofNat place)) = others
    at hmembers
  generalize decl.field.filter (fun member => member.oneofIndex = some (Int32.ofNat place)) = members
    at hmembers
  -- A oneof is made up only if it has a single member, and a single member stays where it is.
  obtain _ | ⟨member, _ | ⟨second, rest⟩⟩ := members
  · rw [hmembers.eq_nil]
  · rw [List.perm_singleton.1 hmembers]
  · obtain _ | ⟨other, _ | ⟨next, more⟩⟩ := others
    · exact absurd hmembers.length_eq (by simp)
    · exact absurd hmembers.length_eq (by simp)
    · rfl

theorem synthetic_of_perm :
    ({ decl with field, nestedType } : MessageDecl).synthetic = decl.synthetic :=
  List.map_congr_left fun place _ => isSynthetic_of_perm h place

/-- `repeatedNumber?` finds the same number in any order of fields. -/
theorem repeatedNumber?_of_perm :
    ({ decl with field, nestedType } : MessageDecl).repeatedNumber? = decl.repeatedNumber? := by
  simp only [repeatedNumber?]
  rw [mergeSort_eq_of_perm (h.map _)]

end MessageDecl

namespace Registration

/-- Where `takeAll` takes the steps, it takes the others to the same directory. -/
def Implies (steps others : List Registration) : Prop :=
  ∀ directory next, takeAll steps directory = .ok next → takeAll others directory = .ok next

theorem Implies.refl (steps : List Registration) : Implies steps steps :=
  fun _ _ h => h

theorem Implies.append {steps others moreSteps moreOthers : List Registration} (h : Implies steps others)
    (hmore : Implies moreSteps moreOthers) : Implies (steps ++ moreSteps) (others ++ moreOthers) := by
  intro directory next hnext
  rw [takeAll, List.foldlM_append, except_bind_eq_ok_iff] at hnext ⊢
  obtain ⟨middle, hfirst, hlast⟩ := hnext
  exact ⟨middle, h _ _ hfirst, hmore _ _ hlast⟩

/-- `takeAll` for conditions, which leave the directory as it is. -/
theorem takeAll_conditions_iff {steps : List Registration} (h : ∀ step ∈ steps, step.entry? = none)
    {directory next : Directory} : takeAll steps directory = .ok next ↔
      (∀ step ∈ steps, step.holds = true) ∧ next = directory := by
  induction steps with
  | nil =>
    exact ⟨fun hnext => ⟨List.forall_mem_nil _, (Except.ok.inj hnext).symm⟩,
      fun hnext => congrArg Except.ok hnext.2.symm⟩
  | cons step rest ih =>
    obtain ⟨hstep, hrest⟩ := List.forall_mem_cons.1 h
    rw [takeAll, List.foldlM_cons, except_bind_eq_ok_iff, List.forall_mem_cons]
    cases step with
    -- Steps that enter a name are excluded.
    | enter key definition => cases hstep
    | require condition fault =>
      rw [and_assoc, ← ih hrest]
      constructor
      · intro hnext
        obtain ⟨middle, hmiddle, hlast⟩ := hnext
        obtain ⟨hcondition, rfl⟩ := take_require_eq_ok_iff.1 hmiddle
        exact ⟨hcondition, hlast⟩
      · intro hnext
        exact ⟨directory, take_require_eq_ok_iff.2 ⟨hnext.1, rfl⟩, hnext.2⟩

/-- Conditions can be checked in any order. -/
theorem implies_of_perm {steps others : List Registration} (h : ∀ step ∈ steps, step.entry? = none)
    (hperm : others.Perm steps) : Implies steps others := by
  intro directory next hnext
  have hothers (step : Registration) (hstep : step ∈ others) := hperm.mem_iff.1 hstep
  obtain ⟨hholds, hsame⟩ := (takeAll_conditions_iff h).1 hnext
  exact (takeAll_conditions_iff fun step hstep => h step (hothers step hstep)).2
    ⟨fun step hstep => hholds step (hothers step hstep), hsame⟩

/-- `ofField` consists of conditions. -/
theorem entry?_of_mem_ofField {scope : String} {count : Nat} {decl : FieldDecl} {step : Registration}
    (h : step ∈ ofField scope count decl) : step.entry? = none := by
  rw [ofField, ofOneofIndex] at h
  rcases List.mem_append.1 h with h | h
  · split at h
    · rw [List.mem_singleton.1 h]
      rfl
    · exact absurd h List.not_mem_nil
  · rw [List.mem_singleton.1 h]
    rfl

/-- The steps of `ofMessageHead` do not depend on the order of fields. -/
theorem implies_ofMessageHead (fullName : String) (id : MessageId) {decl : MessageDecl}
    {field : List FieldDecl} {nestedType : List MessageDecl} (h : field.Perm decl.field) :
    Implies (ofMessageHead fullName id decl)
      (ofMessageHead fullName id { decl with field, nestedType }) := by
  rw [ofMessageHead, ofMessageHead, MessageDecl.repeatedNumber?_of_perm h]
  refine Implies.append (Implies.append (.refl [_]) (implies_of_perm ?_ ?_)) (.refl _)
  · simp only [List.forall_mem_cons, List.mem_flatMap]
    refine ⟨rfl, rfl, fun step hstep => ?_⟩
    obtain ⟨member, _, hstep⟩ := hstep
    exact entry?_of_mem_ofField hstep
  · rw [MessageDecl.syntheticLast, MessageDecl.synthetic_of_perm h, h.length_eq]
    exact ((h.flatMap_right _).cons _).cons _

end Registration

/-! ## Numbering -/

/-- The messages are the same apart from `fieldsByNumber`. -/
def MessageNode.Alike (message other : MessageNode) : Prop :=
  other = { message with fieldsByNumber := other.fieldsByNumber }

/-- The oneofs are the same apart from the numbers of their members, `fields`. -/
def OneofNode.Alike (oneof other : OneofNode) : Prop :=
  other = { oneof with fields := other.fields }

theorem MessageNode.Alike.refl (message : MessageNode) : message.Alike message :=
  rfl

theorem OneofNode.Alike.refl (oneof : OneofNode) : oneof.Alike oneof :=
  rfl

/-- The additions are the same up to the order of fields. -/
structure Additions.Alike (first second : Additions) : Prop where
  messages : List.Forall₂ MessageNode.Alike first.messages second.messages
  fields : second.fields.Perm first.fields
  oneofs : List.Forall₂ OneofNode.Alike first.oneofs second.oneofs
  enums : second.enums = first.enums
  values : second.values = first.values
  services : second.services = first.services
  methods : second.methods = first.methods
  steps : Registration.Implies first.steps second.steps

namespace Additions.Alike

variable {first second : Additions}

theorem refl (additions : Additions) : additions.Alike additions where
  messages := List.forall₂_same.2 fun _ _ => .refl _
  fields := .refl _
  oneofs := List.forall₂_same.2 fun _ _ => .refl _
  enums := rfl
  values := rfl
  services := rfl
  methods := rfl
  steps := .refl _

theorem append {moreFirst moreSecond : Additions} (h : first.Alike second)
    (hmore : moreFirst.Alike moreSecond) : (first ++ moreFirst).Alike (second ++ moreSecond) where
  messages := List.rel_append h.messages hmore.messages
  fields := h.fields.append hmore.fields
  oneofs := List.rel_append h.oneofs hmore.oneofs
  enums := congrArg₂ _ h.enums hmore.enums
  values := congrArg₂ _ h.values hmore.values
  services := congrArg₂ _ h.services hmore.services
  methods := congrArg₂ _ h.methods hmore.methods
  steps := h.steps.append hmore.steps

theorem counts_eq (h : first.Alike second) : second.counts = first.counts := by
  rw [counts, counts, h.messages.length_eq, h.fields.length_eq, h.oneofs.length_eq, h.enums, h.values,
    h.services, h.methods]

end Additions.Alike

namespace Numbering

variable {context : Context}

section

variable (start : Counts) (fullName : String) (features : Features) {decl : MessageDecl}
  {field : List FieldDecl} {nestedType : List MessageDecl} (h : field.Perm decl.field)

include h

/-- The `oneofs` of a message are `Alike` in any order of its fields. -/
theorem alike_oneofs : List.Forall₂ OneofNode.Alike (oneofs context start fullName features decl)
    (oneofs context start fullName features { decl with field, nestedType }) := by
  rw [oneofs, oneofs, List.forall₂_map_left_iff, List.forall₂_map_right_iff, List.forall₂_same]
  intro entry _
  simp only [OneofNode.Alike, MessageDecl.isSynthetic_of_perm h]

/-- `isSynthetic` and the features of a oneof do not depend on the order of fields. -/
theorem map_getElem?_oneofs (place : Nat) :
    ((oneofs context start fullName features { decl with field, nestedType })[place]?).map
        (fun oneof => (oneof.isSynthetic, oneof.features)) =
      ((oneofs context start fullName features decl)[place]?).map
        (fun oneof => (oneof.isSynthetic, oneof.features)) := by
  have halike : List.Forall₂ OneofNode.Alike (oneofs context start fullName features decl)
      (oneofs context start fullName features { decl with field, nestedType }) :=
    alike_oneofs start fullName features h
  have hsame := map_eq_of_forall₂ (fun oneof => (oneof.isSynthetic, oneof.features))
    (fun oneof => (oneof.isSynthetic, oneof.features)) halike fun oneof _ other hother => by rw [hother]
  rw [← List.getElem?_map, hsame, List.getElem?_map]

theorem isReal_eq (place : Nat) :
    ((oneofs context start fullName features { decl with field, nestedType }).toArray[place]?).any
        (!·.isSynthetic) =
      ((oneofs context start fullName features decl).toArray[place]?).any (!·.isSynthetic) := by
  have hmap (oneof : Option OneofNode) : oneof.any (!·.isSynthetic) =
      (oneof.map fun oneof => (oneof.isSynthetic, oneof.features)).any (!·.1) := by
    cases oneof <;> rfl
  rw [List.getElem?_toArray, List.getElem?_toArray, hmap, hmap, map_getElem?_oneofs start fullName features h]

/-- The members of a oneof inherit the same features in any order. -/
theorem inherited_eq (place : Option Nat) :
    ((place.bind ((oneofs context start fullName features
      { decl with field, nestedType }).toArray[·]?)).filter (!·.isSynthetic)).elim features (·.features) =
    ((place.bind ((oneofs context start fullName features decl).toArray[·]?)).filter
      (!·.isSynthetic)).elim features (·.features) := by
  have hmap (oneof : Option OneofNode) : (oneof.filter (!·.isSynthetic)).elim features (·.features) =
      ((oneof.map fun oneof => (oneof.isSynthetic, oneof.features)).filter (!·.1)).elim features (·.2) := by
    cases oneof with
    | none => rfl
    | some oneof =>
      simp only [Option.map_some, Option.filter_some]
      cases oneof.isSynthetic <;> rfl
  cases place with
  | none => rfl
  | some place =>
    simp only [Option.bind_some, List.getElem?_toArray]
    rw [hmap, hmap, map_getElem?_oneofs start fullName features h]

/-- The `fields` of a message come in the order of the declaration. -/
theorem fields_perm :
    (fields context start fullName features (oneofs context start fullName features
        { decl with field, nestedType }).toArray { decl with field, nestedType }).Perm
      (fields context start fullName features (oneofs context start fullName features decl).toArray decl) := by
  have hsize : (oneofs context start fullName features { decl with field, nestedType }).toArray.size =
      (oneofs context start fullName features decl).toArray.size :=
    (alike_oneofs start fullName features h).length_eq.symm
  simp only [fields, hsize, inherited_eq start fullName features h, isReal_eq start fullName features h]
  exact h.map _

/-- The `head` of a message is `Alike` in any order of its fields. -/
theorem alike_head (container : Option MessageId) (nestedTypes : List MessageId) (enums : List EnumId)
    (extensions : List FieldId) :
    (head context start container fullName features nestedTypes enums extensions decl).Alike
      (head context start container fullName features nestedTypes enums extensions
        { decl with field, nestedType }) where
  messages := by
    refine .cons ?_ .nil
    have hcount : (oneofs context start fullName features { decl with field, nestedType }).length =
        (oneofs context start fullName features decl).length :=
      (alike_oneofs start fullName features h).length_eq.symm
    simp only [MessageNode.Alike, h.length_eq, hcount, MessageDecl.synthetic_of_perm h]
    rfl
  fields := fields_perm start fullName features h
  oneofs := alike_oneofs start fullName features h
  enums := rfl
  values := rfl
  services := rfl
  methods := rfl
  steps := Registration.implies_ofMessageHead fullName ⟨start.messages⟩ h

end

/-- `alike_message` if it holds of `decl.nestedType`. -/
theorem alike_message_of_nested (start : Counts) (container : Option MessageId) (scope : String)
    (inherited : Features) {decl : MessageDecl} {field : List FieldDecl} {nestedType : List MessageDecl}
    (hfields : field.Perm decl.field)
    (hnested : ∀ start container scope inherited,
      (messages context start container scope inherited nestedType).1 =
          (messages context start container scope inherited decl.nestedType).1 ∧
        (messages context start container scope inherited decl.nestedType).2.Alike
          (messages context start container scope inherited nestedType).2) :
    (message context start container scope inherited decl).Alike
      (message context start container scope inherited { decl with field, nestedType }) := by
  have hcounts : headCounts { decl with field, nestedType } = headCounts decl := by
    rw [headCounts, headCounts, hfields.length_eq]
  rw [message_eq, message_eq, hcounts]
  obtain ⟨hids, halike⟩ := hnested (start + headCounts decl) (some ⟨start.messages⟩)
    (Name.qualify scope decl.name) (context.rules.resolve (decl.options.bind (·.features)) inherited)
  simp only [hids, halike.counts_eq]
  exact (((alike_head start _ _ hfields _ _ _ _).append halike).append (.refl _)).append (.refl _)

mutual

/-- `Reordered` messages are numbered to additions that are `Alike`. -/
theorem alike_message (start : Counts) (container : Option MessageId) (scope : String) (inherited : Features)
    {decl other : MessageDecl} (h : decl.Reordered other) :
    (message context start container scope inherited decl).Alike
      (message context start container scope inherited other) := by
  match decl with
  | ⟨_, _, _, _, _, _, _, _, _, _⟩ =>
    cases h with
    | mk _ hfields hnested =>
      exact alike_message_of_nested start container scope inherited hfields fun _ _ _ _ =>
        alike_messages _ _ _ _ hnested

/-- `alike_message` for lists, whose messages get the same numbers. -/
theorem alike_messages (start : Counts) (container : Option MessageId) (scope : String) (inherited : Features)
    {decls others : List MessageDecl} (h : MessageDecl.AllReordered decls others) :
    (messages context start container scope inherited others).1 =
        (messages context start container scope inherited decls).1 ∧
      (messages context start container scope inherited decls).2.Alike
        (messages context start container scope inherited others).2 := by
  match decls with
  | [] =>
    cases h
    exact ⟨rfl, .refl _⟩
  | decl :: rest =>
    cases h with
    | cons hfirst hrest =>
      have halike := alike_message start container scope inherited hfirst
      rw [messages, messages, halike.counts_eq]
      obtain ⟨hids, hothers⟩ := alike_messages _ container scope inherited hrest
      exact ⟨congrArg (List.cons _) hids, halike.append hothers⟩

end

/-- `Reordered` files are numbered to the same file and to additions that are `Alike`. -/
theorem alike_file (start : Counts) {decl other : FileDecl} (h : decl.Reordered other) :
    (file context start other).1 = (file context start decl).1 ∧
      (file context start decl).2.Alike (file context start other).2 := by
  cases h with
  | mk hmessages =>
    obtain ⟨hids, halike⟩ := @alike_messages context start none decl.package
      (context.rules.resolve (decl.options.bind (·.features)) context.rules.defaults) _ _ hmessages
    simp only [file, hids, halike.counts_eq, true_and]
    exact ((halike.append (.refl _)).append (.refl _)).append (.refl _)

end Numbering

/-! ## Linking -/

namespace Linking

variable {messages others : Array MessageNode}
  (h : List.Forall₂ MessageNode.Alike messages.toList others.toList) (directory : Directory)

include h

/-- Messages with the same number are `Alike`. -/
theorem alike_message (id : MessageId) :
    (Context.message ⟨directory, messages⟩ id).Alike (Context.message ⟨directory, others⟩ id) := by
  rw [Context.message, Context.message, ← Array.getElem?_toList, ← Array.getElem?_toList]
  exact getD_of_forall₂ (.refl default) h id.index

/-- `Linking.field` asks of messages only what `Alike` ones have in common. -/
theorem field_eq_of_alike :
    Linking.field ⟨directory, others⟩ = Linking.field ⟨directory, messages⟩ := by
  apply field_congr
  intro id
  rw [alike_message h directory id]
  exact ⟨rfl, rfl, rfl, rfl⟩

end Linking

namespace Schema

/-! ## Schemas -/

/-- The schemas have the same elements and names, but fields maybe under other numbers. -/
structure Reordered (schema other : Schema) : Prop where
  files : other.files = schema.files
  messages : List.Forall₂ MessageNode.Alike schema.messages.toList other.messages.toList
  fields : other.fields.toList.Perm schema.fields.toList
  oneofs : List.Forall₂ OneofNode.Alike schema.oneofs.toList other.oneofs.toList
  enums : other.enums = schema.enums
  values : other.values = schema.values
  services : other.services = schema.services
  methods : other.methods = schema.methods
  directory : other.directory = schema.directory

theorem Reordered.refl (schema : Schema) : schema.Reordered schema where
  files := rfl
  messages := List.forall₂_same.2 fun _ _ => .refl _
  fields := .refl _
  oneofs := List.forall₂_same.2 fun _ _ => .refl _
  enums := rfl
  values := rfl
  services := rfl
  methods := rfl
  directory := rfl

theorem Reordered.counts_eq {schema other : Schema} (h : schema.Reordered other) :
    other.counts = schema.counts := by
  have hmessages := h.messages.length_eq
  have hfields := h.fields.length_eq
  have honeofs := h.oneofs.length_eq
  simp only [Array.length_toList] at hmessages hfields honeofs
  rw [counts, counts, hmessages, hfields, honeofs, h.enums, h.values, h.services, h.methods]

/-- If `register` takes the steps, it takes others that these imply. -/
theorem register_of_implies {schema other : Schema} (hfiles : other.files = schema.files)
    (hdirectory : other.directory = schema.directory) {name : String} {steps others : List Registration}
    (hsteps : Registration.Implies steps others) {directory : Directory}
    (h : schema.register name steps = .ok directory) : other.register name others = .ok directory := by
  rw [register, hfiles, hdirectory]
  rw [register] at h
  split at h
  · cases h
  · next hnew =>
    rw [if_neg hnew]
    exact hsteps _ _ h

section

variable {schema other : Schema} (h : schema.Reordered other) {first second : Additions}
  (halike : first.Alike second)

include h halike

/-- Adding messages that are `Alike` keeps them so. -/
theorem Reordered.messages_append : List.Forall₂ MessageNode.Alike
    (schema.messages ++ first.messages).toList (other.messages ++ second.messages).toList := by
  rw [Array.toList_appendList, Array.toList_appendList]
  exact List.rel_append h.messages halike.messages

/-- `extend` keeps schemas `Reordered` if what they get is `Alike`. -/
theorem Reordered.extend (directory : Directory) (file : FileNode) {fields otherFields : List FieldNode}
    (hfields : otherFields.Perm fields) (methods : List MethodNode) :
    (schema.extend directory file first fields methods).Reordered
      (other.extend directory file second otherFields methods) where
  files := congrArg (Array.push · file) h.files
  messages := h.messages_append halike
  fields := by
    simp only [Schema.extend, Array.toList_appendList]
    exact h.fields.append hfields
  oneofs := by
    simp only [Schema.extend, Array.toList_appendList]
    exact List.rel_append h.oneofs halike.oneofs
  enums := congrArg₂ (· ++ ·) h.enums halike.enums
  values := congrArg₂ (· ++ ·) h.values halike.values
  services := congrArg₂ (· ++ ·) h.services halike.services
  methods := by rw [Schema.extend, Schema.extend, h.methods]
  directory := rfl

end

/-- If a file can be added, so can a `Reordered` one. -/
theorem Reordered.exists_addDeclarations {schema other next : Schema} {rules : FeatureRules}
    {decl reordered : FileDecl} (h : schema.Reordered other) (hdecl : decl.Reordered reordered)
    (hadd : schema.addDeclarations rules decl = .ok next) :
    ∃ otherNext, other.addDeclarations rules reordered = .ok otherNext ∧ next.Reordered otherNext := by
  obtain ⟨directory, dependencies, fields, methods, hregister, hdependencies, hfields, hmethods, rfl⟩ :=
    addDeclarations_eq_ok_iff.1 hadd
  obtain ⟨hnode, halike⟩ := @Numbering.alike_file ⟨rules, ⟨schema.files.size⟩⟩ schema.counts _ _ hdecl
  have hname : reordered.name = decl.name := by
    cases hdecl
    rfl
  have himports : Linking.dependencies directory reordered = .ok dependencies := by
    cases hdecl
    exact hdependencies
  obtain ⟨otherFields, hothers, hperm⟩ := exists_mapM_of_perm hfields halike.fields
  refine ⟨_, addDeclarations_eq_ok_iff.2 ?_, h.extend halike directory _ hperm methods⟩
  rw [h.files, h.counts_eq, hname]
  -- Linking sees the same names, and messages that differ in nothing that it asks for.
  refine ⟨directory, dependencies, otherFields, methods,
    register_of_implies h.files h.directory halike.steps hregister, himports, ?_, ?_, by rw [hnode]⟩
  · rw [Linking.field_eq_of_alike (h.messages_append halike), hothers]
  · rw [halike.methods]
    exact hmethods

/-- `ofFiles` accepts `Reordered` files if it accepts the files. -/
theorem exists_ofFiles_of_reordered {config : Config} {files others : List FileDecl} {schema : Schema}
    (hfiles : List.Forall₂ FileDecl.Reordered files others) (h : ofFiles config files = .ok schema) :
    ∃ other, ofFiles config others = .ok other ∧ schema.Reordered other := by
  refine exists_foldlM_of_forall₂ (fun before after decl reordered next hbefore hdecl hnext => ?_) hfiles
    (.refl empty) h
  obtain ⟨rules, hrules, hadd⟩ := addFile_eq_ok_iff.1 hnext
  obtain ⟨otherNext, hother, hrelated⟩ := hbefore.exists_addDeclarations hdecl hadd
  have hlevel : reordered.level = decl.level := by
    cases hdecl
    rfl
  exact ⟨otherNext, addFile_eq_ok_iff.2 ⟨rules, hlevel ▸ hrules, hother⟩, hrelated⟩

end Schema

end SchemaLayout
