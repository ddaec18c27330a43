import SchemaLayout.Proofs.Schema.Assembly

/-!
# Where messages come from

Every message of a schema was made of one declaration. Numbering gave the head of the message a place of
its own to start from (`Numbering.Site`), and however many messages and files come before and behind it,
the schema has under the numbers from there on what numbering and linking made of the declaration, all of
whose conditions hold (`exists_originatesAt`). So what is true of the parts of a message can be read off
a single declaration.
-/

namespace SchemaLayout

/-- `takeAll` checks all conditions. -/
theorem Registration.condition_of_takeAll {steps : List Registration} {directory next : Directory}
    (h : takeAll steps directory = .ok next) {condition : Bool} {fault : Fault}
    (hstep : .require condition fault ∈ steps) : condition = true := by
  induction steps generalizing directory with
  | nil => exact absurd hstep List.not_mem_nil
  | cons step rest ih =>
    rw [takeAll, List.foldlM_cons, except_bind_eq_ok_iff] at h
    obtain ⟨middle, htake, hrest⟩ := h
    rcases List.mem_cons.1 hstep with rfl | hstep
    · exact (take_require_eq_ok_iff.1 htake).1
    · exact ih hrest hstep

namespace Numbering

/-! ## Pieces of additions -/

/-- Fields, oneofs and steps of a piece whose numbers begin at `start` are those of the whole, whose numbers
begin at `first`. -/
structure IsPieceOf (start : Counts) (piece : Additions) (first : Counts) (whole : Additions) :
    Prop where
  fields : ∀ {index : Nat} {draft : FieldDraft}, numbered? start.fields piece.fields index = some draft →
    numbered? first.fields whole.fields index = some draft
  oneofs : ∀ {index : Nat} {oneof : OneofNode}, numbered? start.oneofs piece.oneofs index = some oneof →
    numbered? first.oneofs whole.oneofs index = some oneof
  steps : ∀ step ∈ piece.steps, step ∈ whole.steps

section

variable {start first : Counts} {piece whole other : Additions}

theorem IsPieceOf.refl (start : Counts) (piece : Additions) : IsPieceOf start piece start piece :=
  ⟨fun h => h, fun h => h, fun _ h => h⟩

theorem IsPieceOf.append_left (h : IsPieceOf start piece first whole) :
    IsPieceOf start piece first (whole ++ other) where
  fields hdraft := numbered?_append.2 (Or.inl (h.fields hdraft))
  oneofs honeof := numbered?_append.2 (Or.inl (h.oneofs honeof))
  steps step hstep := List.mem_append_left _ (h.steps step hstep)

theorem IsPieceOf.append_right (h : IsPieceOf start piece (first + other.counts) whole) :
    IsPieceOf start piece first (other ++ whole) where
  fields hdraft := numbered?_append.2 (Or.inr (h.fields hdraft))
  oneofs honeof := numbered?_append.2 (Or.inr (h.oneofs honeof))
  steps step hstep := List.mem_append_right _ (h.steps step hstep)

end

/-! ## Sites -/

/-- The arguments of `Numbering.head` for a message. -/
structure Site where
  context : Context
  start : Counts
  container : Option MessageId
  fullName : String
  features : Features
  nestedTypes : List MessageId
  enums : List EnumId
  extensions : List FieldId
  decl : MessageDecl

/-- `Numbering.head` at a site. -/
def Site.head (site : Site) : Additions :=
  Numbering.head site.context site.start site.container site.fullName site.features site.nestedTypes
    site.enums site.extensions site.decl

/-- Every message among additions has a site, whose `head` is a piece of them. -/
theorem Built.exists_site {context : Context} {start : Counts} {additions : Additions}
    (h : Built context start additions) {index : Nat} {message : MessageNode}
    (hmessage : numbered? start.messages additions.messages index = some message) :
    ∃ site : Site, site.head.messages = [message] ∧
      IsPieceOf site.start site.head start additions := by
  induction h with
  | nothing start => simp at hmessage
  | head start container fullName features nestedTypes enums extensions decl =>
    obtain ⟨_, rfl⟩ := eq_of_numbered?_singleton hmessage
    exact ⟨⟨context, start, container, fullName, features, nestedTypes, enums, extensions, decl⟩,
      rfl, .refl _ _⟩
  | enum start container scope inherited decl => simp [Numbering.enum] at hmessage
  | service start scope inherited decl => simp [Numbering.service] at hmessage
  | extensions start declaredIn scope inherited decls =>
    simp [Numbering.extensions] at hmessage
  | append _ _ ihfirst ihsecond =>
    rcases numbered?_append.1 hmessage with hmessage | hmessage
    · obtain ⟨site, hhead, hpiece⟩ := ihfirst hmessage
      exact ⟨site, hhead, hpiece.append_left⟩
    · obtain ⟨site, hhead, hpiece⟩ := ihsecond hmessage
      exact ⟨site, hhead, hpiece.append_right⟩

end Numbering

namespace Schema

/-! ## Origins of messages -/

/-- The schema has what became of the declaration at a site: the message itself, and from the numbers of
`site.start` on its fields, linked with the names of some directory, and its oneofs. All conditions on the
declaration hold. -/
structure OriginatesAt (schema : Schema) (message : MessageNode) (site : Numbering.Site) : Prop where
  message : site.head.messages = [message]
  fields : ∀ {place : Nat} {draft : FieldDraft}, site.head.fields[place]? = some draft →
    ∃ linking field, schema.fields[site.start.fields + place]? = some field ∧
      Linking.field linking draft = .ok field
  oneofs : ∀ {place : Nat} {oneof : OneofNode}, site.head.oneofs[place]? = some oneof →
    schema.oneofs[site.start.oneofs + place]? = some oneof
  conditions : ∀ {condition : Bool} {fault : Fault},
    .require condition fault ∈ site.head.steps → condition = true

/-- `OriginatesAt` stays true in a larger schema. -/
theorem OriginatesAt.of_isPartOf {before after : Schema} {message : MessageNode}
    {site : Numbering.Site} (h : before.OriginatesAt message site) (hpart : before.IsPartOf after) :
    after.OriginatesAt message site where
  message := h.message
  fields hdraft := by
    obtain ⟨linking, field, hfield, hlink⟩ := h.fields hdraft
    exact ⟨linking, field, hpart.fields hfield, hlink⟩
  oneofs honeof := hpart.oneofs (h.oneofs honeof)
  conditions := h.conditions

theorem condition_of_register {schema : Schema} {name : String} {steps : List Registration}
    {directory : Directory} (h : schema.register name steps = .ok directory) {condition : Bool}
    {fault : Fault} (hstep : .require condition fault ∈ steps) : condition = true := by
  rw [register] at h
  split at h
  · cases h
  · exact Registration.condition_of_takeAll h hstep

/-- `addDeclarations` keeps `OriginatesAt`, and gives new messages a site. -/
theorem originatesAt_addDeclarations {schema next : Schema} {rules : FeatureRules} {decl : FileDecl}
    (h : ∀ message ∈ schema.messages, ∃ site, schema.OriginatesAt message site)
    (hadd : schema.addDeclarations rules decl = .ok next) :
    ∀ message ∈ next.messages, ∃ site, next.OriginatesAt message site := by
  obtain ⟨directory, dependencies, fields, methods, hregister, _, hfields, _, rfl⟩ :=
    addDeclarations_eq_ok_iff.1 hadd
  intro message hmessage
  obtain ⟨index, hmessage⟩ := Array.mem_iff_getElem?.1 hmessage
  rcases getElem?_append_eq_some_iff.1 hmessage with hold | hnew
  · obtain ⟨site, hsite⟩ := h message (Array.mem_of_getElem? hold)
    exact ⟨site, hsite.of_isPartOf (isPartOf_extend _ _ _ _ _ _)⟩
  · -- A new message has its site in the file, and what is a piece of the additions is in the schema.
    have hbuilt := Numbering.built_file ⟨rules, ⟨schema.files.size⟩⟩ schema.counts decl
    obtain ⟨site, hhead, hpiece⟩ := hbuilt.exists_site hnew
    refine ⟨site, hhead, fun {place draft} hdraft => ?_, fun {place oneof} honeof => ?_, ?_⟩
    · have hnumber := hpiece.fields ((numbered?_add place _).trans hdraft)
      obtain ⟨field, hfield, hlink⟩ := exists_numbered?_of_mapM hfields hnumber
      exact ⟨_, field, getElem?_append_eq_some_iff.2 (Or.inr hfield), hlink⟩
    · have hnumber := hpiece.oneofs ((numbered?_add place _).trans honeof)
      exact getElem?_append_eq_some_iff.2 (Or.inr hnumber)
    · intro condition fault hstep
      exact condition_of_register hregister (hpiece.steps _ hstep)

/-- Every message of a schema of files `OriginatesAt` a site. -/
theorem exists_originatesAt {config : Config} {files : List FileDecl} {schema : Schema}
    (h : ofFiles config files = .ok schema) {id : MessageId} (hid : id ∈ schema.messageIds) :
    ∃ site, schema.OriginatesAt (schema.message id) site := by
  have hall : ∀ message ∈ schema.messages, ∃ site, schema.OriginatesAt message site := by
    refine foldlM_preserves (P := fun schema : Schema =>
      ∀ message ∈ schema.messages, ∃ site, schema.OriginatesAt message site)
      (fun schema decl next hschema hnext => ?_) (by simp [empty]) h
    obtain ⟨rules, _, hadd⟩ := addFile_eq_ok_iff.1 hnext
    exact originatesAt_addDeclarations hschema hadd
  exact hall _ (Array.mem_of_getElem? (getElem?_of_mem_messageIds hid))

end Schema

end SchemaLayout
