import Mathlib.Data.List.Nodup
import SchemaLayout.Proofs.Schema.Origin

/-!
# Fields and oneofs of messages

What registration and numbering together make sure of in every message of a schema. Sorting the fields
puts them into strictly ascending order (`pairwise_fieldsByNumber`), because no number is used twice. The
oneofs that were written are those that were not made up (`realOneofs_eq_filter`), because none of the
written ones comes after one that was made up, and the oneof of a field is one of its message
(`mem_oneofs_of_mem_fieldsOf`).
-/

namespace SchemaLayout

/-! ## Conditions on declarations -/

theorem pairwise_le_mergeSort (numbers : List Int32) :
    (numbers.mergeSort (· ≤ ·)).Pairwise (· ≤ ·) := by
  have hsorted := @List.pairwise_mergeSort Int32 (fun a b => a ≤ b)
    (fun a b c hab hbc => decide_eq_true
      (Int32.le_trans (of_decide_eq_true hab) (of_decide_eq_true hbc)))
    (fun a b => by simpa using Int32.le_total a b) numbers
  exact hsorted.imp of_decide_eq_true

/-- Sorted numbers of which no two neighbours are the same are strictly ascending. -/
theorem pairwise_lt_of_zip_tail {numbers : List Int32} (hle : numbers.Pairwise (· ≤ ·))
    (hne : ∀ pair ∈ numbers.zip numbers.tail, pair.1 ≠ pair.2) : numbers.Pairwise (· < ·) := by
  induction numbers with
  | nil => exact .nil
  | cons first rest ih =>
    cases rest with
    | nil => exact List.pairwise_singleton _ first
    | cons second rest =>
      obtain ⟨hfirst, hrest⟩ := List.pairwise_cons.1 hle
      obtain ⟨hneighbour, hothers⟩ := List.forall_mem_cons.1 hne
      have hlt : first < second := Int32.lt_of_le_of_ne (hfirst second List.mem_cons_self) hneighbour
      have hlater := ih hrest hothers
      refine List.pairwise_cons.2 ⟨List.forall_mem_cons.2 ⟨hlt, fun later hmem => ?_⟩, hlater⟩
      exact Int32.lt_trans hlt ((List.pairwise_cons.1 hlater).1 later hmem)

/-- If all flags from the first one on that is set are set, the elements whose `flag` is not set come first. -/
theorem take_count_false_eq_filter {α : Type} {flag : α → Bool} {list : List α}
    (h : ((list.map flag).dropWhile (!·)).all id = true) :
    list.take ((list.map flag).count false) = list.filter fun a => !flag a := by
  induction list with
  | nil => rfl
  | cons a rest ih =>
    cases hflag : flag a with
    -- From here on all flags are set, so nothing is left to take.
    | true =>
      have hall : ∀ b ∈ a :: rest, flag b = true := by
        simpa [hflag] using h
      have hcount : ((a :: rest).map flag).count false = 0 := by
        refine List.count_eq_zero.2 fun hmem => ?_
        obtain ⟨b, hb, hunset⟩ := List.mem_map.1 hmem
        exact Bool.false_ne_true (hunset.symm.trans (hall b hb))
      rw [hcount, List.take_zero, eq_comm, List.filter_eq_nil_iff]
      intro b hb
      rw [hall b hb]
      exact Bool.false_ne_true
    | false =>
      have hrest : ((rest.map flag).dropWhile (!·)).all id = true := by
        simpa [hflag] using h
      rw [List.map_cons, hflag, List.count_cons_self, List.take_succ_cons, ih hrest,
        List.filter_cons_of_pos (by rw [hflag]; rfl)]

/-- Without a `repeatedNumber?`, the sorted numbers are strictly ascending. -/
theorem MessageDecl.pairwise_lt_of_repeatedNumber? {decl : MessageDecl}
    (h : decl.repeatedNumber? = none) :
    ((decl.field.map (·.number)).mergeSort (· ≤ ·)).Pairwise (· < ·) := by
  rw [repeatedNumber?, Option.map_eq_none_iff, List.find?_eq_none] at h
  refine pairwise_lt_of_zip_tail (pairwise_le_mergeSort _) fun pair hpair => ?_
  simpa using h pair hpair

/-- Strictly ascending numbers have no `repeatedNumber?`. -/
theorem MessageDecl.repeatedNumber?_eq_none_of_pairwise_lt {decl : MessageDecl}
    (h : (decl.field.map (·.number)).Pairwise (· < ·)) : decl.repeatedNumber? = none := by
  have hsorted : (decl.field.map (·.number)).mergeSort (· ≤ ·) = decl.field.map (·.number) :=
    List.mergeSort_of_pairwise (h.imp fun hlt => decide_eq_true (Int32.le_of_lt hlt))
  simp only [repeatedNumber?, hsorted, Option.map_eq_none_iff, List.find?_eq_none]
  intro pair hpair hsame
  obtain ⟨place, hplace⟩ := List.mem_iff_getElem?.1 hpair
  rw [List.getElem?_zip_eq_some, List.getElem?_tail] at hplace
  obtain ⟨hfirst, hnumber⟩ := List.getElem?_eq_some_iff.1 hplace.1
  obtain ⟨hsecond, hnext⟩ := List.getElem?_eq_some_iff.1 hplace.2
  have hlt := List.pairwise_iff_getElem.1 h place (place + 1) hfirst hsecond (Nat.lt_succ_self _)
  rw [hnumber, hnext, of_decide_eq_true hsame] at hlt
  exact Int32.lt_irrefl hlt

/-- `oneofPlace?` in terms of `oneofIndex`, if this names a oneof of the message. -/
theorem FieldDecl.oneofPlace?_eq_some_iff {decl : FieldDecl} {count place : Nat}
    (hplace : place < Int32.size) (hvalid : decl.oneofIndex.isSome → (decl.oneofPlace? count).isSome) :
    decl.oneofPlace? count = some place ↔ decl.oneofIndex = some (Int32.ofNat place) := by
  rw [oneofPlace?] at *
  cases hindex : decl.oneofIndex with
  | none => simp
  | some index =>
    rw [hindex] at hvalid
    simp only [Option.bind_some] at *
    -- A place outside of the list was refused.
    have hrange : 0 ≤ index.toInt ∧ index.toInt < count := by
      by_contra hout
      rw [if_neg hout] at hvalid
      exact Bool.false_ne_true (hvalid rfl)
    have hlt := Int32.toInt_lt index
    rw [if_pos hrange, Option.some.injEq, Option.some.injEq, ← Int32.toInt_inj, Int32.toInt_ofNat',
      Int.bmod_def]
    simp only [Int32.size] at hplace ⊢
    omega

/-! ## Fields and their declarations -/

/-- What a field has of its declaration in the message at a site. -/
structure Numbering.Site.Declares (site : Site) (decl : FieldDecl) (field : FieldNode) : Prop where
  number : field.number = decl.number
  proto3Optional : field.proto3Optional = decl.proto3Optional
  oneof : field.oneof = (decl.oneofPlace? site.decl.oneofDecl.length).map fun place =>
    ⟨site.start.oneofs + place⟩
  /-- Only what refers to a message is a group that was declared together with its message. -/
  group : field.isGroupLike = true → ∃ target, field.messageType? = some target
  /-- Only messages are the entries of a map. -/
  map : field.isMap = true → field.type = .message

/-- `Linking.field` gives a field that satisfies `Declares`. -/
theorem Numbering.Site.declares_of_link {site : Site} {decl : FieldDecl} {field : FieldNode}
    {linking : Linking.Context} {inherited : Features} {realOneof : Option OneofId}
    (h : Linking.field linking (Numbering.field site.context (some ⟨site.start.messages⟩)
      site.fullName inherited false ((decl.oneofPlace? site.decl.oneofDecl.length).map fun place =>
        ⟨site.start.oneofs + place⟩) realOneof decl) = .ok field) : site.Declares decl field := by
  obtain ⟨container, found, _, _, rfl⟩ := Linking.field_eq_ok_iff.1 h
  refine ⟨rfl, rfl, rfl, fun hgroup => ?_, fun hmap => ?_⟩
  · simp only [Linking.linked, Linking.isGroupLike] at hgroup
    split at hgroup
    · next target _ htarget => exact ⟨target, by simp only [FieldNode.messageType?, Linking.linked, htarget]⟩
    · cases hgroup
  · simp only [Linking.linked, Linking.isMap] at hmap ⊢
    split at hmap
    · next hmessage => exact hmessage
    · cases hmap

namespace Schema.OriginatesAt

variable {schema : Schema} {id : MessageId} {site : Numbering.Site}
  (h : schema.OriginatesAt (schema.message id) site)

include h

/-! ## The parts of a message -/

/-- The fields of a message have the numbers from `site.start.fields` on. -/
theorem fields_eq : (schema.message id).fields =
    Numbering.fieldIds site.start.fields site.decl.field.length :=
  (congrArg MessageNode.fields (List.cons.inj h.message).1).symm

theorem fieldsByNumber_eq : (schema.message id).fieldsByNumber =
    Numbering.idsByNumber site.start site.decl :=
  (congrArg MessageNode.fieldsByNumber (List.cons.inj h.message).1).symm

/-- The oneofs of a message have the numbers from `site.start.oneofs` on. -/
theorem oneofs_eq : (schema.message id).oneofs =
    (List.range' site.start.oneofs site.decl.oneofDecl.length).map .mk := by
  have hlength : (Numbering.oneofs site.context site.start site.fullName site.features
      site.decl).length = site.decl.oneofDecl.length := by
    rw [Numbering.oneofs, List.length_map, List.length_zipIdx]
  rw [← hlength]
  exact (congrArg MessageNode.oneofs (List.cons.inj h.message).1).symm

theorem realOneofCount_eq : (schema.message id).realOneofCount = site.decl.synthetic.count false :=
  (congrArg MessageNode.realOneofCount (List.cons.inj h.message).1).symm

/-- The field at a place satisfies `Declares`. -/
theorem exists_field {place : Nat} {decl : FieldDecl} (hdecl : site.decl.field[place]? = some decl) :
    ∃ field, schema.fields[site.start.fields + place]? = some field ∧ site.Declares decl field := by
  have hdraft : site.head.fields[place]? = some _ :=
    (List.getElem?_map ..).trans (congrArg (Option.map _) hdecl)
  obtain ⟨linking, field, hfield, hlink⟩ := h.fields hdraft
  have hsize : (Numbering.oneofs site.context site.start site.fullName site.features
      site.decl).toArray.size = site.decl.oneofDecl.length := by
    simp [Numbering.oneofs]
  rw [hsize] at hlink
  exact ⟨field, hfield, Numbering.Site.declares_of_link hlink⟩

/-! ## Numbers of fields -/

/-- Fields satisfy `Declares` with the declarations beside them. -/
theorem declares_of_mem_zip {entry : FieldDecl × FieldId}
    (hentry : entry ∈ site.decl.field.zip
      (Numbering.fieldIds site.start.fields site.decl.field.length)) :
    site.Declares entry.1 (schema.field entry.2) := by
  obtain ⟨place, hplace⟩ := List.mem_iff_getElem?.1 hentry
  obtain ⟨hdecl, hid⟩ := List.getElem?_zip_eq_some.1 hplace
  obtain ⟨field, hfield, hdeclares⟩ := h.exists_field hdecl
  have hindex : entry.2 = ⟨site.start.fields + place⟩ := by
    rw [Numbering.fieldIds, List.getElem?_map, Option.map_eq_some_iff] at hid
    obtain ⟨index, hindex, hid⟩ := hid
    obtain ⟨_, rfl⟩ := List.getElem?_eq_some_iff.1 hindex
    rw [← hid, List.getElem_range', Nat.one_mul]
  rw [hindex, field_of_getElem? hfield]
  exact hdeclares

/-- `fieldsByNumber` have the sorted numbers of the declarations. -/
theorem map_number_fieldsByNumber : (schema.fieldsByNumber id).map (·.number) =
    (site.decl.field.map (·.number)).mergeSort (· ≤ ·) := by
  have hlength : site.decl.field.length ≤
      (Numbering.fieldIds site.start.fields site.decl.field.length).length := by
    simp [Numbering.fieldIds]
  have hdecls := List.map_fst_zip hlength
  have hnumbers : site.decl.field.map (·.number) = (site.decl.field.zip
      (Numbering.fieldIds site.start.fields site.decl.field.length)).map (·.1.number) := by
    conv => lhs; rw [← hdecls, List.map_map]
    rfl
  have hsort := List.map_mergeSort (r := fun a b : FieldDecl × FieldId => a.1.number ≤ b.1.number)
    (s := fun a b : Int32 => a ≤ b) (f := fun entry => entry.1.number)
    (l := site.decl.field.zip (Numbering.fieldIds site.start.fields site.decl.field.length))
    fun _ _ _ _ => rfl
  rw [fieldsByNumber, h.fieldsByNumber_eq, Numbering.idsByNumber, List.map_map, List.map_map,
    hnumbers, ← hsort]
  exact List.map_congr_left fun entry hentry =>
    (h.declares_of_mem_zip (List.mem_mergeSort.1 hentry)).number

theorem repeatedNumber?_eq_none : site.decl.repeatedNumber? = none := by
  cases hrepeated : site.decl.repeatedNumber? with
  | none => rfl
  | some number =>
    have hstep : .require false (.repeatedNumber site.fullName number) ∈ site.head.steps := by
      refine List.mem_append_right _ ?_
      rw [hrepeated]
      exact List.mem_cons_self
    exact absurd (h.conditions hstep) Bool.false_ne_true

/-- All declared numbers satisfy `isFieldNumber`, as a condition says so. -/
theorem isFieldNumber_of_mem {decl : FieldDecl} (hdecl : decl ∈ site.decl.field) :
    isFieldNumber decl.number = true := by
  have hstep : .require (isFieldNumber decl.number)
      (.fieldNumber (Name.qualify site.fullName decl.name) decl.number) ∈ site.head.steps := by
    refine List.mem_append_left _ ?_
    refine List.mem_cons_of_mem _ (List.mem_cons_of_mem _ (List.mem_cons_of_mem _ ?_))
    exact List.mem_flatMap.2 ⟨decl, hdecl, List.mem_append_right _ List.mem_cons_self⟩
  exact h.conditions hstep

theorem syntheticLast : site.decl.syntheticLast = true := by
  have hstep : .require site.decl.syntheticLast (.realOneofAfterSynthetic site.fullName) ∈
      site.head.steps :=
    List.mem_append_left _ (List.mem_cons_of_mem _ (List.mem_cons_of_mem _ List.mem_cons_self))
  exact h.conditions hstep

/-! ## Oneofs -/

/-- What a schema has of the oneof at a place. -/
theorem exists_oneof {place : Nat} (hplace : place < site.decl.oneofDecl.length) :
    ∃ oneof, schema.oneofs[site.start.oneofs + place]? = some oneof ∧
      oneof.isSynthetic = site.decl.isSynthetic place ∧
      oneof.fields = ((site.decl.field.zip
        (Numbering.fieldIds site.start.fields site.decl.field.length)).filter fun entry =>
          entry.1.oneofPlace? site.decl.oneofDecl.length = some place).map (·.2) := by
  have hnode : site.head.oneofs[place]? = some _ :=
    (List.getElem?_map ..).trans (congrArg (Option.map _)
      ((List.getElem?_zipIdx ..).trans (congrArg (Option.map _) (List.getElem?_eq_getElem hplace))))
  rw [Nat.zero_add] at hnode
  exact ⟨_, h.oneofs hnode, rfl, rfl⟩

theorem isSynthetic_oneof {place : Nat} (hplace : place < site.decl.oneofDecl.length) :
    (schema.oneof ⟨site.start.oneofs + place⟩).isSynthetic = site.decl.isSynthetic place := by
  obtain ⟨oneof, honeof, hsynthetic, _⟩ := h.exists_oneof hplace
  rw [oneof_of_getElem? honeof, hsynthetic]

/-- If a field names a oneof, it is one of the message. -/
theorem oneofPlace?_of_mem {decl : FieldDecl} (hdecl : decl ∈ site.decl.field)
    (hindex : decl.oneofIndex.isSome) : (decl.oneofPlace? site.decl.oneofDecl.length).isSome := by
  obtain ⟨index, hindex⟩ := Option.isSome_iff_exists.1 hindex
  have hstep : .require (decl.oneofPlace? site.decl.oneofDecl.length).isSome
      (.oneofIndex decl.name index site.decl.oneofDecl.length) ∈ site.head.steps := by
    refine List.mem_append_left _ ?_
    refine List.mem_cons_of_mem _ (List.mem_cons_of_mem _ (List.mem_cons_of_mem _ ?_))
    refine List.mem_flatMap.2 ⟨decl, hdecl, List.mem_append_left _ ?_⟩
    rw [Registration.ofOneofIndex, hindex]
    exact List.mem_cons_self
  exact h.conditions hstep

/-- `isSynthetic` for a oneof iff it has a single member, with `proto3Optional`. -/
theorem isSynthetic_iff {place : Nat} (hplace : place < site.decl.oneofDecl.length)
    (hsmall : place < Int32.size) :
    (schema.oneof ⟨site.start.oneofs + place⟩).isSynthetic = true ↔
      ∃ member, (schema.oneof ⟨site.start.oneofs + place⟩).fields = [member] ∧
        (schema.field member).proto3Optional = true := by
  have hlength : site.decl.field.length ≤
      (Numbering.fieldIds site.start.fields site.decl.field.length).length := by
    simp [Numbering.fieldIds]
  -- A field is a member of the oneof at its place if it names the place.
  have hdecls : site.decl.field.filter (fun decl => decl.oneofIndex = some (Int32.ofNat place)) =
      ((site.decl.field.zip (Numbering.fieldIds site.start.fields site.decl.field.length)).filter fun entry =>
        entry.1.oneofPlace? site.decl.oneofDecl.length = some place).map (·.1) := by
    conv => lhs; rw [← List.map_fst_zip hlength, List.filter_map]
    refine congrArg (List.map _) (List.filter_congr fun entry hentry => ?_)
    have hvalid := h.oneofPlace?_of_mem (List.of_mem_zip hentry).1
    exact decide_eq_decide.2 (FieldDecl.oneofPlace?_eq_some_iff hsmall hvalid).symm
  have hoptional (entry : FieldDecl × FieldId) (hentry : entry ∈ (site.decl.field.zip
      (Numbering.fieldIds site.start.fields site.decl.field.length)).filter fun entry =>
        entry.1.oneofPlace? site.decl.oneofDecl.length = some place) :
      (schema.field entry.2).proto3Optional = entry.1.proto3Optional :=
    (h.declares_of_mem_zip (List.mem_filter.1 hentry).1).proto3Optional
  obtain ⟨oneof, honeof, hsynthetic, hmembers⟩ := h.exists_oneof hplace
  rw [oneof_of_getElem? honeof, hsynthetic, hmembers, MessageDecl.isSynthetic, hdecls]
  generalize List.filter _ _ = entries at hoptional
  cases entries with
  | nil => simp
  | cons entry others =>
    cases others with
    | nil => simp [hoptional]
    | cons _ _ => simp

theorem map_isSynthetic_oneofs :
    (schema.message id).oneofs.map (fun oneof => (schema.oneof oneof).isSynthetic) =
      site.decl.synthetic := by
  rw [h.oneofs_eq, List.range'_eq_map_range, List.map_map, List.map_map, MessageDecl.synthetic]
  exact List.map_congr_left fun place hplace => h.isSynthetic_oneof (List.mem_range.1 hplace)

end Schema.OriginatesAt

namespace Schema

/-! ## Messages of a schema -/

variable {config : Config} {files : List FileDecl} {schema : Schema}
  (h : ofFiles config files = .ok schema) {id : MessageId}

include h

/-- `fieldsByNumber` have strictly ascending numbers. -/
theorem pairwise_fieldsByNumber (hid : id ∈ schema.messageIds) :
    (schema.fieldsByNumber id).Pairwise (·.number < ·.number) := by
  obtain ⟨site, hsite⟩ := exists_originatesAt h hid
  have hnumbers := MessageDecl.pairwise_lt_of_repeatedNumber? hsite.repeatedNumber?_eq_none
  rw [← hsite.map_number_fieldsByNumber] at hnumbers
  exact List.pairwise_map.1 hnumbers

theorem pairwise_lt_of_map_eq (hid : id ∈ schema.messageIds) {numbers : List Nat}
    (hnumbers : numbers.map (fun number : Nat => (number : Int)) =
      (schema.fieldsByNumber id).map (·.number.toInt)) : numbers.Pairwise (· < ·) := by
  have hfields : ((schema.fieldsByNumber id).map (·.number.toInt)).Pairwise (· < ·) := by
    rw [List.pairwise_map]
    exact (pairwise_fieldsByNumber h hid).imp Int32.lt_iff_toInt_lt.1
  rw [← hnumbers, List.pairwise_map] at hfields
  exact hfields.imp Int.ofNat_lt.1

/-- `realOneofs` are those that are not synthetic. -/
theorem realOneofs_eq_filter (hid : id ∈ schema.messageIds) : (schema.message id).realOneofs =
    (schema.message id).oneofs.filter fun oneof => !(schema.oneof oneof).isSynthetic := by
  obtain ⟨site, hsite⟩ := exists_originatesAt h hid
  rw [MessageNode.realOneofs, hsite.realOneofCount_eq, ← hsite.map_isSynthetic_oneofs]
  refine take_count_false_eq_filter ?_
  rw [hsite.map_isSynthetic_oneofs]
  exact hsite.syntheticLast

theorem nodup_oneofs (hid : id ∈ schema.messageIds) : (schema.message id).oneofs.Nodup := by
  obtain ⟨site, hsite⟩ := exists_originatesAt h hid
  rw [hsite.oneofs_eq]
  exact List.Nodup.map (fun _ _ => OneofId.mk.inj) (List.nodup_range' 1)

/-- Every field of a message `Declares` at the site of the message. -/
theorem exists_decl_of_mem_fieldsOf {field : FieldNode} (hfield : field ∈ schema.fieldsOf id) :
    ∃ site : Numbering.Site, schema.OriginatesAt (schema.message id) site ∧
      ∃ decl ∈ site.decl.field, site.Declares decl field := by
  obtain ⟨site, hsite⟩ := exists_originatesAt h (mem_messageIds_of_mem_fieldsOf hfield)
  obtain ⟨fieldId, hmem, rfl⟩ := List.mem_map.1 hfield
  rw [hsite.fields_eq, Numbering.mem_fieldIds, List.mem_range'_1] at hmem
  obtain ⟨place, hplace⟩ := Nat.exists_eq_add_of_le hmem.1
  have hlt : place < site.decl.field.length := by omega
  obtain ⟨node, hnode, hdeclares⟩ := hsite.exists_field (List.getElem?_eq_getElem hlt)
  rw [← hplace] at hnode
  rw [field_of_getElem? hnode]
  exact ⟨site, hsite, _, List.getElem_mem hlt, hdeclares⟩

theorem isFieldNumber_of_mem_fieldsOf {field : FieldNode} (hfield : field ∈ schema.fieldsOf id) :
    isFieldNumber field.number = true := by
  obtain ⟨site, hsite, decl, hdecl, hdeclares⟩ := exists_decl_of_mem_fieldsOf h hfield
  rw [hdeclares.number]
  exact hsite.isFieldNumber_of_mem hdecl

/-- A field that `isGroupLike` refers to a message. -/
theorem exists_messageType_of_mem_fieldsOf {field : FieldNode} (hfield : field ∈ schema.fieldsOf id)
    (hgroup : field.isGroupLike = true) : ∃ target, field.messageType? = some target := by
  obtain ⟨_, _, _, _, hdeclares⟩ := exists_decl_of_mem_fieldsOf h hfield
  exact hdeclares.group hgroup

theorem type_eq_message_of_isMap {field : FieldNode} (hfield : field ∈ schema.fieldsOf id)
    (hmap : field.isMap = true) : field.type = .message := by
  obtain ⟨_, _, _, _, hdeclares⟩ := exists_decl_of_mem_fieldsOf h hfield
  exact hdeclares.map hmap

/-- `oneof` of a field is one of its message. -/
theorem mem_oneofs_of_mem_fieldsOf {field : FieldNode} (hfield : field ∈ schema.fieldsOf id)
    {oneof : OneofId} (honeof : field.oneof = some oneof) : oneof ∈ (schema.message id).oneofs := by
  obtain ⟨site, hsite, decl, _, hdeclares⟩ := exists_decl_of_mem_fieldsOf h hfield
  obtain ⟨place, hplace, rfl⟩ := Option.map_eq_some_iff.1 (hdeclares.oneof.symm.trans honeof)
  have hlt := FieldDecl.lt_of_oneofPlace? hplace
  rw [hsite.oneofs_eq]
  exact List.mem_map_of_mem (List.mem_range'_1.2 (by omega))

/-- `realOneof?` of a field is one of the `realOneofs` of its message. -/
theorem mem_realOneofs_of_mem_fieldsOf {field : FieldNode} (hfield : field ∈ schema.fieldsOf id)
    {oneof : OneofId} (honeof : schema.realOneof? field = some oneof) :
    oneof ∈ (schema.message id).realOneofs := by
  obtain ⟨hof, hwritten⟩ := Option.filter_eq_some_iff.1 honeof
  rw [realOneofs_eq_filter h (mem_messageIds_of_mem_fieldsOf hfield)]
  exact List.mem_filter.2 ⟨mem_oneofs_of_mem_fieldsOf h hfield hof, hwritten⟩

end Schema

end SchemaLayout
