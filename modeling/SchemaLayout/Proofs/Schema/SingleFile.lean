import Mathlib
import SchemaLayout.Proofs.Schema.Assembly

/-!
# Files that stand alone

A file without imports can be put together to a schema if what numbering makes of it is seen to be right:
all conditions hold, no name is entered twice, and every reference is to one of the names that are entered
(`exists_ofFiles`). Then the messages and oneofs of the schema are those that numbering made, and so are its
fields if they refer to nothing (`fields_of_ofFiles`). Another file can be added behind it, which may import it and
refer to its names (`exists_ofFiles_pair`). None of this needs a directory, so for given files it is decided by
computation.
-/

namespace SchemaLayout

/-! ## Registration -/

namespace Registration

theorem enter_mem_of_mem_entries {steps : List Registration} {entry : String × Definition}
    (h : entry ∈ steps.filterMap entry?) : .enter entry.1 entry.2 ∈ steps := by
  obtain ⟨step, hstep, hentry⟩ := List.mem_filterMap.1 h
  cases step with
  | enter key definition =>
    cases hentry
    exact hstep
  | require condition fault => cases hentry

/-- `takeAll` succeeds if all conditions hold and all names are new and different. -/
theorem exists_takeAll {steps : List Registration} {directory : Directory}
    (hholds : ∀ step ∈ steps, step.holds = true)
    (hnodup : ((steps.filterMap entry?).map (·.1)).Nodup)
    (hfresh : ∀ entry ∈ steps.filterMap entry?, directory.types.find? entry.1 = none) :
    ∃ next, takeAll steps directory = .ok next := by
  induction steps generalizing directory with
  | nil => exact ⟨directory, rfl⟩
  | cons step rest ih =>
    obtain ⟨hstep, hrest⟩ := List.forall_mem_cons.1 hholds
    cases step with
    | require condition fault =>
      have htake : take directory (.require condition fault) = .ok directory :=
        take_require_eq_ok_iff.2 ⟨hstep, rfl⟩
      obtain ⟨next, hnext⟩ := ih hrest hnodup hfresh
      refine ⟨next, ?_⟩
      rw [takeAll, List.foldlM_cons, htake]
      exact hnext
    | enter key definition =>
      obtain ⟨hkey, hothers⟩ := List.nodup_cons.1 hnodup
      obtain ⟨hnew, hlater⟩ := List.forall_mem_cons.1 hfresh
      have htake : take directory (.enter key definition)
          = .ok (directory.insertType key definition) := take_enter_eq_ok_iff.2 ⟨hnew, rfl⟩
      -- The name just entered is none of those that are still to come.
      have hstill (entry : String × Definition) (hentry : entry ∈ rest.filterMap entry?) :
          (directory.insertType key definition).types.find? entry.1 = none := by
        have hne : key ≠ entry.1 := by
          intro h
          subst h
          exact hkey (List.mem_map.2 ⟨entry, hentry, rfl⟩)
        rw [Directory.insertType, OrderedMap.find?_insert, if_neg hne]
        exact hlater entry hentry
      obtain ⟨next, hnext⟩ := ih hrest hothers hstill
      refine ⟨next, ?_⟩
      rw [takeAll, List.foldlM_cons, htake]
      exact hnext

end Registration

/-! ## Linking -/

namespace Linking

/-- The definition is that of a message. -/
def isMessage : Definition → Bool
  | .message _ => true
  | _ => false

/-- The definition is that of an enum. -/
def isEnum : Definition → Bool
  | .enum _ => true
  | _ => false

/-- The reference means an entry of a sort. -/
def isAmong (entries : List (String × Definition)) (sort : Definition → Bool) (reference : String) :
    Bool :=
  entries.any fun entry => entry.1 = Name.keyOf reference && sort entry.2

/-- All references of a field are to entries, as `Linking.field` needs them. -/
def isLinkable (entries : List (String × Definition)) (draft : FieldDraft) : Bool :=
  draft.extendee.all (isAmong entries isMessage) &&
    if draft.node.type = .enum then draft.typeName.any (isAmong entries isEnum)
    else !draft.node.type.isMessageLike || draft.typeName.any (isAmong entries isMessage)

/-- The field refers to nothing, so `Linking.field` has nothing to do. -/
def isPlain (draft : FieldDraft) : Bool :=
  draft.extendee.isNone && draft.node.type ≠ .enum && !draft.node.type.isMessageLike
    && draft.node.target.isNone && !draft.node.isMap && !draft.node.isGroupLike

/-- `Linking.field` leaves a plain field alone. -/
theorem field_of_isPlain (context : Context) {draft : FieldDraft} (h : isPlain draft = true) :
    field context draft = .ok draft.node := by
  obtain ⟨node, typeName, extendee⟩ := draft
  simp only [isPlain, Bool.and_eq_true, Option.isNone_iff_eq_none, Bool.not_eq_true',
    decide_eq_true_eq] at h
  obtain ⟨⟨⟨⟨⟨rfl, henum⟩, hmessage⟩, htarget⟩, hmap⟩, hgroup⟩ := h
  refine field_eq_ok_iff.2 ⟨node.containingType, none, rfl, ?_, ?_⟩
  · rw [target, if_neg henum, if_neg (by rw [hmessage]; exact Bool.false_ne_true)]
    rfl
  · have hlinked (type : FieldType) : linkedType context node.containingType none type = type := by
      cases type <;> rfl
    have hisMap (type : FieldType) : isMap context type none = false := by
      cases type <;> rfl
    have hisGroup {field : FieldNode} (h : field.target = none) :
        isGroupLike context field = false := by
      rw [isGroupLike, h]
      cases field.type <;> rfl
    simp only [linked, hlinked, hisMap, hisGroup]
    cases node
    simp_all

variable {context : Context} {entries : List (String × Definition)}
  (hentries : ∀ entry ∈ entries, context.directory.types.find? entry.1 = some entry.2)

include hentries

theorem exists_of_isAmong {sort : Definition → Bool} {reference : String}
    (h : isAmong entries sort reference = true) :
    ∃ definition, sort definition = true ∧
      context.directory.types.find? (Name.keyOf reference) = some definition := by
  obtain ⟨entry, hentry, hmeans⟩ := List.any_eq_true.1 h
  obtain ⟨hkey, hsort⟩ := Bool.and_eq_true_iff.1 hmeans
  rw [← of_decide_eq_true hkey]
  exact ⟨entry.2, hsort, hentries entry hentry⟩

/-- `findMessage` finds what `isAmong` the entries. -/
theorem exists_findMessage {reference : String} (h : isAmong entries isMessage reference = true)
    (owner : String) : ∃ id, context.findMessage owner reference = .ok id := by
  obtain ⟨definition, hsort, hfound⟩ := exists_of_isAmong hentries h
  cases definition with
  | message id => exact ⟨id, findMessage_eq_ok_iff.2 hfound⟩
  | enum id => cases hsort
  | service id => cases hsort

theorem exists_findEnum {reference : String} (h : isAmong entries isEnum reference = true)
    (owner : String) : ∃ id, context.findEnum owner reference = .ok id := by
  obtain ⟨definition, hsort, hfound⟩ := exists_of_isAmong hentries h
  cases definition with
  | message id => cases hsort
  | enum id => exact ⟨id, findEnum_eq_ok_iff.2 hfound⟩
  | service id => cases hsort

/-- `Linking.field` succeeds if `isLinkable`. -/
theorem exists_field {draft : FieldDraft} (h : isLinkable entries draft = true) :
    ∃ node, field context draft = .ok node := by
  obtain ⟨hextendee, htype⟩ := Bool.and_eq_true_iff.1 h
  have hcontainer : ∃ container, containingType context draft = .ok container := by
    rw [containingType]
    cases hname : draft.extendee with
    | none => exact ⟨_, rfl⟩
    | some extendee =>
      rw [hname] at hextendee
      obtain ⟨id, hid⟩ := exists_findMessage hentries hextendee draft.node.fullName
      exact ⟨some id, except_bind_eq_ok_iff.2 ⟨id, hid, rfl⟩⟩
  have htarget : ∃ found, target context draft = .ok found := by
    -- Both a field of an enum and one of a message have the name of their type.
    have hnamed {name : String} (hname : draft.typeName = some name) :
        typeName draft = .ok name := by
      rw [typeName, hname]
      rfl
    rw [target]
    split at htype
    · next henum =>
      obtain ⟨name, hname, hknown⟩ := (Option.any_eq_true _ _).1 htype
      obtain ⟨id, hid⟩ := exists_findEnum hentries hknown draft.node.fullName
      rw [if_pos henum]
      exact ⟨_, except_bind_eq_ok_iff.2 ⟨name, hnamed hname, except_bind_eq_ok_iff.2 ⟨id, hid, rfl⟩⟩⟩
    · next henum =>
      rw [if_neg henum]
      split
      · next hmessage =>
        rw [hmessage, Bool.not_true, Bool.false_or] at htype
        obtain ⟨name, hname, hknown⟩ := (Option.any_eq_true _ _).1 htype
        obtain ⟨id, hid⟩ := exists_findMessage hentries hknown draft.node.fullName
        exact ⟨_, except_bind_eq_ok_iff.2
          ⟨name, hnamed hname, except_bind_eq_ok_iff.2 ⟨id, hid, rfl⟩⟩⟩
      · exact ⟨none, rfl⟩
  obtain ⟨container, hcontainer⟩ := hcontainer
  obtain ⟨found, htarget⟩ := htarget
  exact ⟨_, field_eq_ok_iff.2 ⟨container, found, hcontainer, htarget, rfl⟩⟩

/-- `Linking.method` succeeds if both messages are among the entries. -/
theorem exists_method {draft : MethodDraft} (hinput : isAmong entries isMessage draft.inputName = true)
    (houtput : isAmong entries isMessage draft.outputName = true) :
    ∃ node, method context draft = .ok node := by
  obtain ⟨input, hfirst⟩ := exists_findMessage hentries hinput draft.fullName
  obtain ⟨output, hsecond⟩ := exists_findMessage hentries houtput draft.fullName
  exact ⟨_, method_eq_ok_iff.2 ⟨input, output, hfirst, hsecond, rfl⟩⟩

end Linking

/-! ## Files -/

theorem empty_append_list {α : Type} (list : List α) : (#[] : Array α) ++ list = list.toArray := by
  simp

/-- All conditions hold, no name is entered that is `known` or entered already, and all references are to names
that are known or entered. -/
def Additions.standsOn (known : List (String × Definition)) (additions : Additions) : Bool :=
  let entries := known ++ additions.steps.filterMap Registration.entry?
  additions.steps.all Registration.holds && (entries.map (·.1)).Nodup
    && additions.fields.all (Linking.isLinkable entries)
    && additions.methods.all fun method =>
      Linking.isAmong entries Linking.isMessage method.inputName
        && Linking.isAmong entries Linking.isMessage method.outputName

/-- `standsOn` without known names. -/
def Additions.standAlone (additions : Additions) : Bool :=
  additions.standsOn []

namespace Schema

/-- `register` succeeds if the names of a file differ from each other and from those that are known. -/
theorem exists_register {schema : Schema} {name : String} {steps : List Registration}
    (hname : schema.directory.file? name = none) (hholds : ∀ step ∈ steps, step.holds = true)
    (hnodup : ((steps.filterMap Registration.entry?).map (·.1)).Nodup)
    (hfresh : ∀ entry ∈ steps.filterMap Registration.entry?,
      schema.directory.types.find? entry.1 = none) :
    ∃ directory, schema.register name steps = .ok directory := by
  rw [register, hname]
  exact Registration.exists_takeAll hholds hnodup hfresh

/-- `addDeclarations` succeeds if the file `standsOn` the names of the schema, and imports files of the schema
or itself. -/
theorem exists_addDeclarations {schema : Schema} {known : List (String × Definition)}
    (hknown : ∀ {key : String} {definition : Definition},
      schema.directory.types.find? key = some definition ↔ (key, definition) ∈ known)
    (rules : FeatureRules) {decl : FileDecl} (hname : schema.directory.file? decl.name = none)
    (himports : ∀ name ∈ decl.dependency, name = decl.name ∨ ∃ id, schema.directory.file? name = some id)
    (hstands : (Numbering.file ⟨rules, ⟨schema.files.size⟩⟩ schema.counts decl).2.standsOn known = true) :
    ∃ next, schema.addDeclarations rules decl = .ok next := by
  simp only [Additions.standsOn, Bool.and_eq_true, List.all_eq_true, decide_eq_true_eq] at hstands
  obtain ⟨⟨⟨hholds, hnodup⟩, hfields⟩, hmethods⟩ := hstands
  rw [List.map_append, List.nodup_append'] at hnodup
  obtain ⟨_, hnodup, hdisjoint⟩ := hnodup
  obtain ⟨directory, hregister⟩ := exists_register hname hholds hnodup fun entry hentry => by
    rw [Option.eq_none_iff_forall_ne_some]
    intro definition hfound
    exact hdisjoint (List.mem_map.2 ⟨_, hknown.1 hfound, rfl⟩) (List.mem_map.2 ⟨entry, hentry, rfl⟩)
  let context : Linking.Context := {
    directory
    messages := schema.messages ++
      (Numbering.file ⟨rules, ⟨schema.files.size⟩⟩ schema.counts decl).2.messages }
  -- The directory is given only by what is found in it, and that is what was known or entered.
  have hentries (entry : String × Definition)
      (hentry : entry ∈ known ++ (Numbering.file ⟨rules, ⟨schema.files.size⟩⟩ schema.counts
        decl).2.steps.filterMap Registration.entry?) :
      context.directory.types.find? entry.1 = some entry.2 :=
    (find?_of_register hregister).2 ((List.mem_append.1 hentry).imp hknown.2
      Registration.enter_mem_of_mem_entries)
  obtain ⟨fields, hfields⟩ := exists_mapM fun draft hdraft =>
    Linking.exists_field hentries (hfields draft hdraft)
  obtain ⟨methods, hmethods⟩ := exists_mapM fun draft hdraft =>
    Linking.exists_method hentries (hmethods draft hdraft).1 (hmethods draft hdraft).2
  have hfiles (name : String) (hname : name ∈ decl.dependency) : ∃ id, directory.file? name = some id := by
    rw [file?_of_register hregister]
    by_cases hself : decl.name = name
    · exact ⟨_, if_pos hself⟩
    · rw [if_neg hself]
      exact (himports name hname).resolve_left (Ne.symm hself)
  obtain ⟨dependencies, hdependencies⟩ := exists_mapM fun name hname =>
    (hfiles name hname).imp fun id hid => elim_throw_eq_ok_iff.2 hid
  exact ⟨_, addDeclarations_eq_ok_iff.2
    ⟨directory, dependencies, fields, methods, hregister, hdependencies, hfields, hmethods, rfl⟩⟩

/-- `ofFiles` accepts a single file that satisfies `standAlone`. -/
theorem exists_ofFiles {config : Config} (rules : FeatureRules) {decl : FileDecl}
    (hrules : FeatureRules.ofTable decl.level config.defaults config.extensions = .ok rules)
    (himports : decl.dependency = [])
    (halone : (Numbering.file ⟨rules, ⟨0⟩⟩ {} decl).2.standAlone = true) :
    ∃ schema, ofFiles config [decl] = .ok schema := by
  have hknown {key : String} {definition : Definition} :
      empty.directory.types.find? key = some definition ↔ (key, definition) ∈ [] := by
    simp [empty, Directory.empty, OrderedMap.find?_empty]
  obtain ⟨next, hnext⟩ := exists_addDeclarations hknown rules
    (OrderedMap.find?_empty decl.name) (himports ▸ List.forall_mem_nil _) halone
  refine ⟨next, ?_⟩
  rw [ofFiles, List.foldlM_cons, addFile_eq_ok_iff.2 ⟨rules, hrules, hnext⟩]
  rfl

/-! ## What becomes of a file -/

section

variable {config : Config} {rules : FeatureRules} {decl : FileDecl} {schema : Schema}
  (hrules : FeatureRules.ofTable decl.level config.defaults config.extensions = .ok rules)
  (h : ofFiles config [decl] = .ok schema)

include hrules h

/-- `ofFiles` of one file adds it to the empty schema. -/
theorem addDeclarations_of_ofFiles : empty.addDeclarations rules decl = .ok schema := by
  rw [ofFiles, List.foldlM_cons, except_bind_eq_ok_iff] at h
  obtain ⟨next, hadd, hnext⟩ := h
  cases hnext
  obtain ⟨found, hfound, hadd⟩ := addFile_eq_ok_iff.1 hadd
  rw [hrules] at hfound
  cases hfound
  exact hadd

/-- The only file is that of `Numbering.file`, with its imports. -/
theorem files_of_ofFiles : ∃ dependencies,
    schema.files = #[{ (Numbering.file ⟨rules, ⟨0⟩⟩ {} decl).1 with dependencies }] := by
  obtain ⟨_, dependencies, _, _, _, _, _, _, rfl⟩ :=
    addDeclarations_eq_ok_iff.1 (addDeclarations_of_ofFiles hrules h)
  exact ⟨dependencies, rfl⟩

/-- The messages of a schema of one file are those of `Numbering.file`. -/
theorem messages_of_ofFiles :
    schema.messages = (Numbering.file ⟨rules, ⟨0⟩⟩ {} decl).2.messages.toArray := by
  obtain ⟨_, _, _, _, _, _, _, _, rfl⟩ :=
    addDeclarations_eq_ok_iff.1 (addDeclarations_of_ofFiles hrules h)
  exact empty_append_list _

theorem oneofs_of_ofFiles :
    schema.oneofs = (Numbering.file ⟨rules, ⟨0⟩⟩ {} decl).2.oneofs.toArray := by
  obtain ⟨_, _, _, _, _, _, _, _, rfl⟩ :=
    addDeclarations_eq_ok_iff.1 (addDeclarations_of_ofFiles hrules h)
  exact empty_append_list _

theorem enums_of_ofFiles :
    schema.enums = (Numbering.file ⟨rules, ⟨0⟩⟩ {} decl).2.enums.toArray := by
  obtain ⟨_, _, _, _, _, _, _, _, rfl⟩ :=
    addDeclarations_eq_ok_iff.1 (addDeclarations_of_ofFiles hrules h)
  exact empty_append_list _

theorem values_of_ofFiles :
    schema.values = (Numbering.file ⟨rules, ⟨0⟩⟩ {} decl).2.values.toArray := by
  obtain ⟨_, _, _, _, _, _, _, _, rfl⟩ :=
    addDeclarations_eq_ok_iff.1 (addDeclarations_of_ofFiles hrules h)
  exact empty_append_list _

theorem services_of_ofFiles :
    schema.services = (Numbering.file ⟨rules, ⟨0⟩⟩ {} decl).2.services.toArray := by
  obtain ⟨_, _, _, _, _, _, _, _, rfl⟩ :=
    addDeclarations_eq_ok_iff.1 (addDeclarations_of_ofFiles hrules h)
  exact empty_append_list _

/-- The fields of a schema of one file are those of `Numbering.file`, linked. -/
theorem mapM_field_of_ofFiles :
    ∃ linking, (Numbering.file ⟨rules, ⟨0⟩⟩ {} decl).2.fields.mapM (Linking.field linking) =
      .ok schema.fields.toList := by
  obtain ⟨_, _, fields, _, _, _, hfields, _, rfl⟩ :=
    addDeclarations_eq_ok_iff.1 (addDeclarations_of_ofFiles hrules h)
  have happend : ((#[] : Array FieldNode) ++ fields).toList = fields :=
    congrArg Array.toList (empty_append_list fields)
  exact ⟨_, hfields.trans (congrArg Except.ok happend.symm)⟩

/-- The fields of a schema of one file are those of `Numbering.file` if they refer to nothing. -/
theorem fields_of_ofFiles
    (hplain : (Numbering.file ⟨rules, ⟨0⟩⟩ {} decl).2.fields.all Linking.isPlain = true) :
    schema.fields.toList = (Numbering.file ⟨rules, ⟨0⟩⟩ {} decl).2.fields.map (·.node) := by
  obtain ⟨linking, hfields⟩ := mapM_field_of_ofFiles hrules h
  have hlinked := mapM_eq_ok_map fun draft hdraft =>
    Linking.field_of_isPlain linking (List.all_eq_true.1 hplain draft hdraft)
  exact Except.ok.inj (hfields.symm.trans hlinked)

/-- `fieldsOf` in a schema of one file, if its fields refer to nothing. -/
theorem fieldsOf_of_ofFiles
    (hplain : (Numbering.file ⟨rules, ⟨0⟩⟩ {} decl).2.fields.all Linking.isPlain = true)
    (id : MessageId) :
    let numbered := (Numbering.file ⟨rules, ⟨0⟩⟩ {} decl).2
    schema.fieldsOf id = (numbered.messages[id.index]?.getD default).fields.map fun field =>
      (numbered.fields.map (·.node))[field.index]?.getD default := by
  intro numbered
  rw [fieldsOf, Schema.message, messages_of_ofFiles hrules h, List.getElem?_toArray]
  refine List.map_congr_left fun field _ => ?_
  rw [Schema.field, ← Array.getElem?_toList, fields_of_ofFiles hrules h hplain]

/-! ## A second file -/

/-- The types that are known behind the only file are those that it enters. -/
theorem find?_of_ofFiles {key : String} {definition : Definition} :
    schema.directory.types.find? key = some definition ↔
      (key, definition) ∈ (Numbering.file ⟨rules, ⟨0⟩⟩ {} decl).2.steps.filterMap Registration.entry? := by
  obtain ⟨directory, _, _, _, hregister, _, _, _, rfl⟩ :=
    addDeclarations_eq_ok_iff.1 (addDeclarations_of_ofFiles hrules h)
  refine (find?_of_register hregister).trans ⟨fun hkey => ?_, fun hkey => ?_⟩
  · rcases hkey with hkey | hentered
    · rw [show empty.directory.types.find? key = none from OrderedMap.find?_empty key] at hkey
      cases hkey
    · exact List.mem_filterMap.2 ⟨_, hentered, rfl⟩
  · exact Or.inr (Registration.enter_mem_of_mem_entries hkey)

theorem file?_of_ofFiles (name : String) :
    schema.directory.file? name = if decl.name = name then some ⟨0⟩ else none := by
  obtain ⟨directory, _, _, _, hregister, _, _, _, rfl⟩ :=
    addDeclarations_eq_ok_iff.1 (addDeclarations_of_ofFiles hrules h)
  refine (file?_of_register hregister name).trans ?_
  rw [show empty.directory.file? name = none from OrderedMap.find?_empty name]
  rfl

/-- `ofFiles` accepts a second file that `standsOn` the names of the first one, and imports that or itself. -/
theorem exists_ofFiles_pair (nextRules : FeatureRules) {next : FileDecl}
    (hnext : FeatureRules.ofTable next.level config.defaults config.extensions = .ok nextRules)
    (hname : decl.name ≠ next.name) (himports : ∀ name ∈ next.dependency, name = next.name ∨ name = decl.name)
    (hstands : let numbered := (Numbering.file ⟨rules, ⟨0⟩⟩ {} decl).2
      (Numbering.file ⟨nextRules, ⟨1⟩⟩ ({} + numbered.counts) next).2.standsOn
        (numbered.steps.filterMap Registration.entry?) = true) :
    ∃ after, ofFiles config [decl, next] = .ok after := by
  obtain ⟨hsize, hcounts⟩ := counts_addDeclarations (addDeclarations_of_ofFiles hrules h)
  have hfresh : schema.directory.file? next.name = none := by
    rw [file?_of_ofFiles hrules h, if_neg hname]
  -- The file before is found by its name.
  have hfound : ∀ name ∈ next.dependency, name = next.name ∨ ∃ id, schema.directory.file? name = some id := by
    intro name hmem
    refine (himports name hmem).imp_right ?_
    rintro rfl
    exact ⟨⟨0⟩, by rw [file?_of_ofFiles hrules h, if_pos rfl]⟩
  obtain ⟨after, hafter⟩ := exists_addDeclarations (find?_of_ofFiles hrules h) nextRules hfresh hfound
    (by rw [hsize, hcounts]; exact hstands)
  refine ⟨after, ?_⟩
  show ([decl] ++ [next]).foldlM (addFile config) empty = .ok after
  rw [List.foldlM_append, show [decl].foldlM (addFile config) empty = .ok schema from h]
  show [next].foldlM (addFile config) schema = .ok after
  rw [List.foldlM_cons, addFile_eq_ok_iff.2 ⟨nextRules, hnext, hafter⟩]
  rfl

end

/-- Paths of lines between points: messages inside each other, a oneof and a message that would contain itself.
-/
def pathFile : FileDecl where
  name := "path.proto"
  messageType := [
    { name := "Point", field := [{ name := "x", number := 1 }, { name := "y", number := 2 }] },
    { name := "Line"
      field := [
        { name := "start", number := 1, type := .message, typeName := some "Point" },
        { name := "stop", number := 3, type := .message, typeName := some "Point",
          oneofIndex := some 0 },
        { name := "open", number := 2, type := .bool, oneofIndex := some 0 }]
      oneofDecl := [{ name := "end" }] },
    { name := "Path"
      field := [
        { name := "first", number := 1, type := .message, typeName := some "Line" },
        { name := "rest", number := 2, type := .message, typeName := some ".Path" }] }]

/-- The rules of files without an edition. -/
def proto2Rules : FeatureRules where
  edition := .proto2
  defaults := {
    fieldPresence := .explicit, enumOpenness := .closed, repeatedEncoding := .expanded
    utf8Validation := .none, messageEncoding := .lengthPrefixed, jsonFormat := .legacyBestEffort
  }
  extensions := []

/-- Files of level `.proto2` follow `proto2Rules` when nothing is configured. -/
theorem ofTable_proto2 {decl : FileDecl} (hlevel : decl.level = .proto2) :
    FeatureRules.ofTable decl.level ({} : Config).defaults ({} : Config).extensions = .ok proto2Rules := by
  rw [hlevel]
  rfl

/-- `exists_ofFiles` for files of level `.proto2`, when nothing is configured. -/
theorem exists_ofFiles_proto2 (decl : FileDecl) (hlevel : decl.level = .proto2) (himports : decl.dependency = [])
    (halone : (Numbering.file ⟨proto2Rules, ⟨0⟩⟩ {} decl).2.standAlone = true) :
    ∃ schema, ofFiles {} [decl] = .ok schema :=
  exists_ofFiles proto2Rules (ofTable_proto2 hlevel) himports halone

theorem exists_ofFiles_path : ∃ schema, ofFiles {} [pathFile] = .ok schema :=
  exists_ofFiles_proto2 pathFile rfl rfl (by cbv)

end Schema

end SchemaLayout
