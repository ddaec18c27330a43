import SchemaLayout.Proofs.Compiler.Description
import SchemaLayout.Proofs.Schema.Lookup

/-!
# What can be compiled

A session compiles a message if its plans for both targets have programs, whichever targets are chosen. If there
is a program for one target, then all that can be wrong with the other one is that the message is too large there
(`compiles_iff`). So a message can fail for the sake of a target that was not chosen (`not_dependsOnChosen`).

Messages with up to 1900 fields and 1900 oneofs are compiled for every choice of targets
(`compileMessage_ordinary`).
-/

namespace SchemaLayout

/-- If the plan for one target `Fits`, that for another does unless its `size` has more than three groups of
seven bits. -/
theorem Schema.fits_layout_iff_size_lt {schema : Schema} {id : MessageId} {target other : Target}
    (h : (((schema.layout id).run ∅).1.plans.get target).Fits) :
    (((schema.layout id).run ∅).1.plans.get other).Fits ↔
      (((schema.layout id).run ∅).1.plans.get other).size < 128 ^ 3 := by
  rw [get_layout, Placement.fits_plan_iff] at h ⊢
  exact and_iff_right h.1

namespace Compiler

open Schema (ofFiles)

variable {building config : Config} {files : List FileDecl} {schema : Schema} {id : MessageId}

/-! ## Both targets -/

/-- `compileMessage` answers with `.ok` after the `calls`. -/
def Compiles (config : Config) (schema : Schema) (calls : List Call) (id : MessageId) : Prop :=
  ∃ compiled, answer (compileMessage config schema id) (afterCalls config schema calls) = .ok compiled

/-- `Compiles` holds exactly if `encode` writes a program for each of `config.targets`. -/
def DependsOnChosen (config : Config) (schema : Schema) (calls : List Call) (id : MessageId) : Prop :=
  Compiles config schema calls id ↔ ∀ target ∈ config.targets,
    ∃ program, (((schema.layout id).run ∅).1.plans.get target).encode = .ok program

section

variable (hfiles : ofFiles building files = .ok schema) (hthreshold : config.costThreshold < 2 ^ 32)
  {calls : List Call} (hcalls : ∀ other, .message other ∈ calls → other ∈ schema.messageIds)
  (hid : id ∈ schema.messageIds)

include hfiles hthreshold hcalls hid

/-- `Compiles` holds exactly if `encode` writes a program for every target. -/
theorem compiles_iff_exists_program : Compiles config schema calls id ↔
    ∀ target, ∃ program, (((schema.layout id).run ∅).1.plans.get target).encode = .ok program := by
  obtain ⟨storage, hanswer⟩ := exists_answer_eq_assemble hfiles hthreshold hcalls hid
  rw [Compiles, hanswer]
  exact exists_assemble_iff

end

/-- `Compiles` holds exactly if `encode` writes a program for both targets, whichever of them are in
`config.targets`. If it writes one for some target, this comes down to the `size` for each. -/
theorem compiles_iff (hfiles : ofFiles building files = .ok schema) (hthreshold : config.costThreshold < 2 ^ 32)
    {calls : List Call} (hcalls : ∀ other, .message other ∈ calls → other ∈ schema.messageIds)
    (hid : id ∈ schema.messageIds) :
    let plans := ((schema.layout id).run ∅).1.plans
    (Compiles config schema calls id ↔ ∀ target, ∃ program, (plans.get target).encode = .ok program) ∧
      ∀ target program, (plans.get target).encode = .ok program →
        (Compiles config schema calls id ↔ ∀ other, (plans.get other).size < 128 ^ 3) := by
  intro plans
  have hcompiles := compiles_iff_exists_program hfiles hthreshold hcalls hid
  refine ⟨hcompiles, fun target program hprogram => hcompiles.trans (forall_congr' fun other => ?_)⟩
  have hfits := LayoutPlan.exists_encode_iff.1 ⟨program, hprogram⟩
  exact LayoutPlan.exists_encode_iff.trans (Schema.fits_layout_iff_size_lt hfits)

/-- A line of `pathFile` is compiled for one target, since it has a program there and is large on neither. -/
theorem compiles_iff_line :
    ∃ schema, ofFiles {} [Schema.pathFile] = .ok schema ∧
      let plans := ((schema.layout ⟨1⟩).run ∅).1.plans
      (∃ program, (plans.get .bits32).encode = .ok program) ∧ (∀ other, (plans.get other).size < 128 ^ 3) ∧
        Compiles { targets := [.bits32] } schema [.all] ⟨1⟩ := by
  obtain ⟨schema, hschema⟩ := Schema.exists_ofFiles_path
  have hmessages := Schema.messages_of_ofFiles (Schema.ofTable_proto2 rfl) hschema
  have hid : ⟨1⟩ ∈ schema.messageIds := by
    rw [Schema.messageIds, hmessages]
    decide
  have hcalls : ∀ other, Call.message other ∈ [.all] → other ∈ schema.messageIds := by
    intro other hother
    cases List.mem_singleton.1 hother
  have hcount : (schema.fieldsOf ⟨1⟩).length ≤ 1900 := by
    rw [Schema.fieldsOf, List.length_map, Schema.message, hmessages]
    decide
  have honeofs : (schema.message ⟨1⟩).realOneofs.length ≤ 1900 := by
    rw [Schema.message, hmessages]
    decide
  have hfits := Schema.fits_layout hschema hcount honeofs
  obtain ⟨program, hprogram⟩ := LayoutPlan.exists_encode_iff.2 (hfits .bits32)
  have hsizes := fun other => (hfits other).header.size
  obtain ⟨_, hcompiles⟩ := compiles_iff hschema
    (show ({ targets := [.bits32] } : Config).costThreshold < 2 ^ 32 by decide) hcalls hid
  exact ⟨schema, hschema, ⟨program, hprogram⟩, hsizes, (hcompiles _ _ hprogram).2 hsizes⟩

/-! ## A message that is too large for one target -/

/-- A field of bytes, numbered above those that are kept for implementations. -/
def widePart (place : Nat) : FieldDecl where
  name := "part" ++ toString place
  number := Int32.ofNat (20000 + place)
  type := .bytes

/-- A message with `count` fields of bytes. -/
def wideMessage (count : Nat) : MessageDecl where
  name := "Wide"
  field := (List.range count).map widePart

/-- A file with `wideMessage`, at level `.proto3`, where fields do not track whether they are set. -/
def wideFile (count : Nat) : FileDecl where
  name := "wide.proto"
  syntaxName := some "proto3"
  messageType := [wideMessage count]

/-- The features of files of level `.proto3`. -/
def proto3Rules : FeatureRules where
  edition := .proto3
  defaults := {
    fieldPresence := .implicit, enumOpenness := .openEnded, repeatedEncoding := .packed
    utf8Validation := .verify, messageEncoding := .lengthPrefixed, jsonFormat := .allow
  }
  extensions := []

/-- What `wideFile` adds to a schema. -/
def wideAdditions (count : Nat) : Additions :=
  Numbering.head ⟨proto3Rules, ⟨0⟩⟩ {} none "Wide" proto3Rules.defaults [] [] [] (wideMessage count)

variable {count : Nat}

/-- `wideFile` follows `proto3Rules`. -/
theorem ofTable_wide :
    FeatureRules.ofTable (wideFile count).level ({} : Config).defaults ({} : Config).extensions =
      .ok proto3Rules := by
  have hlevel : (wideFile count).level = .proto3 := by
    simp only [FileDecl.level, wideFile, Edition.ofSyntax]
    decide
  rw [hlevel]
  rfl

theorem file_wide : (Numbering.file ⟨proto3Rules, ⟨0⟩⟩ {} (wideFile count)).2 = wideAdditions count := by
  have hempty (additions : Additions) : additions ++ {} = additions := by
    cases additions
    show Additions.mk .. = _
    simp only [List.append_nil]
  -- Nothing is nested in the message, and there is nothing else in the file.
  show wideAdditions count ++ {} ++ {} ++ {} ++ {} ++ {} ++ {} ++ {} = _
  simp only [hempty]

/-- The drafts that numbering makes of `wideMessage`. -/
theorem fields_wide : (wideAdditions count).fields = (List.range count).map fun place =>
    Numbering.field ⟨proto3Rules, ⟨0⟩⟩ (some ⟨0⟩) "Wide" proto3Rules.defaults false none none (widePart place) := by
  show Numbering.fields _ _ _ _ _ _ = _
  rw [Numbering.fields, wideMessage, List.map_map]
  rfl

theorem toInt_number_widePart {place : Nat} (h : place < 2 ^ 20) :
    (widePart place).number.toInt = 20000 + place := by
  rw [widePart, Int32.toInt_ofNat_of_lt (by omega)]
  omega

theorem isFieldNumber_widePart {place : Nat} (h : place < 2 ^ 20) :
    isFieldNumber (widePart place).number = true := by
  have hpositive : (1 : Int) ≤ 20000 + place := by omega
  have hmax : (20000 + place : Int) ≤ maxFieldNumber := by
    rw [maxFieldNumber]
    omega
  have hbehind : ¬ (20000 + place : Int) ≤ 19999 := by omega
  rw [isFieldNumber, toInt_number_widePart h, decide_eq_true hpositive, decide_eq_true hmax,
    decide_eq_false hbehind, Bool.and_false]
  rfl

/-- No two `widePart` have one number, up to `2 ^ 20` of them. -/
theorem repeatedNumber?_wide (hcount : count ≤ 2 ^ 20) : (wideMessage count).repeatedNumber? = none := by
  apply MessageDecl.repeatedNumber?_eq_none_of_pairwise_lt
  rw [wideMessage, List.map_map, List.pairwise_map]
  refine List.pairwise_lt_range.imp_of_mem fun hfirst hsecond hlt => ?_
  have hfirst := List.mem_range.1 hfirst
  have hsecond := List.mem_range.1 hsecond
  show (widePart _).number < (widePart _).number
  rw [Int32.lt_iff_toInt_lt, toInt_number_widePart (by omega), toInt_number_widePart (by omega)]
  omega

/-- `wideFile` stands alone. -/
theorem standAlone_wide (hcount : count ≤ 2 ^ 20) : (wideAdditions count).standAlone = true := by
  have hsteps : (wideAdditions count).steps = Registration.ofMessageHead "Wide" ⟨0⟩ (wideMessage count) := rfl
  have hmethods : (wideAdditions count).methods = [] := rfl
  rw [Additions.standAlone, Additions.standsOn, hsteps, hmethods, fields_wide, Registration.entries_ofMessageHead]
  simp only [Bool.and_eq_true, List.all_eq_true, decide_eq_true_eq]
  refine ⟨⟨⟨?conditions, List.nodup_singleton _⟩, ?references⟩, List.forall_mem_nil _⟩
  -- The conditions on the message hold for any number of fields; those on fields ask for their numbers.
  case conditions =>
    rw [Registration.ofMessageHead, repeatedNumber?_wide hcount, List.append_nil]
    refine List.forall_mem_cons.2 ⟨rfl, List.forall_mem_cons.2 ⟨rfl, List.forall_mem_cons.2 ⟨rfl, ?_⟩⟩⟩
    intro step hstep
    obtain ⟨field, hfield, hstep⟩ := List.mem_flatMap.1 hstep
    obtain ⟨place, hplace, rfl⟩ := List.mem_map.1 hfield
    obtain rfl := List.mem_singleton.1 hstep
    exact isFieldNumber_widePart (Nat.lt_of_lt_of_le (List.mem_range.1 hplace) hcount)
  case references =>
    intro draft hdraft
    obtain ⟨place, _, rfl⟩ := List.mem_map.1 hdraft
    rfl

/-- `wideFile` can be put together to a schema. -/
theorem exists_ofFiles_wide (hcount : count ≤ 2 ^ 20) : ∃ schema, ofFiles {} [wideFile count] = .ok schema :=
  Schema.exists_ofFiles proto3Rules ofTable_wide rfl (file_wide.symm ▸ standAlone_wide hcount)

theorem isPlain_wide : (wideAdditions count).fields.all Linking.isPlain = true := by
  rw [fields_wide, List.all_map, List.all_eq_true]
  intro place _
  rfl

section

variable (hschema : ofFiles {} [wideFile count] = .ok schema)

include hschema

theorem messages_wide : schema.messages = (wideAdditions count).messages.toArray := by
  rw [← file_wide]
  exact Schema.messages_of_ofFiles ofTable_wide hschema

/-- The wide message has `count` fields. -/
theorem length_fieldsByNumber_wide : (schema.fieldsByNumber ⟨0⟩).length = count := by
  rw [((Schema.isSound_ofFiles hschema).fieldsByNumber_perm ⟨0⟩).length_eq, Schema.fieldsOf, List.length_map,
    Schema.message, messages_wide hschema]
  show (Numbering.fieldIds 0 (wideMessage count).field.length).length = count
  rw [Numbering.fieldIds, List.length_map, List.length_range', wideMessage, List.length_map, List.length_range]

/-- All fields of the wide message are stored as `.stringOrData`. -/
theorem isUniform_wide : Placement.IsUniform .stringOrData
    ((schema.fieldsByNumber ⟨0⟩).map (schema.shapeOf ⟨0⟩)) := by
  have hsound := Schema.isSound_ofFiles hschema
  have hperm := hsound.fieldsByNumber_perm ⟨0⟩
  have hfield {field : FieldNode} (h : field ∈ schema.fieldsByNumber ⟨0⟩) :
      ∃ place, field = (Numbering.field ⟨proto3Rules, ⟨0⟩⟩ (some ⟨0⟩) "Wide" proto3Rules.defaults false none none
        (widePart place)).node := by
    have hmem := hsound.mem_fields_of_mem_fieldsOf (hperm.subset h)
    have hfields := Schema.fields_of_ofFiles ofTable_wide hschema (file_wide ▸ isPlain_wide)
    rw [← Array.mem_toList_iff, hfields, file_wide, fields_wide, List.map_map] at hmem
    obtain ⟨place, _, rfl⟩ := List.mem_map.1 hmem
    exact ⟨place, rfl⟩
  constructor
  case numbers =>
    rw [List.forall_mem_map]
    exact fun field hmem => Schema.number_shapeOf_lt hschema (hperm.subset hmem)
  -- Everything else is the same for all declarations, so it is computed.
  all_goals
    rw [List.forall_mem_map]
    intro field hmem
    obtain ⟨place, rfl⟩ := hfield hmem
    rfl

/-- The size of the wide message: a bit for each field, aligned, and a `stride` for each. -/
theorem size_wide (hcount : 0 < count) (target : Target) :
    (((schema.layout ⟨0⟩).run ∅).1.plans.get target).size =
      alignUp (StorageKind.stringOrData.stride target) ((count + 7) / 8) +
        StorageKind.stringOrData.stride target * count := by
  have huniform := isUniform_wide hschema
  have hlength : ((schema.fieldsByNumber ⟨0⟩).map (schema.shapeOf ⟨0⟩)).length = count := by
    rw [List.length_map, length_fieldsByNumber_wide hschema]
  have hsome := List.ne_nil_of_length_pos (hlength.symm ▸ hcount)
  rw [Schema.get_layout, huniform.size_eq hsome, hlength]
  rfl

/-- All but the size of the wide message fits, so `Fits` is about the size. -/
theorem fits_wide_iff (hcount : count ≤ 2 ^ 20) (target : Target) :
    (((schema.layout ⟨0⟩).run ∅).1.plans.get target).Fits ↔
      (((schema.layout ⟨0⟩).run ∅).1.plans.get target).size < 128 ^ 3 := by
  rw [Schema.get_layout, Placement.fits_plan_iff]
  refine and_iff_right ((isUniform_wide hschema).fitsApartFromSize ?_)
  rw [List.length_map, length_fieldsByNumber_wide hschema]
  omega

end

/-- `DependsOnChosen` fails. With no target chosen, `crowdedFile` has a message that is refused for the slot of
its last oneof; with `.bits32` chosen, `wideFile` has one that is refused for its size on `.bits64`. -/
theorem not_dependsOnChosen :
    (∃ schema, ofFiles {} [crowdedFile] = .ok schema ∧ ¬ DependsOnChosen { targets := [] } schema [] ⟨1⟩) ∧
      ∃ schema, ofFiles {} [wideFile (2 ^ 17)] = .ok schema ∧
        ¬ DependsOnChosen { targets := [.bits32] } schema [] ⟨0⟩ := by
  have hcalls {schema : Schema} : ∀ other, Call.message other ∈ [] → other ∈ schema.messageIds :=
    fun _ hother => absurd hother List.not_mem_nil
  constructor
  · obtain ⟨schema, hschema⟩ := exists_ofFiles_crowded
    have hid : ⟨1⟩ ∈ schema.messageIds := messageIds_crowded hschema ▸ List.mem_cons_of_mem _ List.mem_cons_self
    refine ⟨schema, hschema, fun h => not_fits_crowded hschema ?_⟩
    have hcompiles := h.2 (List.forall_mem_nil _)
    rw [compiles_iff_exists_program hschema (by decide) hcalls hid] at hcompiles
    exact LayoutPlan.exists_encode_iff.1 (hcompiles .bits64)
  · obtain ⟨schema, hschema⟩ := exists_ofFiles_wide (show 2 ^ 17 ≤ 2 ^ 20 by decide)
    have hid : ⟨0⟩ ∈ schema.messageIds := by
      rw [Schema.messageIds, messages_wide hschema]
      exact List.mem_cons_self
    have hfits := fits_wide_iff hschema (show 2 ^ 17 ≤ 2 ^ 20 by decide)
    have hsize := size_wide hschema (show 0 < 2 ^ 17 by decide)
    refine ⟨schema, hschema, fun h => ?_⟩
    -- With 12 bytes for each field the message is small enough, with 16 it is not.
    have hchosen : (((schema.layout ⟨0⟩).run ∅).1.plans.get .bits32).Fits := by
      rw [hfits, hsize]
      decide
    have hcompiles := h.2 (List.forall_mem_singleton.2 (LayoutPlan.exists_encode_iff.2 hchosen))
    rw [compiles_iff_exists_program hschema (by decide) hcalls hid] at hcompiles
    have hother := LayoutPlan.exists_encode_iff.1 (hcompiles .bits64)
    rw [hfits, hsize] at hother
    exact absurd hother (by decide)

/-! ## Messages that are not too large -/

/-- A message with at most 1900 fields and 1900 `realOneofs` is compiled by every session and for every choice
of targets, and its plans satisfy `Fits`. -/
theorem compileMessage_ordinary (hfiles : ofFiles building files = .ok schema)
    (hthreshold : config.costThreshold < 2 ^ 32) {calls : List Call}
    (hcalls : ∀ other, .message other ∈ calls → other ∈ schema.messageIds) (hid : id ∈ schema.messageIds)
    (hcount : (schema.fieldsOf id).length ≤ 1900) (honeofs : (schema.message id).realOneofs.length ≤ 1900) :
    ∃ compiled,
      answer (compileMessage config schema id) (afterCalls config schema calls) = .ok compiled ∧
        compiled.layout = ((schema.layout id).run ∅).1 ∧
        compiled.programs.map (·.1) = config.targets ∧
        ∀ target, (compiled.layout.plans.get target).Fits := by
  have hfits := Schema.fits_layout hfiles hcount honeofs
  obtain ⟨storage, hanswer⟩ := exists_answer_eq_assemble hfiles hthreshold hcalls hid
  have hassemble : ∃ compiled, assemble config schema id ((schema.layout id).run ∅).1 storage = .ok compiled :=
    exists_assemble_iff.2 fun target => LayoutPlan.exists_encode_iff.2 (hfits target)
  obtain ⟨compiled, hcompiled⟩ := hassemble
  obtain ⟨programs, hencode, rfl⟩ := assemble_eq_ok_iff.1 hcompiled
  exact ⟨_, hanswer.trans hcompiled, rfl, map_fst_programs_assembled, hfits⟩

/-- A message with 1900 oneofs, of which only the last one has a member. -/
def brimfulFile : FileDecl where
  name := "brimful.proto"
  messageType := [
    { name := "Brimful"
      field := [{ name := "last", number := 1, oneofIndex := some 1899 }]
      oneofDecl := List.replicate 1900 {} }]

/-- `brimfulFile` compiled for one target by a session that was asked for all messages before. -/
theorem compileMessage_ordinary_brimful :
    ∃ schema, ofFiles {} [brimfulFile] = .ok schema ∧
      (schema.fieldsOf ⟨0⟩).length = 1 ∧ (schema.message ⟨0⟩).realOneofs.length = 1900 ∧
      ∃ compiled,
        answer (compileMessage { targets := [.bits32] } schema ⟨0⟩)
            (afterCalls { targets := [.bits32] } schema [.all]) = .ok compiled ∧
          compiled.layout = ((schema.layout ⟨0⟩).run ∅).1 ∧
          compiled.programs.map (·.1) = [.bits32] ∧
          ∀ target, (compiled.layout.plans.get target).Fits := by
  have hrules := Schema.ofTable_proto2 (show brimfulFile.level = .proto2 from rfl)
  obtain ⟨schema, hschema⟩ := Schema.exists_ofFiles_proto2 brimfulFile rfl rfl (by decide +kernel)
  have hmessages := Schema.messages_of_ofFiles hrules hschema
  have hid : ⟨0⟩ ∈ schema.messageIds := by
    rw [Schema.messageIds, hmessages]
    decide +kernel
  have hcount : (schema.fieldsOf ⟨0⟩).length = 1 := by
    rw [Schema.fieldsOf, List.length_map, Schema.message, hmessages]
    decide +kernel
  have honeofs : (schema.message ⟨0⟩).realOneofs.length = 1900 := by
    rw [Schema.message, hmessages]
    decide +kernel
  have hcalls : ∀ other, Call.message other ∈ [.all] → other ∈ schema.messageIds := by
    intro other hother
    cases List.mem_singleton.1 hother
  exact ⟨schema, hschema, hcount, honeofs, compileMessage_ordinary hschema (by decide) hcalls hid
    (hcount ▸ by decide) (honeofs ▸ Nat.le_refl _)⟩

end Compiler

end SchemaLayout
