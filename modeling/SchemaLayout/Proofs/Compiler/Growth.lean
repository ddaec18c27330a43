import SchemaLayout.Proofs.Compiler.Agreement

/-!
# Adding files

A schema grows file by file, and what was built before stays as it is: all elements keep their numbers and all
names keep their meanings, whatever the files that come later declare, extend or refer to. Since the messages
that were there refer to nothing that came later, they are compiled to the same results, too
(`growth_keeps`). A file that cannot be added leaves a builder as it was.
-/

namespace SchemaLayout

/-! ## Names -/

namespace Directory

/-- What `before` finds under a name, `after` finds as well. -/
structure IsPartOf (before after : Directory) : Prop where
  files : ∀ {name : String} {id : FileId}, before.file? name = some id → after.file? name = some id
  types : ∀ {key : String} {definition : Definition},
    before.types.find? key = some definition → after.types.find? key = some definition

variable {before after : Directory}

theorem IsPartOf.refl (directory : Directory) : directory.IsPartOf directory :=
  ⟨fun h => h, fun h => h⟩

theorem IsPartOf.trans {last : Directory} (h : before.IsPartOf after) (hnext : after.IsPartOf last) :
    before.IsPartOf last :=
  ⟨fun hname => hnext.files (h.files hname), fun hkey => hnext.types (h.types hkey)⟩

/-- `find?` by any name is kept. -/
theorem IsPartOf.find? (h : before.IsPartOf after) {name : String} {entry : Entry}
    (hname : before.find? name = some entry) : after.find? name = some entry := by
  rw [Directory.find?] at *
  split at hname
  · obtain ⟨definition, hkey, rfl⟩ := Option.map_eq_some_iff.1 hname
    exact Option.map_eq_some_iff.2 ⟨definition, h.types hkey, rfl⟩
  · obtain ⟨id, hfile, rfl⟩ := Option.map_eq_some_iff.1 hname
    exact Option.map_eq_some_iff.2 ⟨id, h.files hfile, rfl⟩

end Directory

namespace Schema

/-- `register` keeps all names of the directory. -/
theorem isPartOf_of_register {schema : Schema} {name : String} {steps : List Registration}
    {directory : Directory} (h : schema.register name steps = .ok directory) :
    schema.directory.IsPartOf directory where
  files {other id} hother := by
    rw [file?_of_register h, if_neg ?_, hother]
    intro hsame
    rw [register, hsame, hother] at h
    cases h
  types hkey := (find?_of_register h).2 (Or.inl hkey)

/-- The lookups of `before` that succeed have the same answer in `after`. -/
structure KeepsNames (before after : Schema) : Prop where
  file : ∀ {name : String} {id : FileId},
    before.findFile? name = some id → after.findFile? name = some id
  message : ∀ {reference : String} {id : MessageId},
    before.findMessage? reference = some id → after.findMessage? reference = some id
  enum : ∀ {reference : String} {id : EnumId},
    before.findEnum? reference = some id → after.findEnum? reference = some id
  service : ∀ {reference : String} {id : ServiceId},
    before.findService? reference = some id → after.findService? reference = some id
  entry : ∀ {name : String} {entry : Entry},
    before.directory.find? name = some entry → after.directory.find? name = some entry

/-- `KeepsNames` comes down to `IsPartOf` of the directories. -/
theorem keepsNames_of_isPartOf {before after : Schema} (h : before.directory.IsPartOf after.directory) :
    before.KeepsNames after where
  file := h.files
  message hid := Directory.message?_eq_some_iff.2 (h.types (Directory.message?_eq_some_iff.1 hid))
  enum hid := Directory.enum?_eq_some_iff.2 (h.types (Directory.enum?_eq_some_iff.1 hid))
  service hid := Directory.service?_eq_some_iff.2 (h.types (Directory.service?_eq_some_iff.1 hid))
  entry := h.find?

/-! ## Elements -/

theorem IsPartOf.refl (schema : Schema) : schema.IsPartOf schema :=
  ⟨fun h => h, fun h => h, fun h => h, fun h => h, fun h => h, fun h => h, fun h => h, fun h => h⟩

theorem IsPartOf.trans {before after last : Schema} (h : before.IsPartOf after)
    (hnext : after.IsPartOf last) : before.IsPartOf last where
  files hnode := hnext.files (h.files hnode)
  messages hnode := hnext.messages (h.messages hnode)
  fields hnode := hnext.fields (h.fields hnode)
  oneofs hnode := hnext.oneofs (h.oneofs hnode)
  enums hnode := hnext.enums (h.enums hnode)
  values hnode := hnext.values (h.values hnode)
  services hnode := hnext.services (h.services hnode)
  methods hnode := hnext.methods (h.methods hnode)

/-- `addFile` keeps all elements and names. -/
theorem isPartOf_addFile {config : Config} {schema next : Schema} {decl : FileDecl}
    (h : addFile config schema decl = .ok next) :
    schema.IsPartOf next ∧ schema.directory.IsPartOf next.directory := by
  obtain ⟨rules, _, hadd⟩ := addFile_eq_ok_iff.1 h
  obtain ⟨directory, dependencies, fields, methods, hregister, _, _, _, rfl⟩ :=
    addDeclarations_eq_ok_iff.1 hadd
  exact ⟨isPartOf_extend _ _ _ _ _ _, isPartOf_of_register hregister⟩

/-- So does any number of `addFile`. -/
theorem isPartOf_foldlM {config : Config} {added : List FileDecl} {before after : Schema}
    (h : added.foldlM (addFile config) before = .ok after) :
    before.IsPartOf after ∧ before.directory.IsPartOf after.directory := by
  refine foldlM_preserves
    (P := fun schema : Schema => before.IsPartOf schema ∧ before.directory.IsPartOf schema.directory)
    (fun schema decl next hschema hnext => ?_) ⟨.refl before, .refl before.directory⟩ h
  obtain ⟨hpart, hnames⟩ := isPartOf_addFile hnext
  exact ⟨hschema.1.trans hpart, hschema.2.trans hnames⟩

/-- `ofFiles` of two lists goes by way of the first. -/
theorem ofFiles_append_eq_ok_iff {config : Config} {files added : List FileDecl} {after : Schema} :
    ofFiles config (files ++ added) = .ok after ↔
      ∃ before, ofFiles config files = .ok before ∧ added.foldlM (addFile config) before = .ok after := by
  rw [ofFiles, List.foldlM_append, except_bind_eq_ok_iff]
  rfl

/-! ## Results -/

section

variable {config : Config} {files : List FileDecl} {before after : Schema}

/-- Fields of messages of `before` are the same in `after`. -/
theorem IsPartOf.field_eq (hpart : before.IsPartOf after) (hbefore : before.IsSound) {id : MessageId}
    (hid : id ∈ before.messageIds) {field : FieldId} (hfield : field ∈ (before.message id).fields) :
    after.field field = before.field field := by
  obtain ⟨node, hnode, _⟩ := (hbefore.messages (getElem?_of_mem_messageIds hid)).fields field hfield
  rw [field_of_getElem? hnode, field_of_getElem? (hpart.fields hnode)]

/-- A sound schema `Agrees` with all that it is part of. -/
theorem agrees_of_isPartOf (hbefore : before.IsSound) (hpart : before.IsPartOf after) :
    before.Agrees after := by
  have hmessage (id : MessageId) (hid : id ∈ before.messageIds) :
      after.messages[id.index]? = some (before.message id) :=
    hpart.messages (getElem?_of_mem_messageIds hid)
  have hholds (id : MessageId) (hid : id ∈ before.messageIds) :=
    hbefore.messages (getElem?_of_mem_messageIds hid)
  -- A oneof of an old message is old, and so are its members.
  have honeof (id : MessageId) (hid : id ∈ before.messageIds) (oneof : OneofId)
      (hmem : oneof ∈ (before.message id).oneofs) :
      after.oneof oneof = before.oneof oneof ∧
        ∀ field ∈ (before.oneof oneof).fields, field ∈ (before.message id).fields := by
    obtain ⟨node, hnode, hmembers⟩ := (hholds id hid).oneofs oneof hmem
    rw [oneof_of_getElem? hnode, oneof_of_getElem? (hpart.oneofs hnode)]
    exact ⟨rfl, hmembers⟩
  constructor
  case mem =>
    intro id hid
    exact mem_messageIds.2 (Array.getElem?_eq_some_iff.1 (hmessage id hid)).1
  case message =>
    intro id hid
    rw [message_of_getElem? (hmessage id hid)]
  case fieldsByNumber =>
    intro id hid
    rw [fieldsByNumber, message_of_getElem? (hmessage id hid)]
    refine List.map_congr_left fun field hfield => ?_
    exact hpart.field_eq hbefore hid ((hholds id hid).byNumber.mem_iff.1 hfield)
  case members =>
    intro id hid oneof hmem
    obtain ⟨hsame, hmembers⟩ := honeof id hid oneof (List.mem_of_mem_take hmem)
    rw [hsame]
    refine .of_eq (List.map_congr_left fun field hfield => ?_)
    exact hpart.field_eq hbefore hid (hmembers field hfield)

end

/-! ## Builders -/

/-- `Array.modify` at the place of the element that was pushed last. -/
theorem modify_push_size {α : Type} (xs : Array α) (x : α) (f : α → α) :
    (xs.push x).modify xs.size f = xs.push (f x) := by
  apply Array.ext
  · simp
  · intro i hi hj
    simp only [Array.getElem_modify, Array.getElem_push]
    grind

/-- `Array.extract` of what was there before a list was appended. -/
theorem extract_appendList_size {α : Type} (xs : Array α) (ys : List α) :
    (xs ++ ys).extract 0 xs.size = xs := by
  apply Array.ext'
  simp [Array.toList_appendList]

/-- `allocate` extends the schema by the numbered elements, with fields that are not linked. -/
theorem run_allocate (rules : FeatureRules) (decl : FileDecl) (schema : Schema) :
    (allocate rules decl).run schema =
      let numbered := Numbering.file ⟨rules, ⟨schema.files.size⟩⟩ schema.counts decl
      (do
        let directory ← schema.register decl.name numbered.2.steps
        let nodes := numbered.2.fields.map (·.node)
        pure (numbered.2, schema.extend directory numbered.1 numbered.2 nodes [])) := by
  simp only [allocate, StateT.run_bind, StateT.run_get, pure_bind, StateT.run_set, StateT.run_pure,
    StateT.run_monadLift, bind_assoc, monadLift_self]

/-- `link` sets dependencies, replaces the fields behind `mark` by linked ones, and adds methods. -/
theorem run_link (schema : Schema) (mark : Counts) (decl : FileDecl) (file : FileId) (additions : Additions) :
    (link mark decl file additions).run schema = (do
      let context : Linking.Context := { directory := schema.directory, messages := schema.messages }
      let dependencies ← Linking.dependencies schema.directory decl
      let fields ← additions.fields.mapM (Linking.field context)
      let methods ← additions.methods.mapM (Linking.method context)
      pure ((), { schema with
        files := schema.files.modify file.index ({ · with dependencies })
        fields := schema.fields.extract 0 mark.fields ++ fields
        methods := schema.methods ++ methods })) := by
  simp only [link, StateT.run_bind, StateT.run_get, pure_bind, StateT.run_modify, StateT.run_monadLift, bind_assoc,
    monadLift_self]

/-- `allocate` and then `link` add the same to a schema as `addDeclarations`. -/
theorem run_add (rules : FeatureRules) (decl : FileDecl) (schema : Schema) :
    (add rules decl).run schema = (⟨schema.files.size⟩, ·) <$> schema.addDeclarations rules decl := by
  simp only [add, addDeclarations, StateT.run_bind, StateT.run_get, StateT.run_pure, run_allocate, run_link,
    bind_assoc, pure_bind, map_bind, map_pure, extend, modify_push_size, Array.appendList_nil]
  have hmark (nodes : List FieldNode) :
      (schema.fields ++ nodes).extract 0 schema.counts.fields = schema.fields :=
    extract_appendList_size schema.fields nodes
  simp only [hmark]

/-- `build` changes what is held exactly as `addFile` does, and changes nothing when there are no rules. -/
theorem run_build (config : Config) (decl : FileDecl) (schema : Schema) :
    (build config decl).run.run schema =
      match addFile config schema decl with
      | .ok next => .ok (.ok ⟨schema.files.size⟩, next)
      | .error (.features file error) => .ok (.error (.features file error), schema)
      | .error (.fault fault) => .error fault := by
  rw [build, addFile]
  cases FeatureRules.ofTable decl.level config.defaults config.extensions with
  | error error => rfl
  | ok rules =>
    dsimp only
    show (Except.ok <$> add rules decl).run schema = _
    rw [StateT.run_map, run_add]
    cases schema.addDeclarations rules decl <;> rfl

/-- A builder that is given files one after the other ends with what `addFile` makes of them. -/
theorem run_forM_build_eq_ok_iff {config : Config} {files : List FileDecl} {start schema : Schema} :
    (files.forM fun decl => discard (build config decl)).run.run start = .ok (.ok (), schema) ↔
      files.foldlM (addFile config) start = .ok schema := by
  induction files generalizing start with
  | nil =>
    show Except.ok (Except.ok (), start) = Except.ok (Except.ok (), schema) ↔ Except.ok start = Except.ok schema
    simp
  | cons decl rest ih =>
    -- One call of the builder is one step of `foldlM`, but for where its failures end up.
    have hfirst : (discard (build config decl)).run.run start =
        match addFile config start decl with
        | .ok next => .ok (.ok (), next)
        | .error (.features file error) => .ok (.error (.features file error), start)
        | .error (.fault fault) => .error fault := by
      show ((fun _ => ()) <$> build config decl).run.run start = _
      rw [ExceptT.run_map, StateT.run_map, run_build]
      rcases addFile config start decl with (⟨file, error⟩ | fault) | next <;> rfl
    show (discard (build config decl) >>= fun _ =>
      rest.forM fun decl => discard (build config decl)).run.run start = _ ↔ _
    rw [ExceptT.run_bind, StateT.run_bind, hfirst, List.foldlM_cons]
    rcases addFile config start decl with (⟨file, error⟩ | fault) | next
    · exact iff_of_false (fun h => by cases h) (fun h => by cases h)
    · exact iff_of_false (fun h => by cases h) (fun h => by cases h)
    · exact ih

/-! ## Growth -/

/-- What `before` holds under a number or a name, `after` holds as well, and `Compiler.alone` gives the same
result in both; a builder gets from one to the other. An error of `build` leaves what is held. -/
theorem growth_keeps (building : Config) :
    (∀ {files added : List FileDecl} {after : Schema}, ofFiles building (files ++ added) = .ok after →
      ∃ before, ofFiles building files = .ok before ∧
        (added.forM fun decl => discard (build building decl)).run.run before = .ok (.ok (), after) ∧
        before.IsPartOf after ∧ before.KeepsNames after ∧
        ∀ config : Config, config.costThreshold < 2 ^ 32 → ∀ id ∈ before.messageIds,
          Compiler.alone config after id = Compiler.alone config before id) ∧
      ∀ {decl : FileDecl} {held left : Schema} {error : SchemaError},
        (build building decl).run.run held = .ok (.error error, left) → left = held := by
  refine ⟨fun {files added after} h => ?_, fun {decl held left error} h => ?_⟩
  · obtain ⟨before, hfiles, hadded⟩ := ofFiles_append_eq_ok_iff.1 h
    obtain ⟨hpart, hnames⟩ := isPartOf_foldlM hadded
    refine ⟨before, hfiles, run_forM_build_eq_ok_iff.2 hadded, hpart, keepsNames_of_isPartOf hnames,
      fun config hthreshold id hid => ?_⟩
    exact (agrees_of_isPartOf (isSound_ofFiles hfiles) hpart).alone_eq (isSound_ofFiles hfiles) (isSound_ofFiles h)
      (Nat.le_of_lt_succ hthreshold) hid
  · rw [run_build] at h
    rcases hadd : addFile building held decl with (⟨file, cause⟩ | fault) | next
    · rw [hadd] at h; cases h; rfl
    · rw [hadd] at h; cases h
    · rw [hadd] at h; cases h

/-- A map with a path on it, and an extension of lines. -/
def mapFile : FileDecl where
  name := "map.proto"
  messageType := [
    { name := "Map", field := [{ name := "path", number := 1, type := .message, typeName := some "Path" }] }]
  extension := [{ name := "color", number := 100, extendee := some ".Line" }]

theorem exists_ofFiles_map : ∃ after, ofFiles {} ([pathFile] ++ [mapFile]) = .ok after := by
  obtain ⟨before, hbefore⟩ := exists_ofFiles_path
  exact exists_ofFiles_pair (ofTable_proto2 rfl) hbefore proto2Rules rfl (by decide) (List.forall_mem_nil _) (by cbv)

/-- `mapFile` refers to a message of `pathFile` and extends one, and a third file lacks features: all messages
are compiled as before, and the builder still holds the first two files. -/
theorem growth_keeps_path :
    ∃ after, ofFiles {} ([pathFile] ++ [mapFile]) = .ok after ∧
      (∃ before, ofFiles {} [pathFile] = .ok before ∧
        (List.forM [mapFile] fun decl => discard (build {} decl)).run.run before = .ok (.ok (), after) ∧
        before.IsPartOf after ∧ before.KeepsNames after ∧
        ∀ id ∈ before.messageIds, Compiler.alone {} after id = Compiler.alone {} before id) ∧
      ∃ error, (build {} { name := "atlas.proto", syntaxName := some "editions" }).run.run after =
        .ok (.error error, after) := by
  obtain ⟨after, hafter⟩ := exists_ofFiles_map
  obtain ⟨hadded, hfailed⟩ := growth_keeps {}
  obtain ⟨before, hbefore, hrun, hpart, hnames, hresults⟩ := hadded hafter
  refine ⟨after, hafter, ⟨before, hbefore, hrun, hpart, hnames, hresults {} (by decide)⟩, ?_⟩
  obtain ⟨error, left, hleft⟩ : ∃ error left,
      (build {} { name := "atlas.proto", syntaxName := some "editions" }).run.run after =
        .ok (.error error, left) := ⟨_, _, rfl⟩
  exact ⟨error, hfailed hleft ▸ hleft⟩

end Schema

end SchemaLayout
