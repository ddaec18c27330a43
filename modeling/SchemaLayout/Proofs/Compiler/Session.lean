import Mathlib.Data.List.Dedup
import SchemaLayout.Compiler
import SchemaLayout.Proofs.Analysis.Initialization
import SchemaLayout.Proofs.Analysis.Storage
import SchemaLayout.Proofs.Layout.Codec
import SchemaLayout.Proofs.Layout.Tracking

/-!
# Sessions give the answers of a fresh start

A session remembers layouts' checks, storage decisions and compiled messages, and it goes on remembering
them when a message cannot be compiled. All of it is right (`Remembers`), so whatever has been asked for
before, and in which order, a session answers like one that was asked for nothing
(`answers_independent_of_calls`).

The messages that are remembered are those that were compiled. A call for a single message that cannot be
compiled adds none; a call for all messages stops at the first one that cannot be, and keeps those before it.
-/

namespace SchemaLayout

/-- `mapExcept` succeeds if `change` does for every target. -/
theorem PerTarget.mapExcept_eq_ok_iff {α β ε : Type} {change : α → Except ε β} {values : PerTarget α}
    {results : PerTarget β} :
    values.mapExcept change = .ok results ↔ ∀ target, change (values.get target) = .ok (results.get target) := by
  simp only [mapExcept, except_bind_eq_ok_iff]
  constructor
  · intro h
    rcases h with ⟨bits64, hbits64, bits32, hbits32, h⟩
    cases h
    intro target
    cases target with
    | bits64 => exact hbits64
    | bits32 => exact hbits32
  · intro h
    exact ⟨_, h .bits64, _, h .bits32, rfl⟩

namespace Compiler

variable {α β : Type} {session : Session}

/-! ## Answers -/

/-- What `computation` answers in `session`. -/
def answer (computation : Compiling α) (session : Session) : Except ProgramError α :=
  match computation.run session with
  | .ok a _ => .ok a
  | .error error _ => .error error

/-- The session that `computation` leaves, whether it fails or not. -/
def after (computation : Compiling α) (session : Session) : Session :=
  match computation.run session with
  | .ok _ next | .error _ next => next

/-- The `answer` of a sequence is that of `next` in the session `after` the first part. -/
theorem answer_bind (first : Compiling α) (next : α → Compiling β) :
    answer (first >>= next) session =
      answer first session >>= fun a => answer (next a) (after first session) := by
  simp only [answer, after, EStateM.run_bind]
  cases first.run session <;> rfl

/-- The session `after` a sequence, which ends early if the first part fails. -/
theorem after_bind (first : Compiling α) (next : α → Compiling β) :
    after (first >>= next) session =
      (answer first session).toOption.elim (after first session) fun a =>
        after (next a) (after first session) := by
  simp only [answer, after, EStateM.run_bind]
  cases first.run session <;> rfl

theorem answer_get_bind (next : Session → Compiling α) :
    answer (get >>= next) session = answer (next session) session :=
  rfl

theorem after_get_bind (next : Session → Compiling α) :
    after (get >>= next) session = after (next session) session :=
  rfl

/-! ## Messages that are not remembered -/

/-- What a message is compiled to, given its `layout` and `storage`. -/
def assemble (config : Config) (schema : Schema) (id : MessageId) (layout : MessageLayout)
    (storage : Storage.Decision) : Except ProgramError CompiledMessage :=
  layout.encode.map fun programs => assembled config schema id layout programs storage

/-- `assembled` keeps the programs of `config.targets`, in their order. -/
theorem map_fst_programs_assembled {config : Config} {schema : Schema} {id : MessageId} {layout : MessageLayout}
    {programs : PerTarget Program} {storage : Storage.Decision} :
    (assembled config schema id layout programs storage).programs.map (·.1) = config.targets := by
  rw [assembled, List.map_map]
  exact List.map_id _

/-- `compileMessage` looks in the session first, and else is `compileNew`. -/
theorem compileMessage_eq (config : Config) (schema : Schema) (id : MessageId) :
    compileMessage config schema id = get >>= fun session =>
      match session.messages[id]? with
      | some compiled => pure compiled
      | none => compileNew config schema id := by
  rw [compileMessage]
  refine congrArg _ (funext fun session => ?_)
  cases session.messages[id]? <;> rfl

variable {config : Config} {schema : Schema} {id : MessageId}

theorem run_layout : (layout schema id).run session =
    .ok ((schema.layout id).run session.initialization).1
      { session with initialization := ((schema.layout id).run session.initialization).2 } :=
  rfl

theorem run_storage : (storage config schema id).run session =
    .ok ((Storage.decide schema config.costThreshold id).run session.storage).1
      { session with
        storage := ((Storage.decide schema config.costThreshold id).run session.storage).2 } :=
  rfl

/-- One run of `compileNew`: a layout, its programs, a decision, and the entry in the session. -/
theorem run_compileNew : (compileNew config schema id).run session =
    let layout := (schema.layout id).run session.initialization
    let storage := (Storage.decide schema config.costThreshold id).run session.storage
    match assemble config schema id layout.1 storage.1 with
    | .error error => .error error { session with initialization := layout.2 }
    | .ok compiled => .ok compiled {
        initialization := layout.2, storage := storage.2
        messages := session.messages.insert id compiled } := by
  simp only [compileNew, assemble, EStateM.run_bind, run_layout, run_storage]
  cases ((schema.layout id).run session.initialization).1.encode with
  | error error => rfl
  | ok programs => rfl

/-- `compileNew` answers with `assemble`. -/
theorem answer_compileNew : answer (compileNew config schema id) session =
    assemble config schema id ((schema.layout id).run session.initialization).1
      ((Storage.decide schema config.costThreshold id).run session.storage).1 := by
  rw [answer, run_compileNew]
  simp only
  cases assemble config schema id ((schema.layout id).run session.initialization).1
    ((Storage.decide schema config.costThreshold id).run session.storage).1 <;> rfl

/-- When `assemble` succeeds, and with what. -/
theorem assemble_eq_ok_iff {layout : MessageLayout} {storage : Storage.Decision} {compiled : CompiledMessage} :
    assemble config schema id layout storage = .ok compiled ↔
      ∃ programs, layout.encode = .ok programs ∧
        compiled = assembled config schema id layout programs storage := by
  unfold assemble
  cases layout.encode with
  | error error => simp [Except.map]
  | ok programs => simp [Except.map, eq_comm]

/-- `assemble` succeeds exactly if `encode` writes a program for every target. -/
theorem exists_assemble_iff {layout : MessageLayout} {storage : Storage.Decision} :
    (∃ compiled, assemble config schema id layout storage = .ok compiled) ↔
      ∀ target, ∃ program, (layout.plans.get target).encode = .ok program := by
  constructor
  · intro h target
    obtain ⟨compiled, hcompiled⟩ := h
    obtain ⟨programs, hencode, _⟩ := assemble_eq_ok_iff.1 hcompiled
    exact ⟨_, PerTarget.mapExcept_eq_ok_iff.1 hencode target⟩
  · intro h
    choose program hprogram using h
    have hencode : layout.encode = .ok (.ofTarget program) :=
      PerTarget.mapExcept_eq_ok_iff.2 fun target => (PerTarget.get_ofTarget program target).symm ▸ hprogram target
    exact ⟨_, assemble_eq_ok_iff.2 ⟨_, hencode, rfl⟩⟩

/-! ## Calls -/

/-- The answer of `compileMessage` from `.start`. -/
def alone (config : Config) (schema : Schema) (id : MessageId) :
    Except ProgramError CompiledMessage :=
  answer (compileMessage config schema id) .start

/-- The messages of `ids` up to the first for which `alone` fails. -/
def compilable (config : Config) (schema : Schema) (ids : List MessageId) : List MessageId :=
  ids.takeWhile fun id => (alone config schema id).isOk

theorem compilable_nil : compilable config schema [] = [] :=
  rfl

theorem compilable_cons_of_ok {result : CompiledMessage} (h : alone config schema id = .ok result)
    (rest : List MessageId) :
    compilable config schema (id :: rest) = id :: compilable config schema rest := by
  rw [compilable, List.takeWhile_cons_of_pos (by rw [h]; rfl)]
  rfl

theorem compilable_cons_of_error {error : ProgramError} (h : alone config schema id = .error error)
    (rest : List MessageId) : compilable config schema (id :: rest) = [] := by
  rw [compilable, List.takeWhile_cons_of_neg (by rw [h]; exact Bool.false_ne_true)]

/-- What a session can be asked for: one message, or all of them. -/
inductive Call where
  | message (id : MessageId)
  | all
  deriving DecidableEq

/-- The messages that a call is about, in the order in which they are compiled. -/
def Call.messages (schema : Schema) : Call → List MessageId
  | message id => [id]
  | all => schema.messageIds

/-- The session after a call, whether it fails or not. -/
def afterCall (config : Config) (schema : Schema) (session : Session) : Call → Session
  | .message id => after (compileMessage config schema id) session
  | .all => after (compileAll config schema) session

/-- The session after `calls`, made one after the other from `.start`. -/
def afterCalls (config : Config) (schema : Schema) (calls : List Call) : Session :=
  calls.foldl (afterCall config schema) .start

/-- The messages that `calls` compile: for each call, its messages as far as they are `compilable`. -/
def compiledBy (config : Config) (schema : Schema) (calls : List Call) : List MessageId :=
  calls.flatMap fun call => compilable config schema (call.messages schema)

/-! ## What a session remembers -/

/-- What the session knows of checks and decisions is correct, and its messages are those in `compiled`, with
the results of `alone`. -/
structure Remembers (config : Config) (schema : Schema) (decisions : MessageId → Storage.Decision)
    (compiled : List MessageId) (session : Session) : Prop where
  initialization : Initialization.IsCorrect schema session.initialization
  storage : Storage.IsCorrect schema decisions session.storage
  messages : ∀ id, session.messages[id]? =
    if id ∈ compiled then (alone config schema id).toOption else none

section

variable {decisions : MessageId → Storage.Decision} {compiled : List MessageId}

/-- `.start` remembers nothing. -/
theorem remembers_start : Remembers config schema decisions [] .start where
  initialization := Initialization.isCorrect_empty
  storage := Storage.isCorrect_empty
  messages _ := Std.HashMap.getElem?_empty

variable (hsound : schema.IsSound) (hthreshold : config.costThreshold ≤ Storage.maxCost)
  (hrule : Storage.FollowsRule schema config.costThreshold decisions)

include hsound hthreshold hrule

/-- `alone` assembles the message's own layout and its value in `decisions`. -/
theorem alone_eq (hid : id ∈ schema.messageIds) : alone config schema id =
    assemble config schema id ((schema.layout id).run ∅).1 (decisions id) := by
  obtain ⟨hdecision, _⟩ := Storage.run_decide hsound hthreshold hrule hid Storage.isCorrect_empty
  rw [alone, compileMessage_eq, answer_get_bind,
    show Session.start.messages[id]? = none from Std.HashMap.getElem?_empty, ← hdecision]
  exact answer_compileNew

/-- `compileNew` answers as `alone` and keeps `Remembers`, with the message added if it is `compilable`. -/
theorem compileNew_spec (h : Remembers config schema decisions compiled session)
    (hid : id ∈ schema.messageIds) :
    answer (compileNew config schema id) session = alone config schema id ∧
      Remembers config schema decisions (compiled ++ compilable config schema [id])
        (after (compileNew config schema id) session) := by
  obtain ⟨hlayout, hinitialization⟩ :=
    Schema.isSteady_layout schema id session.initialization h.initialization
  obtain ⟨hdecision, hstorage⟩ := Storage.run_decide hsound hthreshold hrule hid h.storage
  have hrun : (compileNew config schema id).run session = _ := run_compileNew
  simp only [hlayout, hdecision, ← alone_eq hsound hthreshold hrule hid] at hrun
  rw [answer, after, hrun]
  cases hresult : alone config schema id with
  -- Nothing is remembered of the message but the checks that its layout asked for.
  | error error =>
    rw [compilable_cons_of_error hresult, List.append_nil]
    exact ⟨rfl, hinitialization, h.storage, h.messages⟩
  | ok result =>
    rw [compilable_cons_of_ok hresult]
    refine ⟨rfl, hinitialization, hstorage, fun other => ?_⟩
    rw [Std.HashMap.getElem?_insert, compilable_nil]
    by_cases hsame : id = other
    · subst hsame
      rw [if_pos (beq_self_eq_true id), if_pos (List.mem_append_right _ List.mem_cons_self), hresult]
      rfl
    · have hmem : other ∈ compiled ++ [id] ↔ other ∈ compiled := by
        rw [List.mem_append, List.mem_singleton, or_iff_left fun heq => hsame heq.symm]
      rw [if_neg (by rwa [beq_iff_eq]), h.messages other]
      exact if_congr hmem.symm rfl rfl

/-- `compileMessage` answers as `alone` and keeps `Remembers`, with the message added if it is `compilable`. -/
theorem compileMessage_spec (h : Remembers config schema decisions compiled session)
    (hid : id ∈ schema.messageIds) :
    answer (compileMessage config schema id) session = alone config schema id ∧
      Remembers config schema decisions (compiled ++ compilable config schema [id])
        (after (compileMessage config schema id) session) := by
  rw [compileMessage_eq, answer_get_bind, after_get_bind]
  cases hcached : session.messages[id]? with
  | none => exact compileNew_spec hsound hthreshold hrule h hid
  | some found =>
    -- What is remembered is what would be compiled again.
    have hknown := h.messages id
    rw [hcached] at hknown
    split at hknown
    · next hmem =>
      have hresult : alone config schema id = .ok found := by
        cases hresult : alone config schema id with
        | error error => rw [hresult] at hknown; cases hknown
        | ok result => rw [hresult] at hknown; exact congrArg Except.ok (Option.some.inj hknown).symm
      refine ⟨hresult.symm, h.initialization, h.storage, fun other => ?_⟩
      rw [compilable_cons_of_ok hresult]
      refine (h.messages other).trans (if_congr ?_ rfl rfl)
      rw [List.mem_append, compilable_nil, List.mem_singleton]
      exact ⟨Or.inl, fun hother => hother.elim (fun hmem => hmem) fun heq => heq ▸ hmem⟩
    · cases hknown

/-- `compileMessage` for `ids`, one after the other, answers as `alone` for all of them and keeps `Remembers`,
with those added that are `compilable`. -/
theorem mapM_compileMessage_spec {ids : List MessageId} (hids : ∀ id ∈ ids, id ∈ schema.messageIds)
    (h : Remembers config schema decisions compiled session) :
    answer (ids.mapM (compileMessage config schema)) session = ids.mapM (alone config schema) ∧
      Remembers config schema decisions (compiled ++ compilable config schema ids)
        (after (ids.mapM (compileMessage config schema)) session) := by
  induction ids generalizing compiled session with
  | nil =>
    refine ⟨rfl, ?_⟩
    rw [compilable_nil, List.append_nil]
    exact h
  | cons id rest ih =>
    obtain ⟨hid, hrest⟩ := List.forall_mem_cons.1 hids
    obtain ⟨hanswer, hnext⟩ := compileMessage_spec hsound hthreshold hrule h hid
    rw [List.mapM_cons, List.mapM_cons, answer_bind, after_bind, hanswer]
    cases hresult : alone config schema id with
    -- The rest is not compiled, in the session as by itself.
    | error error =>
      rw [compilable_cons_of_error hresult] at hnext ⊢
      exact ⟨rfl, hnext⟩
    | ok result =>
      rw [compilable_cons_of_ok hresult] at hnext ⊢
      obtain ⟨hothers, hlast⟩ := ih hrest hnext
      rw [compilable_nil, List.append_assoc, List.singleton_append] at hlast
      show answer (rest.mapM _ >>= fun others => pure (result :: others)) _ = _ ∧
        Remembers _ _ _ _ (after (rest.mapM _ >>= fun others => pure (result :: others)) _)
      rw [answer_bind, after_bind, hothers]
      cases rest.mapM (alone config schema) <;> exact ⟨rfl, hlast⟩

/-- A call keeps `Remembers`, with its `compilable` messages added. -/
theorem remembers_afterCall {call : Call}
    (hcall : ∀ id ∈ call.messages schema, id ∈ schema.messageIds)
    (h : Remembers config schema decisions compiled session) :
    Remembers config schema decisions (compiled ++ compilable config schema (call.messages schema))
      (afterCall config schema session call) := by
  cases call with
  | message id =>
    exact (compileMessage_spec hsound hthreshold hrule h (hcall id List.mem_cons_self)).2
  | all => exact (mapM_compileMessage_spec hsound hthreshold hrule hcall h).2

/-- Any `calls` keep `Remembers`, with `compiledBy` added. -/
theorem remembers_foldl_afterCall {calls : List Call}
    (hcalls : ∀ call ∈ calls, ∀ id ∈ call.messages schema, id ∈ schema.messageIds)
    (h : Remembers config schema decisions compiled session) :
    Remembers config schema decisions (compiled ++ compiledBy config schema calls)
      (calls.foldl (afterCall config schema) session) := by
  induction calls generalizing compiled session with
  | nil =>
    rw [compiledBy, List.flatMap_nil, List.append_nil]
    exact h
  | cons call rest ih =>
    obtain ⟨hcall, hrest⟩ := List.forall_mem_cons.1 hcalls
    rw [compiledBy, List.flatMap_cons, ← List.append_assoc]
    exact ih hrest (remembers_afterCall hsound hthreshold hrule hcall h)

/-- From `.start`, a session remembers `compiledBy`. -/
theorem remembers_afterCalls {calls : List Call}
    (hcalls : ∀ id, .message id ∈ calls → id ∈ schema.messageIds) :
    Remembers config schema decisions (compiledBy config schema calls) (afterCalls config schema calls) := by
  have habout : ∀ call ∈ calls, ∀ id ∈ call.messages schema, id ∈ schema.messageIds := by
    intro call hcall id hid
    cases call with
    | message other =>
      rw [List.mem_singleton.1 hid]
      exact hcalls other hcall
    | all => exact hid
  exact remembers_foldl_afterCall hsound hthreshold hrule habout remembers_start

/-- `alone` succeeds exactly if the plans for both targets satisfy `Fits`. -/
theorem exists_alone_eq_ok_iff (hid : id ∈ schema.messageIds) :
    (∃ result, alone config schema id = .ok result) ↔
      ∀ target, (((schema.layout id).run ∅).1.plans.get target).Fits := by
  rw [alone_eq hsound hthreshold hrule hid, exists_assemble_iff]
  exact forall_congr' fun _ => LayoutPlan.exists_encode_iff

/-- If `alone` fails, `compileMessage` leaves the messages of the session. -/
theorem messages_after_of_error (h : Remembers config schema decisions compiled session)
    (hid : id ∈ schema.messageIds) {error : ProgramError} (herror : alone config schema id = .error error) :
    (after (compileMessage config schema id) session).messages = session.messages := by
  obtain ⟨hlayout, _⟩ :=
    Schema.isSteady_layout schema id session.initialization h.initialization
  obtain ⟨hdecision, _⟩ := Storage.run_decide hsound hthreshold hrule hid h.storage
  have hnew : session.messages[id]? = none := by
    rw [h.messages id, herror]
    exact ite_self none
  have hrun : (compileNew config schema id).run session = _ := run_compileNew
  simp only [hlayout, hdecision, ← alone_eq hsound hthreshold hrule hid, herror] at hrun
  rw [compileMessage_eq, after_get_bind, hnew, after, hrun]

end

/-- `alone` succeeds for what is `compilable`. -/
theorem exists_of_mem_compilable {ids : List MessageId} (h : id ∈ compilable config schema ids) :
    ∃ result, alone config schema id = .ok result := by
  have hok := List.mem_takeWhile_imp h
  cases hresult : alone config schema id with
  | error error => rw [hresult] at hok; cases hok
  | ok result => exact ⟨result, rfl⟩

/-- `cached` counts the messages in `compiled`, each once. -/
theorem Remembers.cached_eq {decisions : MessageId → Storage.Decision} {compiled : List MessageId}
    (h : Remembers config schema decisions compiled session)
    (hcompiled : ∀ id ∈ compiled, ∃ result, alone config schema id = .ok result) :
    session.cached = compiled.dedup.length := by
  have hperm : session.messages.keys.Perm compiled.dedup := by
    refine (List.perm_ext_iff_of_nodup Std.HashMap.nodup_keys (List.nodup_dedup _)).2 fun id => ?_
    rw [Std.HashMap.mem_keys, List.mem_dedup, ← Std.HashMap.isSome_getElem?_iff_mem, h.messages id]
    split
    · next hmem =>
      obtain ⟨result, hresult⟩ := hcompiled id hmem
      rw [hresult]
      exact iff_of_true rfl hmem
    · next hmem => exact iff_of_false Bool.false_ne_true hmem
  rw [Session.cached, ← Std.HashMap.length_keys, hperm.length_eq]

/-- After any `calls`, `compileMessage` answers what `assemble` makes of the message's own layout. -/
theorem exists_answer_eq_assemble {building : Config} {files : List FileDecl}
    (hfiles : Schema.ofFiles building files = .ok schema) (hthreshold : config.costThreshold < 2 ^ 32)
    {calls : List Call} (hcalls : ∀ other, .message other ∈ calls → other ∈ schema.messageIds)
    (hid : id ∈ schema.messageIds) :
    ∃ storage, answer (compileMessage config schema id) (afterCalls config schema calls) =
      assemble config schema id ((schema.layout id).run ∅).1 storage := by
  have hsound := Schema.isSound_ofFiles hfiles
  have hlimit : config.costThreshold ≤ Storage.maxCost := Nat.le_of_lt_succ hthreshold
  obtain ⟨decisions, hrule, _⟩ := Storage.existsUnique_followsRule hsound config.costThreshold
  have hremembers := remembers_afterCalls hsound hlimit hrule hcalls
  refine ⟨decisions id, ?_⟩
  rw [(compileMessage_spec hsound hlimit hrule hremembers hid).1, alone_eq hsound hlimit hrule hid]

/-- After any `calls`, `compileMessage` answers as `alone` does and `compileAll` as `alone` for all messages. A
failing `compileMessage` leaves the messages that are remembered, and these are always `compiledBy` the calls,
where `.all` compiles up to its first failure. -/
theorem answers_independent_of_calls {building : Config} {files : List FileDecl}
    (hfiles : Schema.ofFiles building files = .ok schema) (hthreshold : config.costThreshold < 2 ^ 32)
    {calls : List Call} (hcalls : ∀ id, .message id ∈ calls → id ∈ schema.messageIds) :
    let session := afterCalls config schema calls
    (∀ id ∈ schema.messageIds,
        answer (compileMessage config schema id) session = alone config schema id) ∧
      answer (compileAll config schema) session = schema.messageIds.mapM (alone config schema) ∧
      (∀ id ∈ schema.messageIds, ∀ error, alone config schema id = .error error →
        (after (compileMessage config schema id) session).messages = session.messages) ∧
      (∀ id, session.messages[id]? = if id ∈ compiledBy config schema calls
        then (alone config schema id).toOption else none) ∧
      session.cached = (compiledBy config schema calls).dedup.length := by
  have hsound := Schema.isSound_ofFiles hfiles
  have hlimit : config.costThreshold ≤ Storage.maxCost := Nat.le_of_lt_succ hthreshold
  obtain ⟨decisions, hrule, _⟩ := Storage.existsUnique_followsRule hsound config.costThreshold
  have hremembers := remembers_afterCalls hsound hlimit hrule hcalls
  refine ⟨fun id hid => ?_, ?_, fun id hid error herror => ?_, hremembers.messages,
    hremembers.cached_eq fun id hid => ?_⟩
  · exact (compileMessage_spec hsound hlimit hrule hremembers hid).1
  · exact (mapM_compileMessage_spec hsound hlimit hrule (fun _ hid => hid) hremembers).1
  · exact messages_after_of_error hsound hlimit hrule hremembers hid herror
  · obtain ⟨call, _, hmem⟩ := List.mem_flatMap.1 hid
    exact exists_of_mem_compilable hmem

/-! ## A call that fails halfway -/

open Schema (ofFiles)

/-- An empty message, and one with so many oneofs that the slot of the last one is out of reach. -/
def crowdedFile : FileDecl where
  name := "crowded.proto"
  messageType := [
    { name := "Empty" },
    { name := "Crowded"
      field := [{ name := "last", number := 1, oneofIndex := some 2047 }]
      oneofDecl := List.replicate 2048 {} }]

theorem exists_ofFiles_crowded : ∃ schema, ofFiles {} [crowdedFile] = .ok schema :=
  Schema.exists_ofFiles_proto2 crowdedFile rfl rfl (by decide +kernel)

section

variable (hschema : ofFiles {} [crowdedFile] = .ok schema)

include hschema

theorem messageIds_crowded : schema.messageIds = [⟨0⟩, ⟨1⟩] := by
  rw [Schema.messageIds, Schema.messages_of_ofFiles (Schema.ofTable_proto2 rfl) hschema]
  decide +kernel

/-- The slot of the last oneof begins with byte 8192, so the plan does not satisfy `Fits`. -/
theorem not_fits_crowded : ¬ (((schema.layout ⟨1⟩).run ∅).1.plans.get .bits64).Fits := by
  have hmessages := Schema.messages_of_ofFiles (Schema.ofTable_proto2 rfl) hschema
  have hid : ⟨1⟩ ∈ schema.messageIds := by
    rw [messageIds_crowded hschema]
    decide
  have hfields := Schema.fieldsOf_of_ofFiles (Schema.ofTable_proto2 rfl) hschema (by decide +kernel) ⟨1⟩
  have hlength : (schema.fieldsOf ⟨1⟩).length = 1 := by
    rw [hfields]
    decide +kernel
  obtain ⟨field, hfield, honeof⟩ : ∃ field ∈ schema.fieldsOf ⟨1⟩, field.oneof = some ⟨2047⟩ := by
    rw [hfields]
    decide +kernel
  have hwritten : (schema.oneof ⟨2047⟩).isSynthetic = false := by
    rw [Schema.oneof, Schema.oneofs_of_ofFiles (Schema.ofTable_proto2 rfl) hschema]
    decide +kernel
  have hrealOneofs : (schema.message ⟨1⟩).realOneofs = (List.range 2048).map .mk := by
    rw [Schema.message, hmessages]
    decide +kernel
  have htracks := Schema.tracksPresence_plan hschema hid (schema.isOf_shapes ⟨1⟩ ∅)
    (Placement.submessages ((schema.shapes ⟨1⟩).run ∅).1) .bits64
  obtain ⟨entry, hentry, rfl⟩ := List.mem_map.1 (htracks.fields.mem_iff.2 hfield)
  have hreal : schema.realOneof? entry.1 = some ⟨2047⟩ := by
    rw [Schema.realOneof?, honeof, Option.filter_some, hwritten]
    rfl
  -- The only field is in the last oneof, whose slot is behind 2047 others.
  obtain ⟨place, hplace, hpresence⟩ := htracks.slotOffset entry hentry _ hreal
  have hindex : place = 2047 := by
    rw [Schema.writtenOneofs, ← Schema.realOneofs_eq_filter hschema hid, hrealOneofs,
      List.getElem?_map, Option.map_eq_some_iff] at hplace
    obtain ⟨index, hindex, honeof⟩ := hplace
    rw [← OneofId.mk.inj honeof, ← (List.getElem?_eq_some_iff.1 hindex).2, List.getElem_range]
  intro hfits
  have hrecord := (hfits.records entry.2 (htracks.records ▸ List.mem_map_of_mem hentry)).presence
  rw [hpresence, hlength, hindex] at hrecord
  have hslot : alignUp 4 ((1 + 7) / 8) + 4 * 2047 < 0x2000 := hrecord
  exact absurd hslot (by decide)

theorem fits_empty (target : Target) : (((schema.layout ⟨0⟩).run ∅).1.plans.get target).Fits := by
  have hshapes := schema.isOf_shapes ⟨0⟩ ∅
  have hnone : schema.fieldsByNumber ⟨0⟩ = [] := by
    rw [Schema.fieldsByNumber, Schema.message,
      Schema.messages_of_ofFiles (Schema.ofTable_proto2 rfl) hschema, List.map_eq_nil_iff]
    decide +kernel
  rw [hnone, List.forall₂_nil_left_iff] at hshapes
  show ((Placement.layout ((schema.shapes ⟨0⟩).run ∅).1).plans.get target).Fits
  rw [hshapes]
  cases target <;>
    exact ⟨⟨by decide, by decide, by decide, by decide, by decide⟩, List.forall_mem_nil _⟩

/-- Only the empty one of the two messages is `compilable`. -/
theorem compilable_crowded : compilable {} schema schema.messageIds = [⟨0⟩] ∧
    ∃ error, alone {} schema ⟨1⟩ = .error error := by
  have hsound := Schema.isSound_ofFiles hschema
  have hthreshold : ({} : Config).costThreshold ≤ Storage.maxCost := by decide
  obtain ⟨decisions, hrule, _⟩ := Storage.existsUnique_followsRule hsound ({} : Config).costThreshold
  have hids := messageIds_crowded hschema
  have hempty : ∃ result, alone {} schema ⟨0⟩ = .ok result :=
    (exists_alone_eq_ok_iff hsound hthreshold hrule (hids ▸ List.mem_cons_self)).2
      (fits_empty hschema)
  have hcrowded : ¬ ∃ result, alone {} schema ⟨1⟩ = .ok result := fun hresult =>
    not_fits_crowded hschema ((exists_alone_eq_ok_iff hsound hthreshold hrule
      (hids ▸ List.mem_cons_of_mem _ List.mem_cons_self)).1 hresult .bits64)
  obtain ⟨result, hresult⟩ := hempty
  cases herror : alone {} schema ⟨1⟩ with
  | ok result => exact absurd ⟨result, herror⟩ hcrowded
  | error error =>
    rw [hids, compilable_cons_of_ok hresult, compilable_cons_of_error herror]
    exact ⟨rfl, error, rfl⟩

end

/-- `compileAll` fails for `crowdedFile`, and after that the session remembers one message. -/
theorem compileAll_fails_crowded :
    ∃ schema, ofFiles {} [crowdedFile] = .ok schema ∧
      (∃ error, answer (compileAll {} schema) .start = .error error) ∧
      Session.start.cached = 0 ∧ (after (compileAll {} schema) .start).cached = 1 := by
  obtain ⟨schema, hschema⟩ := exists_ofFiles_crowded
  obtain ⟨hcompilable, error, herror⟩ := compilable_crowded hschema
  have hsound := Schema.isSound_ofFiles hschema
  obtain ⟨decisions, hrule, _⟩ := Storage.existsUnique_followsRule hsound ({} : Config).costThreshold
  obtain ⟨hanswer, hremembers⟩ := mapM_compileMessage_spec hsound (by decide) hrule
    (fun _ hid => hid) remembers_start
  refine ⟨schema, hschema, ?_, rfl, ?_⟩
  · -- The second message has no program, so there are no results of all of them.
    rw [compileAll, hanswer]
    cases hall : schema.messageIds.mapM (alone {} schema) with
    | error error => exact ⟨error, rfl⟩
    | ok results =>
      have hplace : schema.messageIds[1]? = some ⟨1⟩ := by
        rw [messageIds_crowded hschema]
        rfl
      obtain ⟨result, _, hresult⟩ := exists_getElem?_of_mapM hall hplace
      rw [herror] at hresult
      cases hresult
  · refine (hremembers.cached_eq fun id hid => ?_).trans ?_
    · exact exists_of_mem_compilable hid
    · rw [List.nil_append, hcompilable]
      rfl

/-- After `.all`, which fails halfway, the empty message is remembered, and both messages are answered as from
`.start`. -/
theorem answers_independent_of_calls_crowded :
    ∃ schema, ofFiles {} [crowdedFile] = .ok schema ∧
      let session := afterCalls {} schema [.all, .message ⟨1⟩]
      answer (compileMessage {} schema ⟨0⟩) session = alone {} schema ⟨0⟩ ∧
        answer (compileMessage {} schema ⟨1⟩) session = alone {} schema ⟨1⟩ ∧
        session.cached = 1 := by
  obtain ⟨schema, hschema⟩ := exists_ofFiles_crowded
  obtain ⟨hcompilable, error, herror⟩ := compilable_crowded hschema
  have hids := messageIds_crowded hschema
  have hcrowded : ⟨1⟩ ∈ schema.messageIds := hids ▸ List.mem_cons_of_mem _ List.mem_cons_self
  have hcalls : ∀ id, Call.message id ∈ [.all, .message ⟨1⟩] → id ∈ schema.messageIds := by
    intro id hid
    obtain rfl : id = ⟨1⟩ := by simpa using hid
    exact hcrowded
  obtain ⟨hanswers, _, _, _, hcached⟩ := answers_independent_of_calls hschema
    (show ({} : Config).costThreshold < 2 ^ 32 by decide) hcalls
  refine ⟨schema, hschema, hanswers _ (hids ▸ List.mem_cons_self), hanswers _ hcrowded,
    hcached.trans ?_⟩
  rw [compiledBy, List.flatMap_cons, List.flatMap_cons, Call.messages, Call.messages, hcompilable,
    compilable_cons_of_error herror]
  rfl

end Compiler

end SchemaLayout
