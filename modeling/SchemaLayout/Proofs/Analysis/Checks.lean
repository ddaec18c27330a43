import SchemaLayout.Proofs.Analysis.Reachability
import SchemaLayout.Proofs.Layout.SubmessageTable
import SchemaLayout.Proofs.Schema.LoneFields

/-!
# Answers about missing fields

Whatever an analysis was asked for before, be it messages or layouts, what it remembers is what a walk comes to
(`isCorrect_afterRequests`). So its answers are about references between messages and not about the order of the
questions: a message must be checked exactly if one that can be reached from it can lack a required field, and what
the table of a layout says of a type is the answer for the message of this name (`needsCheck_iff_mustCheck`).
-/

namespace SchemaLayout.Initialization

open Relation

/-! ## Requests -/

/-- What an analysis is asked for: `needsCheck` of a message, or its `layout`. -/
inductive Request where
  | check (id : MessageId)
  | layout (id : MessageId)

/-- The memo after a request. -/
def afterRequest (schema : Schema) (memo : Memo) : Request → Memo
  | .check id => ((needsCheck schema id).run memo).2
  | .layout id => ((schema.layout id).run memo).2

/-- The memo after `requests`, made one after the other from an empty one. -/
def afterRequests (schema : Schema) (requests : List Request) : Memo :=
  requests.foldl (afterRequest schema) ∅

variable {schema : Schema} {memo : Memo}

/-- A request keeps the memo `IsCorrect`. -/
theorem IsCorrect.afterRequest (h : IsCorrect schema memo) (request : Request) :
    IsCorrect schema (afterRequest schema memo request) := by
  cases request with
  | check id => exact (isSteady_needsCheck schema id memo h).2
  | layout id => exact (schema.isSteady_layout id memo h).2

/-- `afterRequests` is `IsCorrect`, whatever the requests are. -/
theorem isCorrect_afterRequests (schema : Schema) (requests : List Request) :
    IsCorrect schema (afterRequests schema requests) :=
  List.foldlRecOn requests (afterRequest schema) (motive := IsCorrect schema) isCorrect_empty
    fun _ hmemo request _ => hmemo.afterRequest request

/-! ## Answers -/

/-- Along `Refers`, the message reaches one with `CanLack`, if it is none itself. -/
def MustCheck (schema : Schema) (id : MessageId) : Prop :=
  ∃ other, ReflTransGen (Refers schema) id other ∧ CanLack schema other

/-- With a correct memo, `needsCheck` answers what `walked` says. -/
theorem needsCheck_eq_walked (hmemo : IsCorrect schema memo) (id : MessageId) :
    ((needsCheck schema id).run memo).1 = walked schema id := by
  rw [(isSteady_needsCheck schema id memo hmemo).1, run_needsCheck_empty]

/-- Every entry of `submessages` has the full name of a message with `Refers schema id`, and the value of
`walked` for it. -/
theorem exists_refers_of_mem_submessages (hsound : schema.IsSound) (hmemo : IsCorrect schema memo) {id : MessageId}
    {info : Submessage} (hinfo : info ∈ ((schema.layout id).run memo).1.submessages) :
    ∃ target, Refers schema id target ∧ (schema.message target).fullName = info.typeName ∧
      info.needsCheck = walked schema target := by
  rw [(schema.isSteady_layout id memo hmemo).1, Schema.run_layout] at hinfo
  obtain ⟨shape, hshape, ref, href, hname, hcheck⟩ := Placement.exists_ref_of_mem_submessages hinfo
  obtain ⟨field, hfield, rfl⟩ := List.mem_map.1 hshape
  have hmem : field ∈ schema.fieldsOf id := (hsound.fieldsByNumber_perm id).subset hfield
  have hrun : ((schema.submessageRef field).run ∅).1 = some ref := href
  rw [Schema.run_submessageRef, Option.map_eq_some_iff] at hrun
  obtain ⟨target, htarget, rfl⟩ := hrun
  exact ⟨target, ⟨field, hmem, htarget⟩, hname.symm, hcheck⟩

/-- After any `requests`, `needsCheck` answers `MustCheck`. Each entry of a layout's `submessages` names exactly
one message, with `MustCheck` of that message as `needsCheck`. -/
theorem needsCheck_iff_mustCheck {config : Config} {files : List FileDecl}
    (hfiles : Schema.ofFiles config files = .ok schema) (requests : List Request) {id : MessageId}
    (hid : id ∈ schema.messageIds) :
    (((needsCheck schema id).run (afterRequests schema requests)).1 = true ↔ MustCheck schema id) ∧
      ∀ info ∈ ((schema.layout id).run (afterRequests schema requests)).1.submessages,
        ∃ target ∈ schema.messageIds, Refers schema id target ∧
          (∀ other ∈ schema.messageIds, (schema.message other).fullName = info.typeName ↔ other = target) ∧
          (info.needsCheck = true ↔ MustCheck schema target) := by
  have hsound := Schema.isSound_ofFiles hfiles
  have hmemo := isCorrect_afterRequests schema requests
  constructor
  · rw [needsCheck_eq_walked hmemo]
    exact walked_eq_true_iff hsound hid
  · intro info hinfo
    obtain ⟨target, hrefers, hname, hcheck⟩ := exists_refers_of_mem_submessages hsound hmemo hinfo
    have htarget := hrefers.mem_messageIds hsound
    -- Full names differ, so no other message goes by the name in the entry.
    refine ⟨target, htarget, hrefers, ?_, ?_⟩
    · intro other hother
      constructor
      · intro hsame
        exact hsound.eq_of_fullName_eq hother htarget (hsame.trans hname.symm)
      · intro hsame
        rw [hsame, hname]
    · rw [hcheck]
      exact walked_eq_true_iff hsound htarget

/-! ## Pets and their owners -/

/-- Pets and owners refer to each other, and owners have a required name. -/
def petsFile : FileDecl where
  name := "pets.proto"
  messageType := [
    { name := "Pet", field := [{ name := "owner", number := 1, type := .message, typeName := some "Owner" }] },
    { name := "Owner"
      field := [
        { name := "pets", number := 1, label := .repeated, type := .message, typeName := some ".Pet" },
        { name := "name", number := 2, label := .required }] },
    { name := "Toy", field := [{ name := "part", number := 1, type := .message, typeName := some "Toy" }] }]

/-- `MustCheck` holds of pets by the names of their owners, also with a memo that knows owners. -/
theorem needsCheck_iff_mustCheck_pet :
    ∃ schema, Schema.ofFiles {} [petsFile] = .ok schema ∧
      let memo := afterRequests schema [.check ⟨2⟩, .layout ⟨1⟩]
      ((needsCheck schema ⟨0⟩).run memo).1 = true ∧
        ∀ info ∈ ((schema.layout ⟨0⟩).run memo).1.submessages, ∃ target ∈ schema.messageIds,
          Refers schema ⟨0⟩ target ∧
          (∀ other ∈ schema.messageIds, (schema.message other).fullName = info.typeName ↔ other = target) ∧
          (info.needsCheck = true ↔ MustCheck schema target) := by
  obtain ⟨schema, hschema⟩ := Schema.exists_ofFiles_proto2 petsFile rfl rfl (by cbv)
  have hid : ⟨0⟩ ∈ schema.messageIds := by
    rw [Schema.mem_messageIds, Schema.messages_of_ofFiles (Schema.ofTable_proto2 rfl) hschema]
    decide
  obtain ⟨hiff, hinfos⟩ := needsCheck_iff_mustCheck hschema [.check ⟨2⟩, .layout ⟨1⟩] hid
  have howner : ∃ field ∈ schema.fieldsOf ⟨0⟩, field.messageType? = some ⟨1⟩ := by
    rw [Schema.fieldsOf_eq_fieldAmong (Schema.ofTable_proto2 rfl) hschema]
    decide +kernel
  have hname : ∃ field ∈ schema.fieldsOf ⟨1⟩, field.isRequired = true := by
    rw [Schema.fieldsOf_eq_fieldAmong (Schema.ofTable_proto2 rfl) hschema]
    decide
  refine ⟨schema, hschema, hiff.2 ⟨⟨1⟩, ReflTransGen.single howner, Or.inr hname⟩, hinfos⟩

end SchemaLayout.Initialization
