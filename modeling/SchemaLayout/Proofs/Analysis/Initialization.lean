import SchemaLayout.Layout.OfMessage
import SchemaLayout.Proofs.Data.State

/-!
# Layouts do not depend on what is known

The layout of a message asks of other messages whether they need the check for missing required fields, and
the answers are remembered. What is remembered of a message is what a walk from it comes to
(`IsCorrect`), so the answers, and with them the layout, are the same as if nothing were remembered
(`Schema.isSteady_layout`).
-/

namespace SchemaLayout

namespace Initialization

variable {schema : Schema} {memo : Memo} {α β : Type}

/-! ## The memo -/

/-- The answer of `walk` from a message, with nothing visited before. -/
def walked (schema : Schema) (id : MessageId) : Bool :=
  ((walk schema (depthLimit schema) id).run ∅).1

/-- Every entry of `memo` is the value of `walked`. -/
def IsCorrect (schema : Schema) (memo : Memo) : Prop :=
  ∀ id needed, memo[id]? = some needed → needed = walked schema id

theorem isCorrect_empty : IsCorrect schema ∅ := by
  intro id needed h
  simp at h

/-- Entering the value of `walked` keeps a memo correct. -/
theorem IsCorrect.insert (h : IsCorrect schema memo) (id : MessageId) :
    IsCorrect schema (memo.insert id (walked schema id)) := by
  intro other needed hother
  rw [Std.HashMap.getElem?_insert] at hother
  split at hother
  · next hsame =>
    rw [← eq_of_beq hsame]
    exact (Option.some.inj hother).symm
  · exact h other needed hother

/-! ## Steady computations -/

/-- With a correct memo, `computation` has the result that it has with `∅`, and leaves a correct memo. -/
def IsSteady (schema : Schema) (computation : StateM Memo α) : Prop :=
  ∀ memo, IsCorrect schema memo → (computation.run memo).1 = (computation.run ∅).1 ∧
    IsCorrect schema (computation.run memo).2

/-- `pure a` does not look at the memo. -/
theorem isSteady_pure (a : α) : IsSteady schema (pure a) :=
  fun _ hmemo => ⟨rfl, hmemo⟩

/-- `IsSteady` goes through `>>=`. -/
theorem IsSteady.bind {computation : StateM Memo α} {next : α → StateM Memo β}
    (h : IsSteady schema computation) (hnext : ∀ a, IsSteady schema (next a)) :
    IsSteady schema (computation >>= next) := by
  intro memo hmemo
  obtain ⟨hresult, hafter⟩ := h memo hmemo
  obtain ⟨_, hempty⟩ := h ∅ isCorrect_empty
  obtain ⟨hlast, hcorrect⟩ := hnext (computation.run memo).1 _ hafter
  refine ⟨hlast.trans ?_, hcorrect⟩
  -- What comes next is the same in both cases, and it may start from an empty memo.
  rw [hresult]
  exact (hnext (computation.run ∅).1 _ hempty).1.symm

/-- `IsSteady` goes through `mapM`. -/
theorem isSteady_mapM {f : α → StateM Memo β} (h : ∀ a, IsSteady schema (f a)) (list : List α) :
    IsSteady schema (list.mapM f) := by
  induction list with
  | nil => exact isSteady_pure []
  | cons a rest ih =>
    rw [List.mapM_cons]
    exact (h a).bind fun _ => ih.bind fun _ => isSteady_pure _

/-- `needsCheck` looks in the memo first, and else enters what `walked` says. -/
theorem run_needsCheck (schema : Schema) (id : MessageId) (memo : Memo) :
    (needsCheck schema id).run memo =
      match memo[id]? with
      | some known => (known, memo)
      | none => (walked schema id, memo.insert id (walked schema id)) := by
  rw [needsCheck]
  cases h : memo[id]? with
  | some known => simp [h]; rfl
  | none => simp [h]; rfl

/-- From `∅`, `needsCheck` answers `walked`. -/
theorem run_needsCheck_empty (schema : Schema) (id : MessageId) :
    ((needsCheck schema id).run ∅).1 = walked schema id := by
  rw [run_needsCheck, Std.HashMap.getElem?_empty]

/-- `needsCheck` is steady. -/
theorem isSteady_needsCheck (schema : Schema) (id : MessageId) :
    IsSteady schema (needsCheck schema id) := by
  intro memo hmemo
  rw [run_needsCheck_empty, run_needsCheck]
  cases hknown : memo[id]? with
  | some known => exact ⟨hmemo id known hknown, hmemo⟩
  | none => exact ⟨rfl, hmemo.insert id⟩

end Initialization

/-! ## Layouts -/

namespace Schema

open Initialization

theorem isSteady_submessageRef (schema : Schema) (field : FieldNode) :
    IsSteady schema (schema.submessageRef field) := by
  rw [submessageRef]
  cases field.messageType? with
  | none => exact isSteady_pure none
  | some target => exact (isSteady_needsCheck schema target).bind fun _ => isSteady_pure _

theorem isSteady_shape (schema : Schema) (oneofs : List OneofId) (field : FieldNode) :
    IsSteady schema (schema.shape oneofs field) :=
  (isSteady_submessageRef schema field).bind fun _ => isSteady_pure _

/-- `layout` is steady: it does not depend on what is known of other messages. -/
theorem isSteady_layout (schema : Schema) (id : MessageId) : IsSteady schema (schema.layout id) :=
  (isSteady_mapM (isSteady_shape schema _) _).bind fun _ => isSteady_pure _

/-! ## With nothing remembered -/

/-- `submessageRef` from `∅`, with `walked` for the check. -/
theorem run_submessageRef (schema : Schema) (field : FieldNode) :
    ((schema.submessageRef field).run ∅).1 = field.messageType?.map fun target =>
      { typeName := (schema.message target).fullName
        needsCheck := walked schema target } := by
  rw [submessageRef]
  cases field.messageType? with
  | none => rfl
  | some target =>
    rw [Option.map_some, ← run_needsCheck_empty]
    rfl

/-- `shape` from `∅`. -/
theorem run_shape (schema : Schema) (oneofs : List OneofId) (field : FieldNode) :
    ((schema.shape oneofs field).run ∅).1 = {
      number := field.number.toUInt32.toNat
      type := field.type
      mode := field.mode
      storageKind := field.storageKind
      isRequired := field.isRequired
      hasPresence := field.hasPresence
      oneofIndex := field.realOneof.bind fun id => oneofs.findIdx? (· = id)
      submessage := ((schema.submessageRef field).run ∅).1 } :=
  rfl

/-- `layout` from `∅` is `Placement.layout` of the shapes from `∅`. -/
theorem run_layout (schema : Schema) (id : MessageId) :
    ((schema.layout id).run ∅).1 = Placement.layout ((schema.fieldsByNumber id).map fun field =>
      ((schema.shape (schema.message id).realOneofs field).run ∅).1) := by
  have hshapes : ((schema.shapes id).run ∅).1 = (schema.fieldsByNumber id).map fun field =>
      ((schema.shape (schema.message id).realOneofs field).run ∅).1 :=
    (run_mapM_of_preserves (P := IsCorrect schema)
      (fun field _ memo hmemo => isSteady_shape schema _ field memo hmemo) isCorrect_empty).1
  rw [← hshapes]
  rfl

end Schema

end SchemaLayout
