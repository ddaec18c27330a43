import SchemaLayout.Proofs.Compiler.Agreement
import SchemaLayout.Proofs.Schema.FieldOrder
import SchemaLayout.Proofs.Schema.SingleFile

/-!
# The order of fields does not matter

When files declare the fields of their messages in another order, the fields get other numbers, and oneofs list
their members in another order. But what a message is compiled to is told from its fields in the order of their
field numbers, so both schemas agree and their messages are compiled to the same results
(`alone_eq_of_reordered`).
-/

namespace SchemaLayout.Schema

namespace Reordered

variable {schema other : Schema} (h : schema.Reordered other)

include h

/-! ## Elements -/

/-- `Reordered` schemas have the same message numbers. -/
theorem messageIds_eq : other.messageIds = schema.messageIds :=
  messageIds_eq_of_counts_eq h.counts_eq

theorem alike_message (id : MessageId) : (schema.message id).Alike (other.message id) := by
  rw [Schema.message, Schema.message, ← Array.getElem?_toList, ← Array.getElem?_toList]
  exact getD_of_forall₂ (.refl default) h.messages id.index

/-! ## Fields of messages and oneofs -/

variable (hschema : schema.IsOwned) (hother : other.IsOwned)

include hschema hother

/-- `fieldsOf` is the same up to order. -/
theorem fieldsOf_perm {id : MessageId} (hid : id ∈ schema.messageIds) :
    (other.fieldsOf id).Perm (schema.fieldsOf id) := by
  rw [hschema.fieldsOf_eq hid, hother.fieldsOf_eq (h.messageIds_eq ▸ hid)]
  exact h.fields.filter _

/-- The members of a oneof are the same up to order. -/
theorem members_perm {id : OneofId} (hid : id.index < schema.oneofs.size) :
    ((other.oneof id).fields.map other.field).Perm ((schema.oneof id).fields.map schema.field) := by
  have hsize : other.oneofs.size = schema.oneofs.size := congrArg Counts.oneofs h.counts_eq
  have hin : schema.oneofs[id.index]? = some (schema.oneof id) := by
    rw [Schema.oneof, Array.getElem?_eq_getElem hid]
    rfl
  have hout : other.oneofs[id.index]? = some (other.oneof id) := by
    rw [Schema.oneof, Array.getElem?_eq_getElem (hsize ▸ hid)]
    rfl
  rw [hschema.members_eq hin, hother.members_eq hout]
  exact h.fields.filter _

end Reordered

/-! ## Results -/

section

variable {building : Config} {files others : List FileDecl} {schema other : Schema}

/-- `fieldsByNumber` does not show the order of declaration, as numbers differ. -/
theorem Reordered.fieldsByNumber_eq (h : schema.Reordered other) (hschema : ofFiles building files = .ok schema)
    (hother : ofFiles building others = .ok other) {id : MessageId} (hid : id ∈ schema.messageIds) :
    other.fieldsByNumber id = schema.fieldsByNumber id := by
  have hperm := ((isSound_ofFiles hother).fieldsByNumber_perm id).trans
    ((h.fieldsOf_perm (isOwned_ofFiles hschema) (isOwned_ofFiles hother) hid).trans
      ((isSound_ofFiles hschema).fieldsByNumber_perm id).symm)
  refine List.Perm.eq_of_pairwise (fun a b _ _ hab hba => ?_)
    (pairwise_fieldsByNumber hother (h.messageIds_eq ▸ hid)) (pairwise_fieldsByNumber hschema hid) hperm
  exact absurd hab (Int32.lt_asymm hba)

/-- `Reordered` schemas satisfy `Agrees`. -/
theorem agrees_of_reordered (h : schema.Reordered other) (hschema : ofFiles building files = .ok schema)
    (hother : ofFiles building others = .ok other) : schema.Agrees other where
  mem id hid := h.messageIds_eq ▸ hid
  message id _ := by
    rw [h.alike_message id]
  fieldsByNumber _ hid := h.fieldsByNumber_eq hschema hother hid
  members id hid oneof honeof := by
    have hholds := (isSound_ofFiles hschema).messages (getElem?_of_mem_messageIds hid)
    obtain ⟨node, hnode, _⟩ := hholds.oneofs oneof (List.mem_of_mem_take honeof)
    exact h.members_perm (isOwned_ofFiles hschema) (isOwned_ofFiles hother)
      (Array.getElem?_eq_some_iff.1 hnode).1

/-- Of two lists of files that differ in the order of field declarations, either both can be put together or
neither, and then `Compiler.alone` gives the same results. -/
theorem alone_eq_of_reordered (building : Config) {files others : List FileDecl}
    (hfiles : List.Forall₂ FileDecl.Reordered files others) :
    ((∃ schema, ofFiles building files = .ok schema) ↔ ∃ other, ofFiles building others = .ok other) ∧
      ∀ {schema other : Schema}, ofFiles building files = .ok schema → ofFiles building others = .ok other →
        other.messageIds = schema.messageIds ∧ ∀ id ∈ schema.messageIds,
          (other.message id).fullName = (schema.message id).fullName ∧
            ∀ config : Config, config.costThreshold < 2 ^ 32 →
              Compiler.alone config other id = Compiler.alone config schema id := by
  -- Reordering works both ways.
  have hback : List.Forall₂ FileDecl.Reordered others files :=
    List.Forall₂.flip (hfiles.imp fun _ _ h => h.symm)
  refine ⟨⟨fun h => ?_, fun h => ?_⟩, fun {schema other} hschema hother => ?_⟩
  · obtain ⟨schema, hschema⟩ := h
    obtain ⟨other, hother, _⟩ := exists_ofFiles_of_reordered hfiles hschema
    exact ⟨other, hother⟩
  · obtain ⟨other, hother⟩ := h
    obtain ⟨schema, hschema, _⟩ := exists_ofFiles_of_reordered hback hother
    exact ⟨schema, hschema⟩
  · obtain ⟨_, hsame, h⟩ := exists_ofFiles_of_reordered hfiles hschema
    cases hother.symm.trans hsame
    have hagrees := agrees_of_reordered h hschema hother
    refine ⟨h.messageIds_eq, fun id hid => ⟨hagrees.fullName hid, fun config hthreshold => ?_⟩⟩
    exact hagrees.alone_eq (isSound_ofFiles hschema) (isSound_ofFiles hother)
      (Nat.le_of_lt_succ hthreshold) hid

end

/-- `pathFile` with the fields of lines and paths in another order. -/
def pathFileReordered : FileDecl where
  name := "path.proto"
  messageType := [
    { name := "Point", field := [{ name := "x", number := 1 }, { name := "y", number := 2 }] },
    { name := "Line"
      field := [
        { name := "open", number := 2, type := .bool, oneofIndex := some 0 },
        { name := "start", number := 1, type := .message, typeName := some "Point" },
        { name := "stop", number := 3, type := .message, typeName := some "Point",
          oneofIndex := some 0 }]
      oneofDecl := [{ name := "end" }] },
    { name := "Path"
      field := [
        { name := "rest", number := 2, type := .message, typeName := some ".Path" },
        { name := "first", number := 1, type := .message, typeName := some "Line" }] }]

theorem reordered_path : pathFile.Reordered pathFileReordered :=
  .mk pathFile (.cons (.mk _ (.refl _) .nil) (.cons (.mk _ (by decide) .nil)
    (.cons (.mk _ (by decide) .nil) .nil)))

/-- `pathFile` and `pathFileReordered` are compiled to the same results. -/
theorem alone_eq_of_reordered_path :
    ∃ schema other, ofFiles {} [pathFile] = .ok schema ∧ ofFiles {} [pathFileReordered] = .ok other ∧
      ∀ id ∈ schema.messageIds, Compiler.alone {} other id = Compiler.alone {} schema id := by
  obtain ⟨schema, hschema⟩ := exists_ofFiles_path
  obtain ⟨hiff, hresults⟩ := alone_eq_of_reordered {} (.cons reordered_path .nil)
  obtain ⟨other, hother⟩ := hiff.1 ⟨schema, hschema⟩
  refine ⟨schema, other, hschema, hother, fun id hid => ?_⟩
  exact ((hresults hschema hother).2 id hid).2 {} (by decide)

end SchemaLayout.Schema
