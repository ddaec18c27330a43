import Mathlib.Algebra.Ring.Nat
import Mathlib.Data.Finset.Card
import Mathlib.Data.Finset.Filter
import SchemaLayout.Proofs.Analysis.Circles

/-!
# The cost rule

What a message costs depends on how the messages that it holds are stored, and how a message is stored
depends on what it costs (`FollowsRule`). In a sound schema exactly one way to store all messages follows
the rule (`existsUnique_followsRule`): messages that are set apart are stored out of line without regard to
their costs, and from any other message only fewer messages can be reached than from the message that holds
it (`rank_lt`), because it does not hold that message in turn.
-/

namespace SchemaLayout.Storage

open Relation

/-! ## Costs -/

/-- The message of a field that is not repeated. -/
def heldMessage? (field : FieldNode) : Option MessageId :=
  if field.isRepeated then none else field.messageType?

/-- The cost of a field: `fieldCost` of the decision on the message it holds, or 1. -/
def costOfField (decisions : MessageId → Decision) (field : FieldNode) : Nat :=
  (heldMessage? field).elim 1 fun held => (decisions held).fieldCost

/-- The largest of `costs`, and 0 if there is none. -/
def largest (costs : List Nat) : Nat :=
  costs.foldr max 0

/-- The `largest` of the costs of a oneof's members. -/
def costOfOneof (schema : Schema) (decisions : MessageId → Decision) (oneof : OneofId) : Nat :=
  largest ((schema.oneof oneof).fields.map fun field => costOfField decisions (schema.field field))

/-- `costOfOneof` by way of the nodes of the members. -/
theorem costOfOneof_eq (schema : Schema) (decisions : MessageId → Decision) (oneof : OneofId) :
    costOfOneof schema decisions oneof =
      largest (((schema.oneof oneof).fields.map schema.field).map (costOfField decisions)) := by
  rw [costOfOneof, List.map_map]
  rfl

theorem largest_perm {costs others : List Nat} (h : costs.Perm others) :
    largest costs = largest others := by
  induction h with
  | nil => rfl
  | cons cost _ ih => exact congrArg (max cost) ih
  | swap first second rest => exact Nat.max_left_comm second first (largest rest)
  | trans _ _ ihfirst ihsecond => exact ihfirst.trans ihsecond

/-- The cost of a message, without any bound: the sum of `costOfField` over fields outside of oneofs, plus that
of `costOfOneof` over `realOneofs`. -/
def costOf (schema : Schema) (decisions : MessageId → Decision) (id : MessageId) : Nat :=
  (((schema.fieldsOf id).filter fun field => (schema.realOneof? field).isNone).map
      (costOfField decisions)).sum
    + ((schema.message id).realOneofs.map (costOfOneof schema decisions)).sum

/-! ## The rule -/

/-- The message is stored out of line whatever it costs: it is `anyName` or `OnCircle`. -/
def IsSetApart (schema : Schema) (id : MessageId) : Prop :=
  (schema.message id).fullName = anyName ∨ OnCircle schema id

/-- Each decision is as the rule says, given all the others: out of line if `IsSetApart` or at `threshold` and
above, and else inside, with its cost. -/
structure FollowsRule (schema : Schema) (threshold : Nat) (decisions : MessageId → Decision) :
    Prop where
  outOfLine : ∀ id, IsSetApart schema id ∨ threshold ≤ costOf schema decisions id →
    decisions id = .outOfLine
  inside : ∀ id, ¬ IsSetApart schema id → costOf schema decisions id < threshold →
    decisions id = ⟨false, costOf schema decisions id⟩

/-! ## Ranks -/

/-- `outer` has a field with `heldMessage?` `inner`. -/
def Holds (schema : Schema) (outer inner : MessageId) : Prop :=
  ∃ field ∈ schema.fieldsOf outer, heldMessage? field = some inner

variable {schema : Schema}

theorem heldMessage?_eq_some_iff {field : FieldNode} {id : MessageId} :
    heldMessage? field = some id ↔ field.isRepeated = false ∧ field.messageType? = some id := by
  rw [heldMessage?]
  cases field.isRepeated <;> simp

/-- `Contains` is `Holds` within one file. -/
theorem contains_iff_holds {file : FileId} {outer inner : MessageId} :
    Contains schema file outer inner ↔
      Holds schema outer inner ∧ (schema.message inner).file = file := by
  simp only [contains_iff, Holds, heldMessage?_eq_some_iff]
  constructor
  · intro h
    rcases h with ⟨field, hfield, hsingle, htarget, hfile⟩
    exact ⟨⟨field, hfield, hsingle, htarget⟩, hfile⟩
  · intro h
    rcases h with ⟨⟨field, hfield, hsingle, htarget⟩, hfile⟩
    exact ⟨field, hfield, hsingle, htarget, hfile⟩

/-- `Holds` never leads to a later file. -/
theorem Holds.file_le (hsound : schema.IsSound) {outer inner : MessageId}
    (h : Holds schema outer inner) :
    (schema.message inner).file.index ≤ (schema.message outer).file.index := by
  obtain ⟨field, hfield, hheld⟩ := h
  exact (hsound.messageType_of_mem_fieldsOf hfield (heldMessage?_eq_some_iff.1 hheld).2).2

/-- Nor does any number of steps of `Holds`. -/
theorem file_le_of_reflTransGen (hsound : schema.IsSound) {outer inner : MessageId}
    (h : ReflTransGen (Holds schema) outer inner) :
    (schema.message inner).file.index ≤ (schema.message outer).file.index := by
  induction h with
  | refl => exact Nat.le_refl _
  | tail _ hstep ih => exact Nat.le_trans (hstep.file_le hsound) ih

/-- A way back by `Holds` never leaves the file, so it is one by `Contains`. -/
theorem reflTransGen_contains (hsound : schema.IsSound) {id other : MessageId}
    (hback : ReflTransGen (Holds schema) other id)
    (hfile : (schema.message other).file.index ≤ (schema.message id).file.index) :
    ReflTransGen (Contains schema (schema.message id).file) other id := by
  induction hback using ReflTransGen.head_induction_on with
  | refl => exact .refl
  | @head outer inner hstep hrest ih =>
    have hinner := hstep.file_le hsound
    have hid := file_le_of_reflTransGen hsound hrest
    have hsame : (schema.message inner).file = (schema.message id).file :=
      congrArg FileId.mk (Nat.le_antisymm (Nat.le_trans hinner hfile) hid)
    exact .head (contains_iff_holds.2 ⟨hstep, hsame⟩) (ih (Nat.le_trans hinner hfile))

/-- If `outer` holds `inner` and `inner` reaches `outer`, then `outer` is `OnCircle`. -/
theorem onCircle_of_holds (hsound : schema.IsSound) {outer inner : MessageId}
    (hstep : Holds schema outer inner) (hback : ReflTransGen (Holds schema) inner outer) :
    OnCircle schema outer := by
  -- The way there and the way back leave no room between the numbers of the two files.
  have hinner := hstep.file_le hsound
  have houter := file_le_of_reflTransGen hsound hback
  have hsame : (schema.message inner).file = (schema.message outer).file :=
    congrArg FileId.mk (Nat.le_antisymm hinner houter)
  exact .head' (contains_iff_holds.2 ⟨hstep, hsame⟩) (reflTransGen_contains hsound hback hinner)

open Classical in
/-- The messages that `id` reaches by `Holds`. -/
noncomputable def reachable (schema : Schema) (id : MessageId) : Finset MessageId :=
  schema.messageIds.toFinset.filter (ReflTransGen (Holds schema) id)

open Classical in
theorem mem_reachable {outer inner : MessageId} :
    inner ∈ reachable schema outer ↔
      inner ∈ schema.messageIds ∧ ReflTransGen (Holds schema) outer inner := by
  rw [reachable, Finset.mem_filter, List.mem_toFinset]

/-- The number of messages that are `reachable` from `id`. -/
noncomputable def rank (schema : Schema) (id : MessageId) : Nat :=
  (reachable schema id).card

theorem rank_le (schema : Schema) (id : MessageId) : rank schema id ≤ schema.messages.size := by
  have hsubset : reachable schema id ⊆ schema.messageIds.toFinset :=
    fun _ hid => List.mem_toFinset.2 (mem_reachable.1 hid).1
  have hle := (Finset.card_le_card hsubset).trans (List.toFinset_card_le _)
  rwa [Schema.messageIds, List.length_map, List.length_range] at hle

/-- `Holds` lowers `rank`, unless `outer` is `OnCircle`. -/
theorem rank_lt (hsound : schema.IsSound) {outer inner : MessageId} (h : Holds schema outer inner)
    (houter : ¬ OnCircle schema outer) : rank schema inner < rank schema outer := by
  have hsubset : reachable schema inner ⊆ reachable schema outer := by
    intro id hid
    obtain ⟨hin, hreach⟩ := mem_reachable.1 hid
    exact mem_reachable.2 ⟨hin, .head h hreach⟩
  have hin : outer ∈ reachable schema outer := by
    obtain ⟨field, hfield, _⟩ := h
    exact mem_reachable.2 ⟨Schema.mem_messageIds_of_mem_fieldsOf hfield, .refl⟩
  -- The outer message is the one that is lost.
  refine Finset.card_lt_card ((Finset.ssubset_iff_of_subset hsubset).2 ⟨outer, hin, ?_⟩)
  intro hback
  exact houter (onCircle_of_holds hsound h (mem_reachable.1 hback).2)

/-! ## Following the rule -/

/-- `costOf` depends on `decisions` only at the messages that `id` holds. -/
theorem costOf_congr (hsound : schema.IsSound) {decisions others : MessageId → Decision}
    {id : MessageId} (h : ∀ inner, Holds schema id inner → decisions inner = others inner) :
    costOf schema decisions id = costOf schema others id := by
  -- The costs of a field ask for the decision on the message that it holds, if any.
  have hfield (field : FieldNode) (hfield : field ∈ schema.fieldsOf id) :
      costOfField decisions field = costOfField others field := by
    rw [costOfField, costOfField]
    cases hheld : heldMessage? field with
    | none => rfl
    | some inner =>
      have hsame := h inner ⟨field, hfield, hheld⟩
      simp only [Option.elim_some, hsame]
  have houtside : ((schema.fieldsOf id).filter fun field => (schema.realOneof? field).isNone).map
      (costOfField decisions) = ((schema.fieldsOf id).filter fun field =>
        (schema.realOneof? field).isNone).map (costOfField others) :=
    List.map_congr_left fun field hmem => hfield field (List.mem_filter.1 hmem).1
  have honeofs : (schema.message id).realOneofs.map (costOfOneof schema decisions) =
      (schema.message id).realOneofs.map (costOfOneof schema others) := by
    refine List.map_congr_left fun oneof honeof => congrArg largest ?_
    exact List.map_congr_left fun field hmem =>
      hfield _ (hsound.mem_fieldsOf_of_mem_oneof honeof hmem)
  rw [costOf, houtside, honeofs, costOf]

open Classical in
/-- The decision of the rule, by recursion on `rank`: `Holds` lowers it for all messages that are not
`IsSetApart`. -/
noncomputable def decisionOf (schema : Schema) (threshold : Nat) (id : MessageId) : Decision :=
  if IsSetApart schema id then .outOfLine
  else .ofCost threshold (costOf schema (fun inner =>
    if _ : rank schema inner < rank schema id then decisionOf schema threshold inner
    else .outOfLine) id)
termination_by rank schema id

/-- `FollowsRule` in one line for each message, with `Decision.ofCost`. -/
theorem followsRule_iff {threshold : Nat} {decisions : MessageId → Decision} :
    FollowsRule schema threshold decisions ↔ ∀ id, (IsSetApart schema id → decisions id = .outOfLine) ∧
      (¬ IsSetApart schema id → decisions id = .ofCost threshold (costOf schema decisions id)) := by
  constructor
  · intro h id
    refine ⟨fun hapart => h.outOfLine id (Or.inl hapart), fun hapart => ?_⟩
    rw [Decision.ofCost]
    split
    · next hcost => exact h.outOfLine id (Or.inr hcost)
    · next hcost => exact h.inside id hapart (Nat.lt_of_not_le hcost)
  · intro h
    constructor
    · intro id hid
      -- Of the two reasons, the costs count only if the message is not set apart.
      by_cases hapart : IsSetApart schema id
      · exact (h id).1 hapart
      · rw [(h id).2 hapart, Decision.ofCost, if_pos (hid.resolve_left hapart)]
    · intro id hapart hcost
      conv => lhs; rw [(h id).2 hapart, Decision.ofCost, if_neg (Nat.not_le_of_lt hcost)]

theorem followsRule_decisionOf (hsound : schema.IsSound) (threshold : Nat) :
    FollowsRule schema threshold (decisionOf schema threshold) := by
  rw [followsRule_iff]
  intro id
  constructor
  · intro hapart
    rw [decisionOf, if_pos hapart]
  · intro hapart
    conv => lhs; rw [decisionOf, if_neg hapart]
    congr 1
    refine costOf_congr hsound fun inner hinner => ?_
    exact dif_pos (rank_lt hsound hinner fun hcircle => hapart (Or.inr hcircle))

/-- Decisions that follow the rule are equal, by induction on `rank`. -/
theorem FollowsRule.unique (hsound : schema.IsSound) {threshold : Nat}
    {decisions others : MessageId → Decision} (h : FollowsRule schema threshold decisions)
    (hothers : FollowsRule schema threshold others) : decisions = others := by
  rw [followsRule_iff] at h hothers
  funext id
  -- Held messages have smaller ranks, and only they matter for the cost.
  induction hrank : rank schema id using Nat.strong_induction_on generalizing id with
  | _ bound ih =>
    by_cases hapart : IsSetApart schema id
    · rw [(h id).1 hapart, (hothers id).1 hapart]
    · rw [(h id).2 hapart, (hothers id).2 hapart]
      congr 1
      refine costOf_congr hsound fun inner hinner => ih _ ?_ inner rfl
      rw [← hrank]
      exact rank_lt hsound hinner fun hcircle => hapart (Or.inr hcircle)

/-- In a sound schema, exactly one function satisfies `FollowsRule`. -/
theorem existsUnique_followsRule (hsound : schema.IsSound) (threshold : Nat) :
    ∃! decisions, FollowsRule schema threshold decisions :=
  ⟨_, followsRule_decisionOf hsound threshold, fun _ h =>
    h.unique hsound (followsRule_decisionOf hsound threshold)⟩

end SchemaLayout.Storage
