import SchemaLayout.Proofs.Analysis.CostRule
import SchemaLayout.Proofs.Data.State
import SchemaLayout.Proofs.Schema.SingleFile

/-!
# Storage decisions follow the cost rule

Whatever has been asked before, the answers of the storage analysis are the decisions that follow the cost
rule (`decide_follows_rule`). Its memo only ever holds such decisions (`IsCorrect`): what is recorded for
the members of a circle is right because they are set apart. A sum of costs that stopped early or was cut
off at the largest cost leads to the same decision as the full sum. And the depth allowed suffices because
every message that is gone into has a smaller rank than the one before it.
-/

namespace SchemaLayout.Storage

variable {schema : Schema} {threshold : Nat} {decisions : MessageId → Decision} {α β : Type}

/-! ## Deciding with a memo -/

/-- Every entry of `memo` under the full name of a message is its value in `decisions`. -/
def IsCorrect (schema : Schema) (decisions : MessageId → Decision) (memo : Memo) : Prop :=
  ∀ id ∈ schema.messageIds, ∀ decision,
    memo[(schema.message id).fullName]? = some decision → decision = decisions id

theorem isCorrect_empty : IsCorrect schema decisions ∅ := by
  intro id _ decision h
  simp at h

/-- Recording `decisions id` keeps a memo correct, as no other message has that name. -/
theorem IsCorrect.insert (hsound : schema.IsSound) {memo : Memo}
    (h : IsCorrect schema decisions memo) {id : MessageId} (hid : id ∈ schema.messageIds) :
    IsCorrect schema decisions (memo.insert (schema.message id).fullName (decisions id)) := by
  intro other hin decision hother
  rw [Std.HashMap.getElem?_insert] at hother
  split at hother
  · next hname =>
    rw [← hsound.eq_of_fullName_eq hid hin (eq_of_beq hname)]
    exact (Option.some.inj hother).symm
  · exact h other hin decision hother

/-- With a correct memo, `computation` comes to some `a` with `result a` and leaves a correct memo. -/
def Yields (schema : Schema) (decisions : MessageId → Decision) (computation : Deciding α)
    (result : α → Prop) : Prop :=
  ∀ memo, IsCorrect schema decisions memo →
    ∃ a after, computation.run memo = some (a, after) ∧ result a ∧ IsCorrect schema decisions after

theorem Yields.pure {a : α} {result : α → Prop} (h : result a) :
    Yields schema decisions (pure a) result :=
  fun memo hmemo => ⟨a, memo, rfl, h, hmemo⟩

theorem Yields.bind {computation : Deciding α} {next : α → Deciding β} {middle : α → Prop}
    {result : β → Prop} (h : Yields schema decisions computation middle)
    (hnext : ∀ a, middle a → Yields schema decisions (next a) result) :
    Yields schema decisions (computation >>= next) result := by
  intro memo hmemo
  obtain ⟨a, after, hrun, ha, hafter⟩ := h memo hmemo
  obtain ⟨b, last, hlast, hb, hcorrect⟩ := hnext a ha after hafter
  refine ⟨b, last, ?_, hb, hcorrect⟩
  rw [StateT.run_bind, hrun]
  exact hlast

/-- After `get`, the memo may be taken to be correct. -/
theorem yields_get_bind {next : Memo → Deciding α} {result : α → Prop}
    (h : ∀ memo, IsCorrect schema decisions memo → Yields schema decisions (next memo) result) :
    Yields schema decisions (get >>= next) result :=
  fun memo hmemo => h memo hmemo memo hmemo

theorem yields_record (hsound : schema.IsSound) {id : MessageId} (hid : id ∈ schema.messageIds)
    {decision : Decision} (h : decision = decisions id) :
    Yields schema decisions (record schema id decision) (· = decisions id) := by
  subst h
  exact fun _ hmemo => ⟨_, _, rfl, rfl, hmemo.insert hsound hid⟩

theorem yields_forM {action : α → Deciding PUnit} {list : List α}
    (h : ∀ a ∈ list, Yields schema decisions (action a) fun _ => True) :
    Yields schema decisions (list.forM action) fun _ => True := by
  induction list with
  | nil => exact .pure trivial
  | cons a rest ih =>
    obtain ⟨ha, hrest⟩ := List.forall_mem_cons.1 h
    exact ha.bind fun _ _ => ih hrest

/-- `markCircles` records only `OnCircle` messages, which are out of line, and answers whether `id` is one. -/
theorem yields_markCircles (hsound : schema.IsSound)
    (hcircles : ∀ id, OnCircle schema id → decisions id = .outOfLine) (id : MessageId) :
    Yields schema decisions (markCircles schema id) fun found => found = true ↔ OnCircle schema id := by
  rw [markCircles]
  refine Yields.bind (yields_forM fun member hmember => ?_) fun _ _ =>
    .pure (mem_circleMembers_iff hsound id)
  have hcircle := onCircle_of_mem_circleMembers (Std.HashSet.mem_toList.1 hmember)
  exact (yields_record hsound (hcircle.mem_messageIds hsound) (hcircles member hcircle).symm).bind
    fun _ _ => .pure trivial

/-! ## Costs -/

section

variable {decide : MessageId → Deciding Decision}

/-- `fieldCost decide` yields `costOfField decisions` if `decide` is right on the message held. -/
theorem yields_fieldCost {field : FieldNode}
    (h : ∀ inner, heldMessage? field = some inner →
      Yields schema decisions (decide inner) (· = decisions inner)) :
    Yields schema decisions (fieldCost decide field) (· = costOfField decisions field) := by
  rw [fieldCost, costOfField]
  split
  · next inner hsingle htarget =>
    have hheld : heldMessage? field = some inner := heldMessage?_eq_some_iff.2 ⟨hsingle, htarget⟩
    rw [hheld]
    refine (h inner hheld).bind fun decision hdecision => .pure ?_
    rw [hdecision]
    rfl
  · next hother =>
    have hheld : heldMessage? field = none := by
      rw [Option.eq_none_iff_forall_ne_some]
      intro inner hheld
      obtain ⟨hsingle, htarget⟩ := heldMessage?_eq_some_iff.1 hheld
      exact hother inner hsingle htarget
    rw [hheld]
    exact .pure rfl

/-- `groupCost cost` yields the `largest` of `costs`. -/
theorem yields_groupCost {cost : FieldNode → Deciding Nat} {costs : FieldNode → Nat}
    {fields : List FieldNode}
    (h : ∀ field ∈ fields, Yields schema decisions (cost field) (· = costs field)) :
    Yields schema decisions (groupCost cost fields) (· = largest (fields.map costs)) := by
  induction fields with
  | nil => exact .pure rfl
  | cons field rest ih =>
    obtain ⟨hfield, hrest⟩ := List.forall_mem_cons.1 h
    refine hfield.bind fun first hfirst => (ih hrest).bind fun others hothers => .pure ?_
    rw [hfirst, hothers]
    rfl

/-- `sumCosts` may stop at `threshold` and be cut off at `maxCost`: `Decision.ofCost threshold` of it is that of
the full sum. -/
theorem yields_sumCosts (hthreshold : threshold ≤ maxCost) {cost : FieldNode → Deciding Nat}
    {costs : FieldNode → Nat} {groups : List (List FieldNode)}
    (h : ∀ group ∈ groups, ∀ field ∈ group, Yields schema decisions (cost field) (· = costs field))
    (sum : Nat) :
    Yields schema decisions (sumCosts threshold cost groups sum) fun found =>
      Decision.ofCost threshold found = Decision.ofCost threshold
        (sum + (groups.map fun group => largest (group.map costs)).sum) := by
  induction groups generalizing sum with
  | nil => exact .pure rfl
  | cons group rest ih =>
    obtain ⟨hgroup, hrest⟩ := List.forall_mem_cons.1 h
    refine (yields_groupCost hgroup).bind fun found hfound => ?_
    rw [hfound, List.map_cons, List.sum_cons, ← Nat.add_assoc]
    generalize largest (group.map costs) = dearest
    show Yields schema decisions (if threshold ≤ addCosts sum dearest then
      Pure.pure (addCosts sum dearest) else sumCosts threshold cost rest (addCosts sum dearest)) _
    split
    · next hreached =>
      -- More costs cannot take the sum below the threshold again.
      have hcut : addCosts sum dearest ≤ sum + dearest := Nat.min_le_left _ _
      refine .pure ?_
      rw [Decision.ofCost, Decision.ofCost, if_pos hreached, if_pos (by omega)]
    · next hbelow =>
      -- A sum below the threshold has not been cut off.
      have hexact : addCosts sum dearest = sum + dearest := by
        unfold addCosts at *
        omega
      rw [hexact]
      exact ih hrest (sum + dearest)

end

/-- `costOf` is the sum of the `largest` cost in each of `costGroups`. -/
theorem costOf_eq_sum_costGroups (hsound : schema.IsSound) (id : MessageId) :
    costOf schema decisions id =
      ((costGroups schema id).map fun group => largest (group.map (costOfField decisions))).sum := by
  have houtside := (((hsound.fieldsByNumber_perm id).filter fun field =>
    (schema.realOneof? field).isNone).map (costOfField decisions)).sum_nat
  have hreal : (schema.fieldsByNumber id).filter (·.realOneof.isNone) =
      (schema.fieldsByNumber id).filter fun field => (schema.realOneof? field).isNone := by
    refine List.filter_congr fun field hfield => ?_
    rw [hsound.realOneof_of_mem_fieldsOf ((hsound.fieldsByNumber_perm id).mem_iff.1 hfield)]
  rw [costOf, costGroups, hreal, List.map_append, List.sum_append, List.map_map, List.map_map, ← houtside]
  congr 2
  · refine List.map_congr_left fun field _ => ?_
    exact (Nat.max_zero _).symm
  · refine List.map_congr_left fun oneof _ => ?_
    show largest _ = largest _
    rw [List.map_map]
    rfl

theorem mem_fieldsOf_of_mem_costGroups (hsound : schema.IsSound) {id : MessageId}
    {group : List FieldNode} (hgroup : group ∈ costGroups schema id) :
    ∀ field ∈ group, field ∈ schema.fieldsOf id := by
  intro field hfield
  rcases List.mem_append.1 hgroup with hgroup | hgroup
  · obtain ⟨other, hother, rfl⟩ := List.mem_map.1 hgroup
    rw [List.mem_singleton.1 hfield]
    exact (hsound.fieldsByNumber_perm id).mem_iff.1 (List.mem_filter.1 hother).1
  · obtain ⟨oneof, honeof, rfl⟩ := List.mem_map.1 hgroup
    obtain ⟨fieldId, hmember, rfl⟩ := List.mem_map.1 hfield
    exact hsound.mem_fieldsOf_of_mem_oneof honeof hmember

/-! ## Decisions -/

/-- `decideWithin` yields `decisions id` if `rank schema id < depth`. -/
theorem yields_decideWithin (hsound : schema.IsSound) (hthreshold : threshold ≤ maxCost)
    (hrule : FollowsRule schema threshold decisions) {depth : Nat} {id : MessageId}
    (hid : id ∈ schema.messageIds) (hdepth : rank schema id < depth) :
    Yields schema decisions (decideWithin schema threshold depth id) (· = decisions id) := by
  induction depth generalizing id with
  | zero => exact absurd hdepth (Nat.not_lt_zero _)
  | succ depth ih =>
    -- What is recorded without regard to costs is recorded of messages that are set apart.
    have hapart (other : MessageId) (h : IsSetApart schema other) :
        Decision.outOfLine = decisions other :=
      (hrule.outOfLine other (Or.inl h)).symm
    rw [decideWithin, decideStep]
    refine yields_get_bind fun memo hmemo => ?_
    split
    · next decision hknown => exact .pure (hmemo id hid decision hknown)
    · split
      · next hany => exact yields_record hsound hid (hapart id (Or.inl hany))
      · next hany =>
        refine (yields_markCircles hsound (fun other h => (hapart other (Or.inr h)).symm) id).bind
          fun found hfound => ?_
        split
        · next hon => exact .pure (hapart id (Or.inr (hfound.1 hon)))
        · next hoff =>
          -- Off all circles, the messages held have smaller ranks and fit into the depth left.
          have hcircle : ¬ OnCircle schema id := mt hfound.2 hoff
          have hcosts (group : List FieldNode) (hgroup : group ∈ costGroups schema id)
              (field : FieldNode) (hfield : field ∈ group) :
              Yields schema decisions (fieldCost (decideWithin schema threshold depth) field)
                (· = costOfField decisions field) := by
            have hmem := mem_fieldsOf_of_mem_costGroups hsound hgroup field hfield
            refine yields_fieldCost fun inner hinner => ?_
            have htarget := (heldMessage?_eq_some_iff.1 hinner).2
            refine ih (hsound.messageType_of_mem_fieldsOf hmem htarget).1 ?_
            exact Nat.lt_of_lt_of_le (rank_lt hsound ⟨field, hmem, hinner⟩ hcircle)
              (Nat.le_of_lt_succ hdepth)
          refine (yields_sumCosts hthreshold hcosts 0).bind fun cost hcost =>
            yields_record hsound hid ?_
          rw [hcost, Nat.zero_add, ← costOf_eq_sum_costGroups hsound]
          exact ((followsRule_iff.1 hrule id).2 (not_or.2 ⟨hany, hcircle⟩)).symm

/-- With a correct memo, `decide` answers `decisions id` and leaves a correct memo. -/
theorem run_decide (hsound : schema.IsSound) (hthreshold : threshold ≤ maxCost)
    (hrule : FollowsRule schema threshold decisions) {id : MessageId} (hid : id ∈ schema.messageIds)
    {memo : Memo} (hmemo : IsCorrect schema decisions memo) :
    ((decide schema threshold id).run memo).1 = decisions id ∧
      IsCorrect schema decisions ((decide schema threshold id).run memo).2 := by
  obtain ⟨decision, after, hrun, rfl, hafter⟩ := yields_decideWithin hsound hthreshold hrule hid
    (Nat.lt_succ_of_le (rank_le schema id)) memo hmemo
  have hanswer : (decide schema threshold id).run memo = (decisions id, after) := by
    show ((decideWithin schema threshold (schema.messages.size + 1) id).run memo).getD _ = _
    rw [hrun]
    rfl
  rw [hanswer]
  exact ⟨rfl, hafter⟩

/-- `decide` for each of `calls`, one after the other, answers `decisions` for each. -/
theorem run_mapM_decide (hsound : schema.IsSound) (hthreshold : threshold ≤ maxCost)
    (hrule : FollowsRule schema threshold decisions) {calls : List MessageId}
    (hcalls : ∀ id ∈ calls, id ∈ schema.messageIds) {memo : Memo}
    (hmemo : IsCorrect schema decisions memo) :
    ((calls.mapM (decide schema threshold)).run memo).1 = calls.map decisions :=
  (run_mapM_of_preserves (fun id hid _ hmemo =>
    run_decide hsound hthreshold hrule (hcalls id hid) hmemo) hmemo).1

/-- Exactly one function satisfies `FollowsRule`, and `decide` answers with it, whichever `calls` were made
before. -/
theorem decide_follows_rule {config : Config} {files : List FileDecl}
    (hfiles : Schema.ofFiles config files = .ok schema) (threshold : UInt32) :
    (∃! decisions, FollowsRule schema threshold.toNat decisions) ∧
      ∀ decisions, FollowsRule schema threshold.toNat decisions →
        ∀ calls : List MessageId, (∀ id ∈ calls, id ∈ schema.messageIds) →
          ((calls.mapM (decide schema threshold.toNat)).run ∅).1 = calls.map decisions := by
  have hsound := Schema.isSound_ofFiles hfiles
  have hthreshold : threshold.toNat ≤ maxCost := Nat.le_of_lt_succ threshold.toNat_lt
  exact ⟨existsUnique_followsRule hsound threshold.toNat, fun decisions hrule calls hcalls =>
    run_mapM_decide hsound hthreshold hrule hcalls isCorrect_empty⟩

/-- `decide` for all messages of `pathFile`, one of which would contain itself. -/
theorem decide_follows_rule_path :
    ∃ schema, Schema.ofFiles {} [Schema.pathFile] = .ok schema ∧
      ∃ decisions, FollowsRule schema 4 decisions ∧
        ((schema.messageIds.mapM (decide schema 4)).run ∅).1 = schema.messageIds.map decisions := by
  obtain ⟨schema, hschema⟩ := Schema.exists_ofFiles_path
  obtain ⟨⟨decisions, hrule, _⟩, hanswers⟩ := decide_follows_rule hschema 4
  exact ⟨schema, hschema, decisions, hrule,
    hanswers decisions hrule schema.messageIds fun _ hid => hid⟩

end SchemaLayout.Storage
