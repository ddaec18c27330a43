import SchemaLayout.Proofs.Analysis.Storage

/-!
# The storage analysis comes to an end

A decision on a message asks for decisions on the messages that it holds, which may be of other files, while circles
are only looked for inside one file. Still no decision is asked for that is already under way: files only refer to
files before them, so a message from which another one leads back to it is on a circle of its own file, and that is
noticed before any other decision is asked for. Hence decisions are nested no deeper than there are messages,
whatever has been decided before (`decide_terminates`). The search for circles comes to an end whatever messages
refer to, as it does not go on from a message that it has met before.
-/

namespace SchemaLayout.Storage

open Relation

variable {schema : Schema} {threshold : Nat} {α β : Type}

/-! ## The search for circles -/

/-- Like `search`, but `none` if the depth allowed does not suffice. -/
def searchWithin (schema : Schema) (file : FileId) :
    (depth : Nat) → (path : List MessageId) → Search → MessageId → Option Search
  | 0, _, _, _ => none
  | depth + 1, path, state, id =>
    if id ∈ path then
      let circle := id :: path.takeWhile (· ≠ id)
      some { state with members := circle.foldl (·.insert ·) state.members }
    else if state.visited.contains id then some state
    else
      (containedIn schema file id).foldlM (searchWithin schema file depth (id :: path))
        { state with visited := state.visited.insert id }

/-- Only messages of the schema contain others. -/
theorem mem_messageIds_of_mem_containedIn {file : FileId} {outer inner : MessageId}
    (h : inner ∈ containedIn schema file outer) : outer ∈ schema.messageIds := by
  obtain ⟨field, hfield, _⟩ := List.mem_filterMap.1 h
  exact Schema.mem_messageIds_of_mem_fieldsOf hfield

/-- If each `step state a` is `some (next state a)`, so is the fold. -/
theorem foldlM_eq_some_foldl {step : β → α → Option β} {next : β → α → β} {list : List α}
    (h : ∀ a ∈ list, ∀ state, step state a = some (next state a)) (state : β) :
    list.foldlM step state = some (list.foldl next state) := by
  induction list generalizing state with
  | nil => rfl
  | cons a rest ih =>
    obtain ⟨ha, hrest⟩ := List.forall_mem_cons.1 h
    rw [List.foldlM_cons, ha, List.foldl_cons]
    exact ih hrest _

/-- Any depth above the number of messages suffices for `searchWithin`, and its result is that of `search`:
`path` has no repetition, and all on it are messages of the schema. -/
theorem searchWithin_eq_some {file : FileId} {depth other : Nat} {path : List MessageId} {state : Search}
    {id : MessageId} (hdepth : schema.messages.size < depth + path.length)
    (hother : schema.messages.size < other + path.length) (hnodup : path.Nodup)
    (hpath : ∀ outer ∈ path, outer ∈ schema.messageIds) :
    searchWithin schema file depth path state id = some (search schema file other path state id) := by
  have hlength := length_le_of_nodup hnodup hpath
  induction depth generalizing other path state id with
  -- The hypotheses on the depths leave none of them zero: the path would be too long.
  | zero => omega
  | succ depth ih =>
    cases other with
    | zero => omega
    | succ other =>
      rw [searchWithin, search]
      split
      · rfl
      · next hid =>
        split
        · rfl
        · apply foldlM_eq_some_foldl
          intro inner hinner state
          have hin := mem_messageIds_of_mem_containedIn hinner
          have hlonger : (id :: path).Nodup := List.nodup_cons.2 ⟨hid, hnodup⟩
          have hall : ∀ outer ∈ id :: path, outer ∈ schema.messageIds := List.forall_mem_cons.2 ⟨hin, hpath⟩
          refine ih ?_ ?_ hlonger hall (length_le_of_nodup hlonger hall)
          · rw [List.length_cons]
            omega
          · rw [List.length_cons]
            omega

/-! ## Decisions under way -/

/-- Like `decideWithin`, but it fails if it is asked about a message that is `opened`: one whose decision is
under way, as it was neither known nor found to be out of line beforehand. -/
def decideOpened (schema : Schema) (threshold : Nat) :
    (depth : Nat) → (opened : List MessageId) → MessageId → Deciding Decision
  | 0, _, _ => failure
  | depth + 1, opened, id =>
    if id ∈ opened then failure
    else decideStep schema threshold (decideOpened schema threshold depth (id :: opened)) id

/-- Both computations come to the same result, and do come to one, from any memo. -/
def Agree (first second : Deciding α) : Prop :=
  ∀ memo, ∃ result, first.run memo = some result ∧ second.run memo = some result

namespace Agree

theorem pure (a : α) : Agree (pure a) (pure a) :=
  fun memo => ⟨(a, memo), rfl, rfl⟩

theorem get : Agree (get : Deciding Memo) get :=
  fun memo => ⟨(memo, memo), rfl, rfl⟩

theorem record (id : MessageId) (decision : Decision) :
    Agree (record schema id decision) (record schema id decision) :=
  fun memo => ⟨(decision, memo.insert (schema.message id).fullName decision), rfl, rfl⟩

/-- `Agree` goes through `>>=`. -/
theorem bind {first second : Deciding α} {next other : α → Deciding β} (h : Agree first second)
    (hnext : ∀ a, Agree (next a) (other a)) : Agree (first >>= next) (second >>= other) := by
  intro memo
  obtain ⟨⟨a, after⟩, hfirst, hsecond⟩ := h memo
  obtain ⟨result, hleft, hright⟩ := hnext a after
  refine ⟨result, ?_, ?_⟩
  · rw [StateT.run_bind, hfirst]
    exact hleft
  · rw [StateT.run_bind, hsecond]
    exact hright

theorem forM {action : α → Deciding PUnit} (h : ∀ a, Agree (action a) (action a)) (list : List α) :
    Agree (list.forM action) (list.forM action) := by
  induction list with
  | nil => exact .pure PUnit.unit
  | cons a rest ih => exact (h a).bind fun _ => ih

/-- `markCircles` asks for no decision, so what follows need only `Agree` for the right answer on `OnCircle`. -/
theorem markCircles_bind (hsound : schema.IsSound) {id : MessageId} {next other : Bool → Deciding α}
    (h : ∀ found, (found = true ↔ OnCircle schema id) → Agree (next found) (other found)) :
    Agree (markCircles schema id >>= next) (markCircles schema id >>= other) := by
  rw [markCircles, bind_assoc, bind_assoc]
  refine (forM (fun member => (Agree.record member .outOfLine).bind fun _ => .pure _) _).bind fun _ => ?_
  rw [pure_bind, pure_bind]
  exact h _ (mem_circleMembers_iff hsound id)

section

variable {cost other : FieldNode → Deciding Nat}

/-- `groupCost` agrees if the costs of its fields do. -/
theorem groupCost {fields : List FieldNode} (h : ∀ field ∈ fields, Agree (cost field) (other field)) :
    Agree (groupCost cost fields) (groupCost other fields) := by
  induction fields with
  | nil => exact .pure 0
  | cons field rest ih =>
    obtain ⟨hfield, hrest⟩ := List.forall_mem_cons.1 h
    exact hfield.bind fun first => (ih hrest).bind fun others => .pure (max first others)

/-- `sumCosts` agrees if the costs of all fields in `groups` do. -/
theorem sumCosts {groups : List (List FieldNode)}
    (h : ∀ group ∈ groups, ∀ field ∈ group, Agree (cost field) (other field)) (sum : Nat) :
    Agree (sumCosts threshold cost groups sum) (sumCosts threshold other groups sum) := by
  induction groups generalizing sum with
  | nil => exact .pure sum
  | cons group rest ih =>
    obtain ⟨hgroup, hrest⟩ := List.forall_mem_cons.1 h
    refine (groupCost hgroup).bind fun found => ?_
    dsimp only
    by_cases hreached : threshold ≤ addCosts sum found
    · rw [if_pos hreached, if_pos hreached]
      exact .pure _
    · rw [if_neg hreached, if_neg hreached]
      exact ih hrest _

end

/-- `fieldCost` agrees if the decisions on the message held do. -/
theorem fieldCost {next other : MessageId → Deciding Decision} {field : FieldNode}
    (h : ∀ inner, heldMessage? field = some inner → Agree (next inner) (other inner)) :
    Agree (fieldCost next field) (fieldCost other field) := by
  rw [Storage.fieldCost, Storage.fieldCost]
  split
  · next inner hsingle htarget =>
    exact (h inner (heldMessage?_eq_some_iff.2 ⟨hsingle, htarget⟩)).bind fun decision => .pure decision.fieldCost
  · exact .pure 1

/-- `decideStep` asks only for decisions on messages with `Holds`, and only if `id` is not `OnCircle`. -/
theorem decideStep (hsound : schema.IsSound) {next other : MessageId → Deciding Decision} {id : MessageId}
    (h : ¬ OnCircle schema id → ∀ inner, Holds schema id inner → Agree (next inner) (other inner)) :
    Agree (decideStep schema threshold next id) (decideStep schema threshold other id) := by
  refine Agree.get.bind fun memo => ?_
  split
  · exact .pure _
  · split
    · exact (Agree.record id .outOfLine).bind fun decision => .pure decision
    · refine markCircles_bind hsound fun found hfound => ?_
      split
      · exact .pure _
      · next hclear =>
        have hcircle : ¬ OnCircle schema id := mt hfound.2 hclear
        refine (sumCosts (fun group hgroup field hfield => ?_) 0).bind fun cost => .record id _
        have hmem := mem_fieldsOf_of_mem_costGroups hsound hgroup field hfield
        exact fieldCost fun inner hinner => h hcircle inner ⟨field, hmem, hinner⟩

end Agree

/-- A message reaches itself, so its `rank` is positive. -/
theorem rank_pos {id : MessageId} (hid : id ∈ schema.messageIds) : 0 < rank schema id :=
  Finset.card_pos.2 ⟨id, mem_reachable.2 ⟨hid, .refl⟩⟩

/-- If `id` reaches no `opened` message, `decideOpened` never meets one, and a depth of `rank schema id`
suffices. -/
theorem agree_decideOpened (hsound : schema.IsSound) {depth other : Nat} {opened : List MessageId} {id : MessageId}
    (hid : id ∈ schema.messageIds) (hopened : ∀ outer ∈ opened, ¬ ReflTransGen (Holds schema) id outer)
    (hdepth : rank schema id ≤ depth) (hother : rank schema id ≤ other) :
    Agree (decideOpened schema threshold depth opened id) (decideWithin schema threshold other id) := by
  have hpos := rank_pos hid
  induction depth generalizing other opened id with
  | zero => omega
  | succ depth ih =>
    cases other with
    | zero => omega
    | succ other =>
      have hnew : id ∉ opened := fun hmem => hopened id hmem .refl
      rw [decideOpened, if_neg hnew, decideWithin]
      refine Agree.decideStep hsound fun hcircle inner hholds => ?_
      have hlt := rank_lt hsound hholds hcircle
      obtain ⟨field, hfield, hheld⟩ := hholds
      have hin := (hsound.messageType_of_mem_fieldsOf hfield (heldMessage?_eq_some_iff.1 hheld).2).1
      refine ih hin (fun outer houter hreach => ?_) (by omega) (by omega) (rank_pos hin)
      -- The message itself cannot be reached from what it holds, as it is on no circle.
      rcases List.mem_cons.1 houter with rfl | houter
      · exact hcircle (onCircle_of_holds hsound ⟨field, hfield, hheld⟩ hreach)
      · exact hopened outer houter (.head ⟨field, hfield, hheld⟩ hreach)

/-- Fields refer to their own file or one before it. Therefore `decide` comes to an end for every threshold and
memo: `decideOpened` never fails, and a depth of `schema.messages.size` suffices. On any `graph`, `searchWithin`
comes to an end at a depth above the number of messages. -/
theorem decide_terminates {config : Config} {files : List FileDecl} (h : Schema.ofFiles config files = .ok schema) :
    (∀ field ∈ schema.fields, ∀ target, field.messageType? = some target → target ∈ schema.messageIds ∧
      (schema.message target).file.index ≤ field.file.index) ∧
    (∀ threshold memo, ∀ id ∈ schema.messageIds, ∀ depth, schema.messages.size ≤ depth →
      (decideOpened schema threshold depth [] id).run memo = some ((decide schema threshold id).run memo)) ∧
    ∀ (graph : Schema) (start : MessageId) (depth : Nat), graph.messages.size < depth →
      (searchWithin graph (graph.message start).file depth [] {} start).map (·.members) =
        some (circleMembers graph start) := by
  have hsound := Schema.isSound_ofFiles h
  refine ⟨fun field hfield target htarget => ?_, fun threshold memo id hid depth hdepth => ?_,
    fun graph start depth hdepth => ?_⟩
  · obtain ⟨index, hindex⟩ := Array.mem_iff_getElem?.1 hfield
    obtain ⟨message, hmessage, hfile⟩ := hsound.fields hindex target htarget
    refine ⟨Schema.mem_messageIds.2 (Array.getElem?_eq_some_iff.1 hmessage).1, ?_⟩
    rwa [Schema.message_of_getElem? hmessage]
  · have hrank := rank_le schema id
    -- Neither depth is below the rank of the message, so both ways of deciding come to the same.
    have hagree : Agree (decideOpened schema threshold depth [] id)
        (decideWithin schema threshold (schema.messages.size + 1) id) :=
      agree_decideOpened hsound hid (List.forall_mem_nil _) (by omega) (by omega)
    obtain ⟨result, hopened, hwithin⟩ := hagree memo
    have hdecide : (decide schema threshold id).run memo = result := by
      show ((decideWithin schema threshold (schema.messages.size + 1) id).run memo).getD _ = result
      rw [hwithin]
      rfl
    rw [hopened, hdecide]
  · have hempty : graph.messages.size < depth + ([] : List MessageId).length := hdepth
    rw [searchWithin_eq_some hempty (Nat.lt_succ_self _) List.nodup_nil (List.forall_mem_nil _)]
    rfl

/-- For lines of `pathFile`, three nested decisions suffice from an empty memo, and a path of four messages
finds the circle of paths. -/
theorem decide_terminates_path :
    ∃ schema, Schema.ofFiles {} [Schema.pathFile] = .ok schema ∧ schema.messages.size = 3 ∧
      (∃ field ∈ schema.fields, ∃ target, field.messageType? = some target ∧ target ∈ schema.messageIds ∧
        (schema.message target).file.index ≤ field.file.index) ∧
      ⟨1⟩ ∈ schema.messageIds ∧ (decideOpened schema 4 3 [] ⟨1⟩).run ∅ = some ((decide schema 4 ⟨1⟩).run ∅) ∧
        (searchWithin schema (schema.message ⟨2⟩).file 4 [] {} ⟨2⟩).map (·.members) =
          some (circleMembers schema ⟨2⟩) := by
  obtain ⟨schema, hschema⟩ := Schema.exists_ofFiles_path
  have hsize : schema.messages.size = 3 := by
    rw [Schema.messages_of_ofFiles (Schema.ofTable_proto2 rfl) hschema]
    rfl
  have hid : ⟨1⟩ ∈ schema.messageIds := by
    rw [Schema.mem_messageIds, hsize]
    decide
  obtain ⟨linking, hlinks⟩ := Schema.mapM_field_of_ofFiles (Schema.ofTable_proto2 rfl) hschema
  obtain ⟨field, hfield, hlink⟩ := @exists_getElem?_of_mapM _ _ _ _ _ _ hlinks 2 _ rfl
  have hmem : field ∈ schema.fields := Array.mem_toList_iff.1 (List.mem_of_getElem? hfield)
  obtain ⟨target, htarget⟩ : ∃ target, field.messageType? = some target := by
    obtain ⟨_, found, _, hfound, rfl⟩ := Linking.field_eq_ok_iff.1 hlink
    rcases Linking.target_cases hfound with ⟨henum, _⟩ | ⟨_, _, target, rfl, _⟩ | ⟨_, hother, _⟩
    · cases henum
    · exact ⟨target, rfl⟩
    · cases hother
  obtain ⟨htargets, hdecides, hsearches⟩ := decide_terminates hschema
  refine ⟨schema, hschema, hsize, ⟨field, hmem, target, htarget, htargets field hmem target htarget⟩, hid, ?_, ?_⟩
  · exact hdecides 4 ∅ ⟨1⟩ hid 3 (Nat.le_of_eq hsize)
  · exact hsearches schema ⟨2⟩ 4 (by omega)

end SchemaLayout.Storage
