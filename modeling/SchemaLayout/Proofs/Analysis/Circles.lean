import Mathlib.Data.List.Chain
import Mathlib.Data.List.Perm.Subperm
import SchemaLayout.Analysis.Storage
import SchemaLayout.Proofs.Schema.Assembly

/-!
# Circles of messages

A message is on a circle if it contains itself by way of messages of its own file. The search for
circles finds nothing else (`onCircle_of_mem_circleMembers`), and the message that it starts from it finds
whenever that one is on a circle (`mem_circleMembers_iff`). It may pass over other messages on circles: one
that was visited before is not gone into again, even if a circle goes through it.
-/

namespace SchemaLayout

open Relation

/-- On a chain from `first` back to `first`, every element leads back to itself by `TransGen r`. -/
theorem transGen_of_isChain {α : Type} {r : α → α → Prop} {first : α} {between : List α}
    (hchain : (first :: (between ++ [first])).IsChain r) : ∀ a ∈ first :: between, TransGen r a a := by
  have htrans : (first :: (between ++ [first])).IsChain (TransGen r) :=
    hchain.imp fun _ _ => TransGen.single
  intro a ha
  -- From the first element to `a`, unless they are the same, and from `a` on to where it comes back.
  have hback : TransGen r a first := by
    obtain ⟨before, after, hsplit⟩ := List.append_of_mem ha
    rw [← List.cons_append, hsplit, List.append_assoc] at htrans
    exact htrans.right_of_append.rel_cons (List.mem_append_right _ List.mem_cons_self)
  rcases List.mem_cons.1 ha with rfl | hlater
  · exact hback
  · exact hback.trans (htrans.rel_cons (List.mem_append_left _ hlater))

/-- If a chain comes back to `first`, all elements of `path` before that lead back to themselves, through no
others. -/
theorem transGen_of_mem_takeWhile {α : Type} [DecidableEq α] {r : α → α → Prop} {first : α}
    {path : List α} (hchain : (first :: path).IsChain r) (hfirst : first ∈ path) :
    ∀ a ∈ first :: path.takeWhile (· ≠ first),
      TransGen (fun b c => r b c ∧ b ∈ first :: path.takeWhile (· ≠ first)) a a := by
  obtain ⟨between, rest, rfl, hbetween⟩ := List.eq_append_cons_of_mem hfirst
  have htake : (between ++ first :: rest).takeWhile (· ≠ first) = between := by
    have hall (a : α) (ha : a ∈ between) : decide (a ≠ first) = true := by
      refine decide_eq_true ?_
      intro h
      subst h
      exact hbetween ha
    rw [List.takeWhile_append_of_pos hall]
    simp
  rw [htake]
  -- The chain is cut where `first` comes back, and what is left of it is a circle.
  have hsplit : first :: (between ++ first :: rest) = (first :: (between ++ [first])) ++ rest := by
    simp
  rw [hsplit] at hchain
  refine transGen_of_isChain (hchain.left_of_append.imp_of_mem_imp ?_)
  intro b c hb _ hstep
  refine ⟨hstep, ?_⟩
  rw [← List.cons_append] at hb
  rcases List.mem_append.1 hb with hb | hb
  · exact hb
  · rw [List.mem_singleton.1 hb]
    exact List.mem_cons_self

namespace Storage

/-! ## Circles -/

/-- In `file`, `outer` has a field that holds a single `inner`. -/
def Contains (schema : Schema) (file : FileId) (outer inner : MessageId) : Prop :=
  inner ∈ containedIn schema file outer

/-- `TransGen (Contains schema file)` leads from the message back to it, where `file` is its own. -/
def OnCircle (schema : Schema) (id : MessageId) : Prop :=
  TransGen (Contains schema (schema.message id).file) id id

variable {schema : Schema} {file : FileId}

/-- `Contains` in terms of fields: one that is not repeated, of a message type in `file`. -/
theorem contains_iff {outer inner : MessageId} :
    Contains schema file outer inner ↔
      ∃ field ∈ schema.fieldsOf outer, field.isRepeated = false ∧
        field.messageType? = some inner ∧ (schema.message inner).file = file := by
  simp only [Contains, containedIn, List.mem_filterMap]
  refine exists_congr fun field => and_congr_right fun _ => ?_
  cases field.isRepeated with
  | true => simp
  | false => simp [Option.filter_eq_some_iff]

theorem Contains.mem_messageIds (hsound : schema.IsSound) {outer inner : MessageId}
    (h : Contains schema file outer inner) : inner ∈ schema.messageIds := by
  obtain ⟨field, hfield, _, htarget, _⟩ := contains_iff.1 h
  exact (hsound.messageType_of_mem_fieldsOf hfield htarget).1

theorem OnCircle.mem_messageIds (hsound : schema.IsSound) {id : MessageId}
    (h : OnCircle schema id) : id ∈ schema.messageIds := by
  obtain ⟨_, _, hlast⟩ := TransGen.tail'_iff.1 h
  exact hlast.mem_messageIds hsound

/-- A circle of `Contains schema file` is one in the message's own file, hence `OnCircle`. -/
theorem onCircle_of_transGen {id : MessageId} (h : TransGen (Contains schema file) id id) :
    OnCircle schema id := by
  obtain ⟨outer, _, hlast⟩ := TransGen.tail'_iff.1 h
  obtain ⟨_, _, _, _, hfile⟩ := contains_iff.1 hlast
  rw [OnCircle, hfile]
  exact h

/-! ## What the search finds -/

theorem mem_foldl_insert {members : Std.HashSet MessageId} {ids : List MessageId} {id : MessageId} :
    id ∈ ids.foldl (·.insert ·) members ↔ id ∈ ids ∨ id ∈ members := by
  induction ids generalizing members with
  | nil => simp
  | cons first rest ih =>
    rw [List.foldl_cons, ih, Std.HashSet.mem_insert, List.mem_cons, beq_iff_eq, or_left_comm,
      or_assoc, eq_comm]

/-- The messages on `path` contain each other, the last step first, and the path leads to `id`. -/
def IsTrail (schema : Schema) (file : FileId) (path : List MessageId) (id : MessageId) : Prop :=
  (id :: path).IsChain fun inner outer => Contains schema file outer inner

/-- `Contains`, where `inner` is one of the `marked`. -/
def ContainsMarked (schema : Schema) (file : FileId) (marked : Std.HashSet MessageId)
    (outer inner : MessageId) : Prop :=
  Contains schema file outer inner ∧ inner ∈ marked

/-- If the members of `state` are on circles of members, so are those of
`search schema file depth path state id`. -/
theorem transGen_of_mem_search {depth : Nat} {path : List MessageId} {state : Search}
    {id : MessageId} (htrail : IsTrail schema file path id)
    (hstate : ∀ member ∈ state.members, TransGen (ContainsMarked schema file state.members) member member) :
    ∀ member ∈ (search schema file depth path state id).members,
      TransGen (ContainsMarked schema file (search schema file depth path state id).members) member member := by
  induction depth generalizing path state id with
  | zero => exact hstate
  | succ depth ih =>
    rw [search]
    split
    · next hid =>
      intro member hmember
      -- What is new is the part of the path since the message was met for the first time.
      rcases mem_foldl_insert.1 hmember with hcircle | hknown
      · refine transGen_swap.1 (TransGen.mono ?_ _ _ (transGen_of_mem_takeWhile htrail hid member hcircle))
        intro inner outer hstep
        exact ⟨hstep.1, mem_foldl_insert.2 (Or.inl hstep.2)⟩
      · refine TransGen.mono ?_ _ _ (hstate member hknown)
        intro outer inner hstep
        exact ⟨hstep.1, mem_foldl_insert.2 (Or.inr hstep.2)⟩
    · split
      · exact hstate
      · -- What is contained in the message is searched from one after the other.
        refine List.foldlRecOn _ _ (motive := fun state : Search =>
          ∀ member ∈ state.members, TransGen (ContainsMarked schema file state.members) member member) hstate ?_
        intro state hstate inner hinner
        exact ih (List.isChain_cons_cons.2 ⟨hinner, htrail⟩) hstate

/-- Every one of the `circleMembers` is on a circle of `circleMembers`. -/
theorem transGen_of_mem_circleMembers {start id : MessageId} (h : id ∈ circleMembers schema start) :
    TransGen (ContainsMarked schema (schema.message start).file (circleMembers schema start)) id id := by
  refine transGen_of_mem_search (List.isChain_singleton start) (fun member hmember => ?_) id h
  exact absurd hmember Std.HashSet.not_mem_empty

/-- `circleMembers` are `OnCircle`. -/
theorem onCircle_of_mem_circleMembers {start id : MessageId}
    (h : id ∈ circleMembers schema start) : OnCircle schema id :=
  onCircle_of_transGen (TransGen.mono (fun _ _ hstep => hstep.1) _ _ (transGen_of_mem_circleMembers h))

/-! ## That the start is found -/

/-- Nothing is forgotten from `before` to `after`. -/
structure Search.Grows (before after : Search) : Prop where
  visited : ∀ id ∈ before.visited, id ∈ after.visited
  members : ∀ id ∈ before.members, id ∈ after.members

theorem Search.Grows.refl (state : Search) : state.Grows state :=
  ⟨fun _ h => h, fun _ h => h⟩

theorem Search.Grows.trans {first second third : Search} (h : first.Grows second)
    (hnext : second.Grows third) : first.Grows third :=
  ⟨fun id hid => hnext.visited id (h.visited id hid),
    fun id hid => hnext.members id (h.members id hid)⟩

theorem grows_search (depth : Nat) (path : List MessageId) (state : Search) (id : MessageId) :
    state.Grows (search schema file depth path state id) := by
  induction depth generalizing path state id with
  | zero => exact .refl state
  | succ depth ih =>
    rw [search]
    split
    · exact ⟨fun _ h => h, fun _ h => mem_foldl_insert.2 (Or.inr h)⟩
    · split
      · exact .refl state
      · refine List.foldlRecOn _ _ (motive := fun after : Search => state.Grows after) ?_ ?_
        · exact ⟨fun _ h => Std.HashSet.mem_insert.2 (Or.inr h), fun _ h => h⟩
        · intro middle hmiddle inner _
          exact hmiddle.trans (ih _ middle inner)

/-- `id` is visited, and if it is `start`, then `start` is among the members. -/
def Search.Reached (start : MessageId) (state : Search) (id : MessageId) : Prop :=
  id ∈ state.visited ∧ (id = start → start ∈ state.members)

theorem Search.Reached.of_grows {start id : MessageId} {before after : Search}
    (h : before.Reached start id) (hgrows : before.Grows after) : after.Reached start id :=
  ⟨hgrows.visited id h.1, fun heq => hgrows.members start (h.2 heq)⟩

/-- Everything visited is on `path`, or all that it contains is `Reached`. -/
structure Search.IsComplete (schema : Schema) (file : FileId) (start : MessageId)
    (path : List MessageId) (state : Search) : Prop where
  onPath : ∀ id ∈ path, id ∈ state.visited
  throughWith : ∀ id ∈ state.visited, id ∉ path →
    ∀ inner, Contains schema file id inner → state.Reached start inner

section

variable {start : MessageId} {path : List MessageId}

/-- With `id` put on the path and visited, everything on the path is still visited. -/
theorem onPath_insert {visited : Std.HashSet MessageId} (h : ∀ other ∈ path, other ∈ visited) (id : MessageId) :
    ∀ other ∈ id :: path, other ∈ visited.insert id := by
  intro other hother
  rcases List.mem_cons.1 hother with rfl | hother
  · exact Std.HashSet.mem_insert_self
  · exact Std.HashSet.mem_insert.2 (Or.inr (h other hother))

/-- With `id` put on the path and visited, nothing new is visited off the path. -/
theorem offPath_insert {visited : Std.HashSet MessageId} {P : MessageId → Prop}
    (h : ∀ other ∈ visited, other ∉ path → P other) (id : MessageId) :
    ∀ other ∈ visited.insert id, other ∉ id :: path → P other := by
  intro other hother hpath
  obtain ⟨hne, hpath⟩ := not_or.1 (mt List.mem_cons.2 hpath)
  have hold : other ∈ visited :=
    (Std.HashSet.mem_insert.1 hother).resolve_left fun heq => hne (eq_of_beq heq).symm
  exact h other hold hpath

/-- With `id` taken from the path, it is the only other message visited off it. -/
theorem offPath_tail {visited : Std.HashSet MessageId} {P : MessageId → Prop} {id : MessageId}
    (h : ∀ other ∈ visited, other ∉ id :: path → P other) (hid : P id) :
    ∀ other ∈ visited, other ∉ path → P other := by
  intro other hother hpath
  by_cases heq : other = id
  · rw [heq]
    exact hid
  · exact h other hother fun hmem => hpath ((List.mem_cons.1 hmem).resolve_left heq)

/-- `IsComplete` is kept when `id` is visited and put on the path. -/
theorem Search.IsComplete.enter {state : Search} (h : state.IsComplete schema file start path)
    (id : MessageId) :
    Search.IsComplete schema file start (id :: path)
      { state with visited := state.visited.insert id } where
  onPath := onPath_insert h.onPath id
  throughWith := by
    refine offPath_insert (fun other hother hpath inner hinner => ?_) id
    obtain ⟨hvisited, hback⟩ := h.throughWith other hother hpath inner hinner
    exact ⟨Std.HashSet.mem_insert.2 (Or.inr hvisited), hback⟩

/-- `IsComplete` is kept when `id` is taken from the path, once all of `containedIn schema file id` is
`Reached`. -/
theorem Search.IsComplete.leave {state : Search} {id : MessageId}
    (h : state.IsComplete schema file start (id :: path))
    (hreached : ∀ inner ∈ containedIn schema file id, state.Reached start inner) :
    state.IsComplete schema file start path where
  onPath other hother := h.onPath other (List.mem_cons_of_mem id hother)
  throughWith := offPath_tail h.throughWith hreached

/-- If `step state inner` makes `Q` hold of `inner`, and growing keeps `Q`, then after a fold of `step` over
`inners` it holds of all of them. -/
theorem foldl_reaches {P : Search → Prop} {Q : Search → MessageId → Prop} {step : Search → MessageId → Search}
    {inners : List MessageId} (hgrows : ∀ (state : Search) (inner : MessageId), state.Grows (step state inner))
    (hkeep : ∀ (before after : Search) (inner : MessageId), Q before inner → before.Grows after → Q after inner)
    (hstep : ∀ inner ∈ inners, ∀ state : Search, P state → P (step state inner) ∧ Q (step state inner) inner)
    {state : Search} (hstate : P state) :
    P (inners.foldl step state) ∧ ∀ inner ∈ inners, Q (inners.foldl step state) inner := by
  induction inners generalizing state with
  | nil => exact ⟨hstate, by simp⟩
  | cons first rest ih =>
    obtain ⟨hfirst, hrest⟩ := List.forall_mem_cons.1 hstep
    obtain ⟨hafter, hreached⟩ := hfirst state hstate
    obtain ⟨hlast, hothers⟩ := ih hrest hafter
    refine ⟨hlast, List.forall_mem_cons.2 ⟨hkeep _ _ first hreached ?_, hothers⟩⟩
    refine List.foldlRecOn rest step
      (motive := fun after : Search => (step state first).Grows after) (.refl _) ?_
    intro middle hmiddle inner _
    exact hmiddle.trans (hgrows middle inner)

/-- A path without repetition is no longer than `schema.messages.size`. -/
theorem length_le_of_nodup (hnodup : path.Nodup) (hpath : ∀ id ∈ path, id ∈ schema.messageIds) :
    path.length ≤ schema.messages.size := by
  have hle := (hnodup.subperm hpath).length_le
  rwa [Schema.messageIds, List.length_map, List.length_range] at hle

/-- `search` keeps `IsComplete`, visits `id`, and makes it `Reached` if `start` is on the path. Since `path` has
no repetition, the depth allowed is not used up. -/
theorem isComplete_search (hsound : schema.IsSound) {depth : Nat} {state : Search} {id : MessageId}
    (hdepth : schema.messages.size < depth + path.length) (hnodup : path.Nodup)
    (hpath : ∀ other ∈ id :: path, other ∈ schema.messageIds) (hstart : start ∈ id :: path)
    (hstate : state.IsComplete schema file start path) :
    (search schema file depth path state id).IsComplete schema file start path ∧
      id ∈ (search schema file depth path state id).visited ∧
      (start ∈ path → (search schema file depth path state id).Reached start id) := by
  induction depth generalizing path state id with
  | zero =>
    -- The path would have more steps than there are messages.
    have hle := length_le_of_nodup hnodup (List.forall_mem_cons.1 hpath).2
    omega
  | succ depth ih =>
    rw [search]
    split
    · next hid =>
      -- The path closes: the message is on it, and if it is the start, it is a member from now on.
      have hvisited := hstate.onPath id hid
      refine ⟨⟨hstate.onPath, fun other hother hpath inner hinner => ?_⟩, hvisited,
        fun _ => ⟨hvisited, ?_⟩⟩
      · exact (hstate.throughWith other hother hpath inner hinner).of_grows
          ⟨fun _ h => h, fun _ h => mem_foldl_insert.2 (Or.inr h)⟩
      · intro h
        subst h
        exact mem_foldl_insert.2 (Or.inl List.mem_cons_self)
    · next hid =>
      split
      · next hvisited =>
        -- The start is at the end of the path, so it is not what was met here.
        refine ⟨hstate, hvisited, fun hbottom => ⟨hvisited, fun heq => ?_⟩⟩
        exact absurd (heq ▸ hbottom) hid
      · have hstep (inner : MessageId) (hinner : inner ∈ containedIn schema file id)
            (middle : Search) (hmiddle : middle.IsComplete schema file start (id :: path)) :
            (search schema file depth (id :: path) middle inner).IsComplete schema file start
              (id :: path) ∧
            (search schema file depth (id :: path) middle inner).Reached start inner := by
          have hin := Contains.mem_messageIds hsound hinner
          obtain ⟨hcomplete, _, hreached⟩ := ih
            (by rw [List.length_cons]; omega) (List.nodup_cons.2 ⟨hid, hnodup⟩)
            (List.forall_mem_cons.2 ⟨hin, hpath⟩) (List.mem_cons_of_mem _ hstart) hmiddle
          exact ⟨hcomplete, hreached hstart⟩
        -- All that it contains has been gone into, so the message may leave the path.
        obtain ⟨hafter, hreached⟩ := foldl_reaches (grows_search depth (id :: path))
          (fun _ _ _ hreached hgrows => hreached.of_grows hgrows) hstep (hstate.enter id)
        have hvisited := hafter.onPath id List.mem_cons_self
        exact ⟨hafter.leave hreached, hvisited, fun hbottom =>
          ⟨hvisited, fun heq => absurd (heq ▸ hbottom) hid⟩⟩

end

/-- The search that `circleMembers` makes is complete with an empty path, and has visited `start`. -/
theorem isComplete_search_start (hsound : schema.IsSound) {start : MessageId} (hstart : start ∈ schema.messageIds) :
    (search schema (schema.message start).file (schema.messages.size + 1) [] {} start).IsComplete schema
        (schema.message start).file start [] ∧
      start ∈ (search schema (schema.message start).file (schema.messages.size + 1) [] {} start).visited := by
  have hstate : Search.IsComplete schema (schema.message start).file start [] {} :=
    ⟨by simp, fun id hid => absurd hid Std.HashSet.not_mem_empty⟩
  obtain ⟨hcomplete, hvisited, _⟩ := isComplete_search hsound
    (show schema.messages.size < schema.messages.size + 1 + ([] : List MessageId).length by simp)
    List.nodup_nil (by simpa using hstart) List.mem_cons_self hstate
  exact ⟨hcomplete, hvisited⟩

/-- What can be reached from `start` by `Contains` is visited. -/
theorem mem_visited_of_reflTransGen (hsound : schema.IsSound) {start id : MessageId}
    (hstart : start ∈ schema.messageIds)
    (hreach : ReflTransGen (Contains schema (schema.message start).file) start id) :
    id ∈ (search schema (schema.message start).file (schema.messages.size + 1) [] {} start).visited := by
  obtain ⟨hcomplete, hvisited⟩ := isComplete_search_start hsound hstart
  induction hreach with
  | refl => exact hvisited
  | tail _ hstep ih => exact (hcomplete.throughWith _ ih List.not_mem_nil _ hstep).1

/-- `circleMembers schema start` has `start` among them exactly if `start` is `OnCircle`. -/
theorem mem_circleMembers_iff (hsound : schema.IsSound) (start : MessageId) :
    start ∈ circleMembers schema start ↔ OnCircle schema start := by
  refine ⟨onCircle_of_mem_circleMembers, fun hcircle => ?_⟩
  obtain ⟨outer, hreach, hlast⟩ := TransGen.tail'_iff.1 hcircle
  have hin := hlast.mem_messageIds hsound
  have hcomplete := (isComplete_search_start hsound hin).1
  -- The message before the start on the circle has been gone into, and the search notices that it is back.
  exact (hcomplete.throughWith outer (mem_visited_of_reflTransGen hsound hin hreach) List.not_mem_nil start hlast).2 rfl

end Storage

end SchemaLayout
