import SchemaLayout.Proofs.Analysis.Termination
import SchemaLayout.Proofs.Schema.LoneFields

/-!
# What a search for circles marks

Before the cost of a message is looked at, a search from it is made for circles, and what is found is recorded as out
of line (`markCircles`). The search goes into no message twice. A message on a circle that closes by way of one it is
through with already is therefore passed over, although it could be reached (`not_marksAll_author`).

What can be said of the messages that are found (`IsMarking`): they are on circles of such messages, and of all circles
within reach none is without one. They are all that are on circles exactly if, with every message, they hold those that
it contains and that lead back to it (`IsMarking.marksAll_iff`); so they are if circles have no messages in common
(`marksAll_circleMembers_of_unique`).
-/

namespace SchemaLayout.Storage

open Relation

/-! ## Marks -/

/-- `id` is reached from `start` by `Contains` within the file of `start`. -/
def IsWithin (schema : Schema) (start id : MessageId) : Prop :=
  ReflTransGen (Contains schema (schema.message start).file) start id

/-- `Contains`, where `inner` is none of the `marked`. -/
def ContainsUnmarked (schema : Schema) (file : FileId) (marked : Std.HashSet MessageId)
    (outer inner : MessageId) : Prop :=
  Contains schema file outer inner ∧ inner ∉ marked

/-- The `marked` are `IsWithin` and on circles of `marked` messages, no circle within reach is without one of
them, and `start` is one exactly if it is `OnCircle`. -/
structure IsMarking (schema : Schema) (start : MessageId) (marked : Std.HashSet MessageId) : Prop where
  within : ∀ id ∈ marked, IsWithin schema start id
  circles : ∀ id ∈ marked, TransGen (ContainsMarked schema (schema.message start).file marked) id id
  noneLeft : ∀ id, IsWithin schema start id →
    ¬ TransGen (ContainsUnmarked schema (schema.message start).file marked) id id
  start_iff : start ∈ marked ↔ OnCircle schema start

/-- The `marked` are all messages with `IsWithin` and `OnCircle`. -/
def MarksAll (schema : Schema) (start : MessageId) (marked : Std.HashSet MessageId) : Prop :=
  ∀ id, id ∈ marked ↔ IsWithin schema start id ∧ OnCircle schema id

/-- With a marked message, every `inner` that comes next on a circle through it is marked. -/
def FollowsCircles (schema : Schema) (file : FileId) (marked : Std.HashSet MessageId) : Prop :=
  ∀ outer ∈ marked, ∀ inner, Contains schema file outer inner →
    ReflTransGen (Contains schema file) inner outer → inner ∈ marked

variable {schema : Schema} {file : FileId} {start : MessageId}

theorem IsWithin.file_eq {id : MessageId} (h : IsWithin schema start id) :
    (schema.message id).file = (schema.message start).file := by
  cases h with
  | refl => rfl
  | tail _ hlast =>
    obtain ⟨_, _, _, _, hfile⟩ := contains_iff.1 hlast
    exact hfile

/-! ## What is within reach -/

/-- The members that `search` adds are reached from `start` if the path and the members before are. -/
theorem reflTransGen_of_mem_search {depth : Nat} {path : List MessageId} {state : Search} {id : MessageId}
    (hpath : ∀ other ∈ id :: path, ReflTransGen (Contains schema file) start other)
    (hstate : ∀ member ∈ state.members, ReflTransGen (Contains schema file) start member) :
    ∀ member ∈ (search schema file depth path state id).members,
      ReflTransGen (Contains schema file) start member := by
  induction depth generalizing path state id with
  | zero => exact hstate
  | succ depth ih =>
    rw [search]
    split
    · -- What is added comes from the path, all of which can be reached.
      intro member hmember
      rcases mem_foldl_insert.1 hmember with hcircle | hknown
      · exact hpath member (List.cons_subset_cons id (List.takeWhile_subset _) hcircle)
      · exact hstate member hknown
    · split
      · exact hstate
      · refine List.foldlRecOn _ _ (motive := fun state : Search =>
          ∀ member ∈ state.members, ReflTransGen (Contains schema file) start member) hstate ?_
        intro state hstate inner hinner
        have hreach : ReflTransGen (Contains schema file) start inner :=
          (hpath id List.mem_cons_self).tail hinner
        exact ih (List.forall_mem_cons.2 ⟨hreach, hpath⟩) hstate

/-! ## That no circle is left -/

/-- Going on by `ContainsUnmarked` from `id` comes to an end. -/
def IsSettled (schema : Schema) (file : FileId) (marked : Std.HashSet MessageId) (id : MessageId) : Prop :=
  Acc (Function.swap (ContainsUnmarked schema file marked)) id

/-- A message with `IsSettled` is on no circle of unmarked messages. -/
theorem IsSettled.not_transGen {marked : Std.HashSet MessageId} {id : MessageId}
    (h : IsSettled schema file marked id) : ¬ TransGen (ContainsUnmarked schema file marked) id id := by
  intro hcircle
  have hback := transGen_swap.2 hcircle
  have hacc : Acc (TransGen (Function.swap (ContainsUnmarked schema file marked))) id := h.transGen
  clear h hcircle
  induction hacc with
  | intro id _ ih => exact ih id hback hback

theorem IsSettled.of_grows {before after : Search} {id : MessageId}
    (h : IsSettled schema file before.members id) (hgrows : before.Grows after) :
    IsSettled schema file after.members id :=
  Subrelation.accessible (fun hstep => ⟨hstep.1, fun hmem => hstep.2 (hgrows.members _ hmem)⟩) h

/-- `id` is a member, or `IsSettled`. -/
def Search.Treats (schema : Schema) (file : FileId) (state : Search) (id : MessageId) : Prop :=
  id ∈ state.members ∨ IsSettled schema file state.members id

theorem Search.Treats.of_grows {before after : Search} {id : MessageId} (h : before.Treats schema file id)
    (hgrows : before.Grows after) : after.Treats schema file id :=
  h.imp (hgrows.members id) fun hsettled => hsettled.of_grows hgrows

/-- Everything visited is on `path` or `IsSettled`. -/
structure Search.IsClear (schema : Schema) (file : FileId) (path : List MessageId) (state : Search) : Prop where
  onPath : ∀ id ∈ path, id ∈ state.visited
  settled : ∀ id ∈ state.visited, id ∉ path → IsSettled schema file state.members id

section

variable {path : List MessageId} {state : Search}

/-- `IsClear` is kept when `id` is visited and put on the path. -/
theorem Search.IsClear.enter (h : state.IsClear schema file path) (id : MessageId) :
    Search.IsClear schema file (id :: path) { state with visited := state.visited.insert id } where
  onPath := onPath_insert h.onPath id
  settled := offPath_insert h.settled id

/-- `id` is settled once the search `Treats` all of `containedIn schema file id`. -/
theorem isSettled_of_treats {id : MessageId}
    (h : ∀ inner ∈ containedIn schema file id, state.Treats schema file inner) :
    IsSettled schema file state.members id := by
  refine Acc.intro id ?_
  intro inner hstep
  exact (h inner hstep.1).resolve_left hstep.2

/-- `IsClear` is kept when a settled `id` is taken from the path. -/
theorem Search.IsClear.leave {id : MessageId} (h : state.IsClear schema file (id :: path))
    (hsettled : IsSettled schema file state.members id) : state.IsClear schema file path where
  onPath other hother := h.onPath other (List.mem_cons_of_mem id hother)
  settled := offPath_tail h.settled hsettled

/-- `search` keeps `IsClear` and `Treats` the message it is called for: on the path it is marked, visited before
it is settled, and else it is settled by `isSettled_of_treats`. -/
theorem isClear_search (hsound : schema.IsSound) {depth : Nat} {id : MessageId}
    (hdepth : schema.messages.size < depth + path.length) (hnodup : path.Nodup)
    (hpath : ∀ other ∈ id :: path, other ∈ schema.messageIds) (hstate : state.IsClear schema file path) :
    (search schema file depth path state id).IsClear schema file path ∧
      (search schema file depth path state id).Treats schema file id := by
  induction depth generalizing path state id with
  | zero =>
    -- A path without repetition is no longer than there are messages, so the depth is not used up.
    have hle := length_le_of_nodup hnodup (List.forall_mem_cons.1 hpath).2
    omega
  | succ depth ih =>
    rw [search]
    split
    · refine ⟨⟨hstate.onPath, ?_⟩, Or.inl (mem_foldl_insert.2 (Or.inl List.mem_cons_self))⟩
      intro other hother hout
      exact (hstate.settled other hother hout).of_grows ⟨fun _ h => h, fun _ h => mem_foldl_insert.2 (Or.inr h)⟩
    · next hid =>
      split
      · next hvisited => exact ⟨hstate, Or.inr (hstate.settled id hvisited hid)⟩
      · -- With the message on the path, the search of each message it contains is shorter by one.
        have hstep (inner : MessageId) (hinner : inner ∈ containedIn schema file id) (middle : Search)
            (hmiddle : middle.IsClear schema file (id :: path)) :
            (search schema file depth (id :: path) middle inner).IsClear schema file (id :: path) ∧
              (search schema file depth (id :: path) middle inner).Treats schema file inner := by
          have hin := Contains.mem_messageIds hsound hinner
          exact ih (by rw [List.length_cons]; omega) (List.nodup_cons.2 ⟨hid, hnodup⟩)
            (List.forall_mem_cons.2 ⟨hin, hpath⟩) hmiddle
        obtain ⟨hafter, htreats⟩ := foldl_reaches (grows_search depth (id :: path))
          (fun _ _ _ htreats hgrows => htreats.of_grows hgrows) hstep (hstate.enter id)
        have hsettled := isSettled_of_treats htreats
        exact ⟨hafter.leave hsettled, Or.inr hsettled⟩

end

/-- `circleMembers schema start` is a marking. -/
theorem isMarking_circleMembers (hsound : schema.IsSound) (hstart : start ∈ schema.messageIds) :
    IsMarking schema start (circleMembers schema start) where
  within := by
    refine reflTransGen_of_mem_search ?_ fun member hmember => absurd hmember Std.HashSet.not_mem_empty
    intro other hother
    rw [List.mem_singleton.1 hother]
  circles id hid := transGen_of_mem_circleMembers hid
  noneLeft id hid := by
    have hstate : Search.IsClear schema (schema.message start).file [] {} :=
      ⟨by simp, fun id hid => absurd hid Std.HashSet.not_mem_empty⟩
    have hclear := (isClear_search hsound
      (show schema.messages.size < schema.messages.size + 1 + ([] : List MessageId).length by simp)
      List.nodup_nil (by simpa using hstart) hstate).1
    exact (hclear.settled id (mem_visited_of_reflTransGen hsound hstart hid) List.not_mem_nil).not_transGen
  start_iff := mem_circleMembers_iff hsound start

/-! ## When all are marked -/

/-- On a way by `Contains`, all after `outer` is unmarked, or some `id` on it is marked. -/
theorem transGen_unmarked_or_exists_marked {marked : Std.HashSet MessageId} {outer inner : MessageId}
    (h : TransGen (Contains schema file) outer inner) :
    TransGen (ContainsUnmarked schema file marked) outer inner ∨
      ∃ id ∈ marked, ReflTransGen (Contains schema file) outer id ∧ ReflTransGen (Contains schema file) id inner := by
  induction h with
  | @single next hstep =>
    by_cases hnext : next ∈ marked
    · exact Or.inr ⟨next, hnext, .single hstep, .refl⟩
    · exact Or.inl (.single ⟨hstep, hnext⟩)
  | @tail middle next hreach hstep ih =>
    rcases ih with hunmarked | ⟨id, hid, hforth, hback⟩
    · by_cases hnext : next ∈ marked
      · exact Or.inr ⟨next, hnext, hreach.to_reflTransGen.tail hstep, .refl⟩
      · exact Or.inl (hunmarked.tail ⟨hstep, hnext⟩)
    · exact Or.inr ⟨id, hid, hforth, hback.tail hstep⟩

/-- With `FollowsCircles`, whatever a marked `outer` reaches and is reached from is marked. -/
theorem FollowsCircles.mem_of_reflTransGen {marked : Std.HashSet MessageId} (h : FollowsCircles schema file marked)
    {outer id : MessageId} (houter : outer ∈ marked) (hforth : ReflTransGen (Contains schema file) outer id)
    (hback : ReflTransGen (Contains schema file) id outer) : id ∈ marked := by
  induction hforth using ReflTransGen.head_induction_on with
  | refl => exact houter
  | @head outer next hstep hrest ih =>
    exact ih (h outer houter next hstep (hrest.trans hback)) (hback.tail hstep)

/-- A marking satisfies `MarksAll` exactly if it satisfies `FollowsCircles`. -/
theorem IsMarking.marksAll_iff {marked : Std.HashSet MessageId} (h : IsMarking schema start marked) :
    MarksAll schema start marked ↔ FollowsCircles schema (schema.message start).file marked := by
  constructor
  · intro hall outer houter inner hstep hback
    exact (hall inner).2 ⟨(h.within outer houter).tail hstep, onCircle_of_transGen (TransGen.tail' hback hstep)⟩
  · intro hfollows id
    constructor
    · intro hid
      exact ⟨h.within id hid, onCircle_of_transGen (TransGen.mono (fun _ _ hstep => hstep.1) _ _ (h.circles id hid))⟩
    · rintro ⟨hwithin, hcircle⟩
      rw [OnCircle, hwithin.file_eq] at hcircle
      -- On the circle is a marked message, from which it goes on to the message.
      obtain ⟨outer, houter, hback, hforth⟩ :=
        (transGen_unmarked_or_exists_marked hcircle).resolve_left (h.noneLeft id hwithin)
      exact hfollows.mem_of_reflTransGen houter hforth hback

/-- If no message contains two that lead back to it, so that circles have no message in common, `circleMembers`
satisfies `MarksAll`. -/
theorem marksAll_circleMembers_of_unique (hsound : schema.IsSound) (hstart : start ∈ schema.messageIds)
    (hunique : ∀ outer inner other, Contains schema (schema.message start).file outer inner →
      ReflTransGen (Contains schema (schema.message start).file) inner outer →
      Contains schema (schema.message start).file outer other →
      ReflTransGen (Contains schema (schema.message start).file) other outer → inner = other) :
    MarksAll schema start (circleMembers schema start) := by
  have h := isMarking_circleMembers hsound hstart
  refine h.marksAll_iff.2 ?_
  intro outer houter inner hstep hback
  obtain ⟨next, ⟨hnext, hmarked⟩, hrest⟩ := TransGen.head'_iff.1 (h.circles outer houter)
  have hreturn : ReflTransGen (Contains schema (schema.message start).file) next outer :=
    ReflTransGen.mono (fun _ _ hstep => hstep.1) _ _ hrest
  rw [hunique outer inner next hstep hback hnext hreturn]
  exact hmarked

/-! ## What is recorded -/

theorem run_forM_record (ids : List MessageId) (memo : Memo) :
    (ids.forM fun id => discard (record schema id .outOfLine)).run memo =
      some ((), ids.foldl (fun memo id => memo.insert (schema.message id).fullName .outOfLine) memo) := by
  induction ids generalizing memo with
  | nil => rfl
  | cons id rest ih => exact ih _

/-- The memo after inserting the names of `ids`. -/
theorem getElem?_foldl_insert (ids : List MessageId) (memo : Memo) (name : String) :
    (ids.foldl (fun memo id => memo.insert (schema.message id).fullName .outOfLine) memo)[name]? =
      if name ∈ ids.map fun id => (schema.message id).fullName then some .outOfLine else memo[name]? := by
  induction ids generalizing memo with
  | nil => simp
  | cons id rest ih =>
    rw [List.foldl_cons, ih, Std.HashMap.getElem?_insert]
    by_cases hid : (schema.message id).fullName = name
    · simp [hid]
    · simp [hid, Ne.symm hid]

/-- `markCircles` records `circleMembers` as out of line, leaves what is known of other messages, and answers
whether `start` is one of them. -/
theorem run_markCircles (hsound : schema.IsSound) (start : MessageId) (memo : Memo) :
    ∃ after, (markCircles schema start).run memo = some ((circleMembers schema start).contains start, after) ∧
      ∀ id ∈ schema.messageIds, after[(schema.message id).fullName]? =
        if id ∈ circleMembers schema start then some .outOfLine else memo[(schema.message id).fullName]? := by
  refine ⟨(circleMembers schema start).toList.foldl
    (fun memo id => memo.insert (schema.message id).fullName .outOfLine) memo, ?_, ?_⟩
  · rw [markCircles, StateT.run_bind, run_forM_record]
    rfl
  · intro id hid
    -- The memo goes by names, so a name among those inserted has to be that of a member.
    have hiff : (schema.message id).fullName ∈
        (circleMembers schema start).toList.map (fun id => (schema.message id).fullName) ↔
          id ∈ circleMembers schema start := by
      constructor
      · intro hname
        obtain ⟨member, hmember, hname⟩ := List.mem_map.1 hname
        have hfound := Std.HashSet.mem_toList.1 hmember
        have hin := (onCircle_of_mem_circleMembers hfound).mem_messageIds hsound
        rw [← hsound.eq_of_fullName_eq hin hid hname]
        exact hfound
      · intro hfound
        exact List.mem_map.2 ⟨id, Std.HashSet.mem_toList.2 hfound, rfl⟩
    rw [getElem?_foldl_insert]
    exact if_congr hiff rfl rfl

/-- From every message, `markCircles` records a set with `IsMarking` as out of line, leaves what is known of
other messages, and answers whether `start` is in it. The set satisfies `MarksAll` exactly if it satisfies
`FollowsCircles`. -/
theorem markCircles_isMarking {config : Config} {files : List FileDecl}
    (hfiles : Schema.ofFiles config files = .ok schema) (hstart : start ∈ schema.messageIds) :
    ∃ marked : Std.HashSet MessageId, IsMarking schema start marked ∧
      (MarksAll schema start marked ↔ FollowsCircles schema (schema.message start).file marked) ∧
      ∀ memo, ∃ after, (markCircles schema start).run memo = some (marked.contains start, after) ∧
        ∀ id ∈ schema.messageIds, after[(schema.message id).fullName]? =
          if id ∈ marked then some .outOfLine else memo[(schema.message id).fullName]? := by
  have hsound := Schema.isSound_ofFiles hfiles
  have hmarking := isMarking_circleMembers hsound hstart
  exact ⟨circleMembers schema start, hmarking, hmarking.marksAll_iff, run_markCircles hsound start⟩

/-! ## Authors, books and publishers -/

/-- Authors have a book and a publisher, books have an author, and publishers have a book. -/
def booksFile : FileDecl where
  name := "books.proto"
  messageType := [
    { name := "Author"
      field := [
        { name := "book", number := 1, type := .message, typeName := some "Book" },
        { name := "publisher", number := 2, type := .message, typeName := some "Publisher" }] },
    { name := "Book", field := [{ name := "author", number := 1, type := .message, typeName := some "Author" }] },
    { name := "Publisher", field := [{ name := "book", number := 1, type := .message, typeName := some "Book" }] }]

theorem exists_ofFiles_books : ∃ schema, Schema.ofFiles {} [booksFile] = .ok schema :=
  Schema.exists_ofFiles_proto2 booksFile rfl rfl (by cbv)

theorem mem_messageIds_books (h : Schema.ofFiles {} [booksFile] = .ok schema) {index : Nat} (hindex : index < 3) :
    ⟨index⟩ ∈ schema.messageIds := by
  rw [Schema.mem_messageIds, Schema.messages_of_ofFiles (Schema.ofTable_proto2 rfl) h]
  exact hindex

/-- `IsMarking` for a search from the author. -/
theorem markCircles_isMarking_author :
    ∃ schema, Schema.ofFiles {} [booksFile] = .ok schema ∧ ⟨0⟩ ∈ schema.messageIds ∧
      ∃ marked, IsMarking schema ⟨0⟩ marked ∧ ∀ memo, ∃ after,
        (markCircles schema ⟨0⟩).run memo = some (marked.contains ⟨0⟩, after) ∧
          ∀ id ∈ schema.messageIds, after[(schema.message id).fullName]? =
            if id ∈ marked then some .outOfLine else memo[(schema.message id).fullName]? := by
  obtain ⟨schema, hschema⟩ := exists_ofFiles_books
  have hauthor := mem_messageIds_books hschema (show 0 < 3 by decide)
  obtain ⟨marked, hmarking, _, hrun⟩ := markCircles_isMarking hschema hauthor
  exact ⟨schema, hschema, hauthor, marked, hmarking, hrun⟩

theorem containedIn_books (h : Schema.ofFiles {} [booksFile] = .ok schema) :
    containedIn schema ⟨0⟩ ⟨0⟩ = [⟨1⟩, ⟨2⟩] ∧ containedIn schema ⟨0⟩ ⟨1⟩ = [⟨0⟩] ∧
      containedIn schema ⟨0⟩ ⟨2⟩ = [⟨1⟩] := by
  simp only [containedIn, Schema.fieldsOf_eq_fieldAmong (Schema.ofTable_proto2 rfl) h, Schema.message,
    Schema.messages_of_ofFiles (Schema.ofTable_proto2 rfl) h]
  refine ⟨?_, ?_, ?_⟩ <;> cbv

/-- The three messages are in one file, and the last one is the publisher. -/
theorem message_books (h : Schema.ofFiles {} [booksFile] = .ok schema) :
    schema.messages.size = 3 ∧ (schema.message ⟨0⟩).file = ⟨0⟩ ∧ (schema.message ⟨2⟩).file = ⟨0⟩ ∧
      (schema.message ⟨2⟩).fullName = "Publisher" := by
  simp only [Schema.message, Schema.messages_of_ofFiles (Schema.ofTable_proto2 rfl) h]
  exact ⟨rfl, rfl, rfl, rfl⟩

/-- `MarksAll` fails for a search from the author: the publisher is `OnCircle`, but the search is through with
the book when it gets there from the publisher, so only the others are marked. -/
theorem not_marksAll_author :
    ∃ schema, Schema.ofFiles {} [booksFile] = .ok schema ∧ ⟨0⟩ ∈ schema.messageIds ∧
      ¬ MarksAll schema ⟨0⟩ (circleMembers schema ⟨0⟩) ∧ IsWithin schema ⟨0⟩ ⟨2⟩ ∧ OnCircle schema ⟨2⟩ ∧
        ∃ after, (markCircles schema ⟨0⟩).run ∅ = some (true, after) ∧ after["Publisher"]? = none := by
  obtain ⟨schema, hschema⟩ := exists_ofFiles_books
  obtain ⟨hauthor, hbook, hpublisher⟩ := containedIn_books hschema
  obtain ⟨hsize, hfile, hown, hname⟩ := message_books hschema
  have htopublisher : Contains schema ⟨0⟩ ⟨0⟩ ⟨2⟩ := by
    rw [Contains, hauthor]
    decide
  have htobook : Contains schema ⟨0⟩ ⟨2⟩ ⟨1⟩ := by
    rw [Contains, hpublisher]
    decide
  have htoauthor : Contains schema ⟨0⟩ ⟨1⟩ ⟨0⟩ := by
    rw [Contains, hbook]
    decide
  have hwithin : IsWithin schema ⟨0⟩ ⟨2⟩ := by
    rw [IsWithin, hfile]
    exact .single htopublisher
  have hcircle : OnCircle schema ⟨2⟩ := by
    rw [OnCircle, hown]
    exact ((TransGen.single htobook).tail htoauthor).tail htopublisher
  -- The search from the author runs over the three messages.
  have hmarked : ⟨0⟩ ∈ circleMembers schema ⟨0⟩ ∧ ⟨2⟩ ∉ circleMembers schema ⟨0⟩ := by
    rw [circleMembers, hsize, hfile]
    simp [search, hauthor, hbook, hpublisher]
  obtain ⟨after, hrun, hafter⟩ := run_markCircles (Schema.isSound_ofFiles hschema) ⟨0⟩ ∅
  refine ⟨schema, hschema, mem_messageIds_books hschema (by decide), ?_, hwithin, hcircle, after, ?_, ?_⟩
  · intro hall
    exact hmarked.2 ((hall ⟨2⟩).2 ⟨hwithin, hcircle⟩)
  · rw [hrun, Std.HashSet.mem_iff_contains.1 hmarked.1]
  · have hunknown := hafter ⟨2⟩ (mem_messageIds_books hschema (by decide))
    rw [hname, if_neg hmarked.2] at hunknown
    rw [hunknown]
    exact Std.HashMap.getElem?_empty

end SchemaLayout.Storage
