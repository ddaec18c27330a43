import SchemaLayout.Proofs.Analysis.Circles
import SchemaLayout.Proofs.Analysis.Initialization

/-!
# What a walk finds

Values of a message must be checked for missing required fields exactly if some message that can be reached
from it by references of its fields has a required field or admits extensions (`walked_eq_true_iff`). A walk
that finds nothing is through with everything that it has visited (`Passes`): it goes into no message twice, so
the depth allowed suffices for the longest way without circles.
-/

namespace SchemaLayout.Initialization

open Relation

/-! ## References -/

/-- The message has a required field, or extension ranges, by which it can get one. -/
def CanLack (schema : Schema) (id : MessageId) : Prop :=
  (schema.message id).extensionRanges ≠ [] ∨ ∃ field ∈ schema.fieldsOf id, field.isRequired = true

/-- `outer` has a field with `messageType?` `inner`. -/
def Refers (schema : Schema) (outer inner : MessageId) : Prop :=
  ∃ field ∈ schema.fieldsOf outer, field.messageType? = some inner

variable {schema : Schema}

theorem Refers.mem_messageIds (hsound : schema.IsSound) {outer inner : MessageId}
    (h : Refers schema outer inner) : inner ∈ schema.messageIds := by
  obtain ⟨field, hfield, htarget⟩ := h
  exact (hsound.messageType_of_mem_fieldsOf hfield htarget).1

/-! ## Steps of a walk -/

/-- One step of `walk`: nothing for a visited message, `true` for one with extension ranges, else `anyField`. -/
theorem run_walk (depth : Nat) (id : MessageId) (visited : Visited) :
    (walk schema (depth + 1) id).run visited =
      if id ∈ visited then (false, visited)
      else if (schema.message id).extensionRanges ≠ [] then (true, visited.insert id)
      else (anyField (walk schema depth) (schema.fieldsOf id)).run (visited.insert id) := by
  show StateT.run (do
    if (← get).contains id then return false
    modify (·.insert id)
    if (schema.message id).extensionRanges ≠ [] then return true
    anyField (walk schema depth) (schema.fieldsOf id)) visited = _
  by_cases hvisited : id ∈ visited
  · rw [if_pos hvisited]
    simp [hvisited]
    rfl
  · rw [if_neg hvisited]
    by_cases hranges : (schema.message id).extensionRanges = []
    · simp [hvisited, hranges]
    · simp [hvisited, hranges]
      rfl

variable {visit : MessageId → StateM Visited Bool} {field : FieldNode} {fields : List FieldNode}
  {visited : Visited}

/-- `anyField` stops with `true` at a required field. -/
theorem run_anyField_of_isRequired (h : field.isRequired = true) :
    (anyField visit (field :: fields)).run visited = (true, visited) := by
  rw [anyField, if_pos h]
  rfl

theorem run_anyField_of_none (h : field.isRequired = false) (htarget : field.messageType? = none) :
    (anyField visit (field :: fields)).run visited = (anyField visit fields).run visited := by
  rw [anyField, if_neg (by rw [h]; exact Bool.false_ne_true), htarget]

/-- `anyField` asks `visit` for the message of a field, and stops if that answers `true`. -/
theorem run_anyField_of_some (h : field.isRequired = false) {target : MessageId}
    (htarget : field.messageType? = some target) :
    (anyField visit (field :: fields)).run visited =
      if ((visit target).run visited).1 then (true, ((visit target).run visited).2)
      else (anyField visit fields).run ((visit target).run visited).2 := by
  rw [anyField, if_neg (by rw [h]; exact Bool.false_ne_true), htarget]
  show StateT.run (visit target >>= fun found => if found = true then pure true else anyField visit fields)
    visited = _
  rw [StateT.run_bind]
  show StateT.run (if ((visit target).run visited).1 = true then pure true else anyField visit fields)
    ((visit target).run visited).2 = _
  split <;> rfl

/-! ## What is found can be reached -/

/-- If `anyField` answers `true`, some field is required or `visit` answers `true` for its message. -/
theorem exists_of_run_anyField (h : ((anyField visit fields).run visited).1 = true) :
    ∃ field ∈ fields, field.isRequired = true ∨ ∃ target, field.messageType? = some target ∧
      ∃ visited, ((visit target).run visited).1 = true := by
  induction fields generalizing visited with
  | nil => cases h
  | cons field rest ih =>
    cases hrequired : field.isRequired with
    | true => exact ⟨field, List.mem_cons_self, Or.inl hrequired⟩
    | false =>
      cases htarget : field.messageType? with
      | none =>
        rw [run_anyField_of_none hrequired htarget] at h
        obtain ⟨other, hother, hfound⟩ := ih h
        exact ⟨other, List.mem_cons_of_mem _ hother, hfound⟩
      | some target =>
        rw [run_anyField_of_some hrequired htarget] at h
        split at h
        · next hfound => exact ⟨field, List.mem_cons_self, Or.inr ⟨target, htarget, visited, hfound⟩⟩
        · obtain ⟨other, hother, hfound⟩ := ih h
          exact ⟨other, List.mem_cons_of_mem _ hother, hfound⟩

/-- If `walk` answers `true`, some message with `CanLack` is reached by `Refers`. -/
theorem exists_canLack_of_run_walk {depth : Nat} {id : MessageId}
    (h : ((walk schema depth id).run visited).1 = true) :
    ∃ other, ReflTransGen (Refers schema) id other ∧ CanLack schema other := by
  induction depth generalizing id visited with
  | zero => cases h
  | succ depth ih =>
    rw [run_walk] at h
    split at h
    · cases h
    · split at h
      · next hranges => exact ⟨id, .refl, Or.inl hranges⟩
      · obtain ⟨field, hfield, hfound⟩ := exists_of_run_anyField h
        rcases hfound with hrequired | ⟨target, htarget, _, hfound⟩
        · exact ⟨id, .refl, Or.inr ⟨field, hfield, hrequired⟩⟩
        · obtain ⟨other, hreach, hlack⟩ := ih hfound
          exact ⟨other, .head ⟨field, hfield, htarget⟩ hreach, hlack⟩

/-! ## What can be reached is found -/

/-- From `before` to `after`, no message with `CanLack` is visited, and all that a newly visited one refers to
is visited as well. -/
structure Passes (schema : Schema) (before after : Visited) : Prop where
  grows : ∀ id ∈ before, id ∈ after
  through : ∀ id ∈ after, id ∉ before →
    ¬ CanLack schema id ∧ ∀ inner, Refers schema id inner → inner ∈ after

theorem Passes.refl (visited : Visited) : Passes schema visited visited :=
  ⟨fun _ h => h, fun _ h hnew => absurd h hnew⟩

theorem Passes.trans {first second third : Visited} (h : Passes schema first second)
    (hnext : Passes schema second third) : Passes schema first third where
  grows id hid := hnext.grows id (h.grows id hid)
  through id hid hnew := by
    by_cases hsecond : id ∈ second
    · obtain ⟨hlack, hinner⟩ := h.through id hsecond hnew
      exact ⟨hlack, fun inner hrefers => hnext.grows inner (hinner inner hrefers)⟩
    · exact hnext.through id hid hsecond

/-- A message that was entered `Passes` once all messages it refers to are visited. -/
theorem Passes.of_insert {before after : Visited} {id : MessageId}
    (h : Passes schema (before.insert id) after) (hlack : ¬ CanLack schema id)
    (hinner : ∀ inner, Refers schema id inner → inner ∈ after) : Passes schema before after where
  grows other hother := h.grows other (Std.HashSet.mem_insert.2 (Or.inr hother))
  through other hother hnew := by
    by_cases hsame : other = id
    · rw [hsame]
      exact ⟨hlack, hinner⟩
    · refine h.through other hother fun hmem => ?_
      rcases Std.HashSet.mem_insert.1 hmem with heq | hold
      · exact hsame (eq_of_beq heq).symm
      · exact hnew hold

/-- If `anyField` answers `false`, it `Passes`, given that each `visit` with `false` does. `path` is what has
been visited before. -/
theorem passes_anyField {path : List MessageId}
    (hvisit : ∀ field ∈ fields, ∀ target, field.messageType? = some target →
      ∀ visited : Visited, (∀ id ∈ path, id ∈ visited) → ((visit target).run visited).1 = false →
        Passes schema visited ((visit target).run visited).2 ∧
          target ∈ ((visit target).run visited).2)
    (hpath : ∀ id ∈ path, id ∈ visited) (h : ((anyField visit fields).run visited).1 = false) :
    Passes schema visited ((anyField visit fields).run visited).2 ∧
      ∀ field ∈ fields, field.isRequired = false ∧
        ∀ target, field.messageType? = some target → target ∈ ((anyField visit fields).run visited).2 := by
  induction fields generalizing visited with
  | nil => exact ⟨.refl visited, List.forall_mem_nil _⟩
  | cons field rest ih =>
    obtain ⟨hfield, hrest⟩ := List.forall_mem_cons.1 hvisit
    cases hrequired : field.isRequired with
    | true =>
      rw [run_anyField_of_isRequired hrequired] at h
      cases h
    | false =>
      cases htarget : field.messageType? with
      | none =>
        rw [run_anyField_of_none hrequired htarget] at h ⊢
        obtain ⟨hpasses, hothers⟩ := ih hrest hpath h
        refine ⟨hpasses, List.forall_mem_cons.2 ⟨⟨hrequired, fun target hsome => ?_⟩, hothers⟩⟩
        rw [htarget] at hsome
        cases hsome
      | some target =>
        rw [run_anyField_of_some hrequired htarget] at h ⊢
        split at h
        · cases h
        · next hfound =>
          rw [if_neg hfound]
          -- The visit of the first target only adds messages, so `path` is visited for the rest of the fields
          -- as well.
          obtain ⟨hfirst, hvisited⟩ := hfield target htarget visited hpath (Bool.not_eq_true _ ▸ hfound)
          obtain ⟨hpasses, hothers⟩ := ih hrest (fun id hid => hfirst.grows id (hpath id hid)) h
          refine ⟨hfirst.trans hpasses, List.forall_mem_cons.2 ⟨⟨hrequired, fun other hsome => ?_⟩,
            hothers⟩⟩
          rw [htarget] at hsome
          cases hsome
          exact hpasses.grows target hvisited

/-- If `walk` answers `false`, it `Passes` and has visited `id`. The messages on `path`, in the midst of which
it is, are different, so the depth allowed is not used up. -/
theorem passes_walk (hsound : schema.IsSound) {depth : Nat} (path : List MessageId) {id : MessageId}
    (hdepth : schema.messages.size < depth + path.length) (hnodup : path.Nodup)
    (hin : ∀ other ∈ id :: path, other ∈ schema.messageIds) (hpath : ∀ other ∈ path, other ∈ visited)
    (h : ((walk schema depth id).run visited).1 = false) :
    Passes schema visited ((walk schema depth id).run visited).2 ∧
      id ∈ ((walk schema depth id).run visited).2 := by
  induction depth generalizing path id visited with
  | zero =>
    -- A path without repetition is no longer than there are messages.
    have hle := Storage.length_le_of_nodup hnodup (List.forall_mem_cons.1 hin).2
    omega
  | succ depth ih =>
    rw [run_walk] at h ⊢
    by_cases hvisited : id ∈ visited
    · rw [if_pos hvisited]
      exact ⟨.refl visited, hvisited⟩
    · rw [if_neg hvisited] at h ⊢
      by_cases hranges : (schema.message id).extensionRanges ≠ []
      · rw [if_pos hranges] at h
        cases h
      · rw [if_neg hranges] at h ⊢
        -- From here on the message is on the path, and visited.
        have hentered (other : MessageId) (hother : other ∈ id :: path) : other ∈ visited.insert id := by
          rcases List.mem_cons.1 hother with rfl | hother
          · exact Std.HashSet.mem_insert_self
          · exact Std.HashSet.mem_insert.2 (Or.inr (hpath other hother))
        obtain ⟨hpasses, hfields⟩ := passes_anyField (fun field hfield target htarget middle hmiddle hnone =>
          ih (id :: path) (by rw [List.length_cons]; omega)
            (List.nodup_cons.2 ⟨fun hmem => hvisited (hpath id hmem), hnodup⟩)
            (List.forall_mem_cons.2 ⟨(hsound.messageType_of_mem_fieldsOf hfield htarget).1, hin⟩)
            hmiddle hnone) hentered h
        refine ⟨hpasses.of_insert (fun hlack => ?_) fun inner hrefers => ?_,
          hpasses.grows id Std.HashSet.mem_insert_self⟩
        · rcases hlack with hlack | ⟨field, hfield, hrequired⟩
          · exact hranges hlack
          · rw [(hfields field hfield).1] at hrequired
            cases hrequired
        · obtain ⟨field, hfield, htarget⟩ := hrefers
          exact (hfields field hfield).2 inner htarget

/-- `walked` is `true` exactly if some message with `CanLack` is reached by `Refers`. -/
theorem walked_eq_true_iff (hsound : schema.IsSound) {id : MessageId} (hid : id ∈ schema.messageIds) :
    walked schema id = true ↔
      ∃ other, ReflTransGen (Refers schema) id other ∧ CanLack schema other := by
  refine ⟨exists_canLack_of_run_walk, fun h => ?_⟩
  obtain ⟨other, hreach, hlack⟩ := h
  by_contra hfound
  obtain ⟨hpasses, hvisited⟩ := passes_walk hsound []
    (by rw [depthLimit]; simp) List.nodup_nil (by simpa using hid) (List.forall_mem_nil _)
    (Bool.not_eq_true _ ▸ hfound)
  -- Everything that can be reached from what has been visited has been visited.
  have hall : other ∈ ((walk schema (depthLimit schema) id).run ∅).2 := by
    clear hlack
    induction hreach with
    | refl => exact hvisited
    | tail _ hstep ih => exact (hpasses.through _ ih Std.HashSet.not_mem_empty).2 _ hstep
  exact (hpasses.through other hall Std.HashSet.not_mem_empty).1 hlack

end SchemaLayout.Initialization
