import SchemaLayout.Proofs.Program.Stream

/-!
# Programs that are cut short

A reader that is given only the front of what was written runs out of units (`NeedsAll`), wherever the cut is:
inside a number, between the parts of something, or inside a text. A sequence of readers does so because the
first of them either has all its units or runs out of them, and then the next one is in the same position.
-/

namespace SchemaLayout.Program

variable {α β : Type} {read : Reader α} {next : α → Reader β}

/-- `read >>= next` fails if `read` does, or `next` where `read` left off. -/
theorem bind_eq_error_iff {program rest : Program} {error : ProgramError} :
    (read >>= next) program = .error error rest ↔
      read program = .error error rest ∨
        ∃ a middle, read program = .ok a middle ∧ next a middle = .error error rest := by
  show EStateM.bind read next program = .error error rest ↔ _
  unfold EStateM.bind
  cases read program <;> simp

/-- A cut through `first ++ second` is behind `first` or inside of it. -/
theorem whole_or_cut {first second cut missing : Program} (h : first ++ second = cut ++ missing) :
    (∃ front, cut = first ++ front ∧ second = front ++ missing) ∨ ∃ back, back ≠ [] ∧ first = cut ++ back := by
  rcases List.append_eq_append_iff.1 h with hwhole | ⟨back, hfirst, hmissing⟩
  · exact Or.inl hwhole
  · by_cases hall : back = []
    · refine Or.inl ⟨[], ?_, ?_⟩
      · rw [hfirst, hall, List.append_nil, List.append_nil]
      · rw [hmissing, hall]
        rfl
    · exact Or.inr ⟨back, hall, hfirst⟩

/-- Without the last of `units`, however many of them, `read` fails with `.unexpectedEnd`. -/
def NeedsAll (read : Reader α) (units : Program) : Prop :=
  ∀ cut missing, units = cut ++ missing → missing ≠ [] → ∃ rest, read cut = .error .unexpectedEnd rest

namespace NeedsAll

/-- A reader that takes no units needs none. -/
theorem nil : NeedsAll read [] := by
  intro cut missing hunits hmissing
  exact absurd (List.append_eq_nil_iff.1 hunits.symm).2 hmissing

/-- What comes after a reader that runs out of units makes no difference. -/
theorem andThen {units : Program} (h : NeedsAll read units) : NeedsAll (read >>= next) units := by
  intro cut missing hunits hmissing
  obtain ⟨rest, hrest⟩ := h cut missing hunits hmissing
  exact ⟨rest, bind_eq_error_iff.2 (Or.inl hrest)⟩

/-- `NeedsAll` goes through `>>=` where the first part is read. -/
theorem bind {first second : Program} {a : α} (hreads : Reads read first a) (hfirst : NeedsAll read first)
    (hsecond : NeedsAll (next a) second) : NeedsAll (read >>= next) (first ++ second) := by
  intro cut missing hunits hmissing
  rcases whole_or_cut hunits with ⟨front, hcut, hback⟩ | ⟨back, hback, hfront⟩
  -- If the first reader has all its units, then it is the second one that misses some.
  · obtain ⟨rest, hrest⟩ := hsecond front missing hback hmissing
    refine ⟨rest, bind_eq_error_iff.2 (Or.inr ⟨a, front, ?_, hrest⟩)⟩
    rw [hcut]
    exact hreads front
  · obtain ⟨rest, hrest⟩ := hfirst cut back hfront hback
    exact ⟨rest, bind_eq_error_iff.2 (Or.inl hrest)⟩

/-- `readMany` needs the units of all elements. -/
theorem readMany {write : α → Program} {list : List α}
    (hreads : ∀ a ∈ list, Reads read (write a) a) (h : ∀ a ∈ list, NeedsAll read (write a)) :
    NeedsAll (Program.readMany read list.length) (list.flatMap write) := by
  induction list with
  | nil => exact nil
  | cons a others ih =>
    obtain ⟨ha, hothers⟩ := List.forall_mem_cons.1 hreads
    obtain ⟨hneeds, hneedsOthers⟩ := List.forall_mem_cons.1 h
    exact bind ha hneeds (ih hothers hneedsOthers).andThen

end NeedsAll

/-! ## Numbers, texts and opcodes -/

/-- A varint without its last group is not ended. -/
theorem needsAll_readVarint (value : Nat) : NeedsAll readVarint (writeVarint value) := by
  induction value using Nat.strongRecOn with
  | ind value ih =>
    intro cut missing hunits hmissing
    cases cut with
    | nil => exact ⟨[], rfl⟩
    | cons unit cut =>
      rw [writeVarint] at hunits
      by_cases hsmall : value < 64
      · rw [if_pos hsmall, List.cons_append] at hunits
        have htail := (List.cons.inj hunits).2
        exact absurd (List.append_eq_nil_iff.1 htail.symm).2 hmissing
      -- The first group is there and says that more of them follow.
      · rw [if_neg hsmall, List.cons_append] at hunits
        obtain ⟨rfl, htail⟩ := List.cons.inj hunits
        obtain ⟨rest, hrest⟩ := ih (value / 64) (by omega) cut missing htail hmissing
        have hunit : 64 + value % 64 < 128 := by omega
        refine ⟨rest, ?_⟩
        rw [readVarint, toNat_groupUnit hunit, if_neg (by omega), if_pos hunit, hrest]

theorem needsAll_readInt32 (value : Int32) : NeedsAll readInt32 (writeInt32 value) :=
  (needsAll_readVarint _).andThen

theorem needsAll_readOpcode {Op : Type} [Opcode Op] (op : Op) :
    NeedsAll (readOpcode : Reader Op) (writeOpcode op) :=
  (needsAll_readVarint _).andThen

theorem needsAll_readFormat : NeedsAll readFormat emptyStream :=
  (needsAll_readVarint format).andThen

/-- A text that is not ended has no zero in it. -/
theorem needsAll_readText {content : String} (h : IsZeroFree content) :
    NeedsAll readText (writeText content) := by
  intro cut missing hunits hmissing
  rw [writeText, writeVarint_zero] at hunits
  -- What is missing has the zero at its end, so the cut is in the text.
  have hfront : cut <+: content.toList := by
    rcases List.prefix_concat_iff.1 ⟨missing, hunits.symm⟩ with hall | hfront
    · exact absurd (List.self_eq_append_right.1 (hall ▸ hunits)) hmissing
    · exact hfront
  have hcut : ∀ unit ∈ cut, decide (unit ≠ '\x00') = true := by
    intro unit hunit
    have hne : unit ≠ '\x00' := fun heq => h (heq ▸ hfront.subset hunit)
    simpa using hne
  refine ⟨[], ?_⟩
  have hspan : cut.span (· ≠ '\x00') = (cut, []) := by
    rw [List.span_eq_takeWhile_dropWhile, List.takeWhile_eq_self_iff.2 hcut, List.dropWhile_eq_nil_iff.2 hcut]
  rw [readText, hspan]

theorem needsAll_readTexts {contents : List String} (hcount : contents.length < wordLimit)
    (h : ∀ content ∈ contents, IsZeroFree content) : NeedsAll readTexts (writeTexts contents) :=
  NeedsAll.bind (reads_readVarint hcount) (needsAll_readVarint _)
    (NeedsAll.readMany (fun content hcontent => reads_readText (h content hcontent))
      fun content hcontent => needsAll_readText (h content hcontent))

end SchemaLayout.Program
