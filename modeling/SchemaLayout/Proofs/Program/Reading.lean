import SchemaLayout.Program.Group
import SchemaLayout.Proofs.Data.Except

/-!
# Reading in steps

A reader takes units off the front of a program. This file takes apart readers that are put together
from others: a sequence of readers succeeds exactly if each of them does on what the one before it
left (`bind_eq_ok_iff`).

A format is given by the units of each value that fits into it. `ReadsExactly` and `WritesExactly` say
that a reader and a writer are those of a format; then nothing is lost and nothing has two written forms.
Both carry over from single values to lists of them.
-/

namespace SchemaLayout.Program

variable {α β : Type}

/-! ## Steps of readers -/

/-- `read >>= next` succeeds if `next` does where `read` left off. -/
theorem bind_eq_ok_iff {read : Reader α} {next : α → Reader β} {program rest : Program} {b : β} :
    (read >>= next) program = .ok b rest ↔
      ∃ a middle, read program = .ok a middle ∧ next a middle = .ok b rest := by
  show EStateM.bind read next program = .ok b rest ↔ _
  unfold EStateM.bind
  cases read program with
  | ok a middle =>
    constructor
    · intro h
      exact ⟨a, middle, rfl, h⟩
    · intro h
      rcases h with ⟨a', middle', hread, h⟩
      cases hread
      exact h
  | error error middle => simp

theorem pure_eq_ok_iff {a b : α} {program rest : Program} :
    (pure a : Reader α) program = .ok b rest ↔ a = b ∧ program = rest := by
  show EStateM.Result.ok a program = .ok b rest ↔ _
  simp

theorem throw_ne_ok {error : ProgramError} {program rest : Program} {b : α} :
    (throw error : Reader α) program ≠ .ok b rest := by
  show EStateM.Result.error error program ≠ .ok b rest
  simp

theorem ofExcept_eq_ok_iff {outcome : Except ProgramError α} {program rest : Program} {b : α} :
    (MonadExcept.ofExcept outcome : Reader α) program = .ok b rest ↔
      outcome = .ok b ∧ program = rest := by
  cases outcome with
  | ok a =>
    show (pure a : Reader α) program = .ok b rest ↔ _
    rw [pure_eq_ok_iff, Except.ok.injEq]
  | error error =>
    show (throw error : Reader α) program = .ok b rest ↔ _
    simp [throw_ne_ok]

/-! ## Exact readers and writers -/

/-- `read` takes from the front of a program exactly `units a`, for all `a` with `fits a`. -/
def ReadsExactly (read : Reader α) (fits : α → Prop) (units : α → Program) : Prop :=
  ∀ program a rest, read program = .ok a rest ↔ fits a ∧ program = units a ++ rest

/-- `write` writes `units a` for exactly the `a` with `fits a`. -/
def WritesExactly (write : α → Except ProgramError Program) (fits : α → Prop)
    (units : α → Program) : Prop :=
  ∀ a program, write a = .ok program ↔ fits a ∧ program = units a

variable {fits : α → Prop} {units : α → Program}

/-- Something is written for exactly the `a` with `fits a`. -/
theorem WritesExactly.exists_iff {write : α → Except ProgramError Program}
    (hwrite : WritesExactly write fits units) (a : α) : (∃ program, write a = .ok program) ↔ fits a := by
  simp only [hwrite a, exists_and_left, exists_eq, and_true]

/-- `readMany read count` reads exactly the units of lists of that length. -/
theorem ReadsExactly.readMany {read : Reader α} (hread : ReadsExactly read fits units)
    (count : Nat) :
    ReadsExactly (readMany read count) (fun list => list.length = count ∧ ∀ a ∈ list, fits a)
      (fun list => list.flatMap units) := by
  induction count with
  | zero =>
    intro program list rest
    simp only [Program.readMany, pure_eq_ok_iff, List.length_eq_zero_iff]
    constructor
    · intro h
      rcases h with ⟨rfl, rfl⟩
      simp
    · intro h
      rcases h with ⟨⟨rfl, _⟩, hprogram⟩
      exact ⟨rfl, hprogram⟩
  | succ count ih =>
    intro program list rest
    -- One element and then a shorter list, on both sides.
    simp only [Program.readMany, bind_eq_ok_iff, pure_eq_ok_iff, hread _ _ _, ih _ _ _]
    constructor
    · intro h
      rcases h with ⟨a, _, ⟨ha, rfl⟩, others, _, ⟨⟨hlength, hothers⟩, rfl⟩, rfl, rfl⟩
      exact ⟨⟨by rw [List.length_cons, hlength], List.forall_mem_cons.2 ⟨ha, hothers⟩⟩, by simp⟩
    · intro h
      rcases h with ⟨⟨hlength, hlist⟩, rfl⟩
      cases list with
      | nil => simp at hlength
      | cons a others =>
        obtain ⟨ha, hothers⟩ := List.forall_mem_cons.1 hlist
        have hcount : others.length = count := by simpa using hlength
        exact ⟨a, _, ⟨ha, by rw [List.flatMap_cons, List.append_assoc]⟩, others, rest,
          ⟨⟨hcount, hothers⟩, rfl⟩, rfl, rfl⟩

/-- `mapM write` writes the units of all elements if all of them fit. -/
theorem WritesExactly.mapM_eq_ok_iff {write : α → Except ProgramError Program}
    (hwrite : WritesExactly write fits units) {list : List α} {parts : List Program} :
    list.mapM write = .ok parts ↔ (∀ a ∈ list, fits a) ∧ parts = list.map units := by
  induction list generalizing parts with
  | nil =>
    rw [List.mapM_nil]
    show Except.ok [] = Except.ok parts ↔ _
    simp [eq_comm]
  | cons a others ih =>
    simp only [List.mapM_cons, except_bind_eq_ok_iff, hwrite _ _, ih, List.forall_mem_cons,
      List.map_cons]
    constructor
    · intro h
      rcases h with ⟨_, ⟨ha, rfl⟩, _, ⟨hothers, rfl⟩, hparts⟩
      cases hparts
      exact ⟨⟨ha, hothers⟩, rfl⟩
    · intro h
      rcases h with ⟨⟨ha, hothers⟩, rfl⟩
      exact ⟨_, ⟨ha, rfl⟩, _, ⟨hothers, rfl⟩, rfl⟩

end SchemaLayout.Program
