import Mathlib.Data.List.Forall2

/-!
# Computations with a state

What is known of the results of a computation for every element of a list, from what is known of the
results for single elements: whatever the state is, or as long as the state is one that each step keeps.
-/

namespace SchemaLayout

variable {σ α β : Type}

/-- One step of `mapM`: the rest goes on with the state that `f a` leaves. -/
theorem run_mapM_cons (f : α → StateM σ β) (a : α) (rest : List α) (s : σ) :
    ((a :: rest).mapM f).run s =
      (((f a).run s).1 :: ((rest.mapM f).run ((f a).run s).2).1,
        ((rest.mapM f).run ((f a).run s).2).2) := by
  rw [List.mapM_cons]
  rfl

/-- If `R a` holds of the result of `f a` from every state, `mapM` has results related by `R`. -/
theorem forall₂_run_mapM {R : α → β → Prop} {f : α → StateM σ β} {list : List α}
    (h : ∀ a ∈ list, ∀ s, R a ((f a).run s).1) (s : σ) :
    List.Forall₂ R list ((list.mapM f).run s).1 := by
  induction list generalizing s with
  | nil => exact .nil
  | cons a rest ih =>
    obtain ⟨ha, hrest⟩ := List.forall_mem_cons.1 h
    rw [run_mapM_cons]
    exact .cons (ha s) (ih hrest _)

/-- If each `f a` keeps `P`, and with `P` has the result `g a`, then `mapM f` has `list.map g`. -/
theorem run_mapM_of_preserves {P : σ → Prop} {f : α → StateM σ β} {g : α → β} {list : List α}
    (h : ∀ a ∈ list, ∀ s, P s → ((f a).run s).1 = g a ∧ P ((f a).run s).2) {s : σ} (hs : P s) :
    ((list.mapM f).run s).1 = list.map g ∧ P ((list.mapM f).run s).2 := by
  induction list generalizing s with
  | nil => exact ⟨rfl, hs⟩
  | cons a rest ih =>
    obtain ⟨ha, hrest⟩ := List.forall_mem_cons.1 h
    obtain ⟨hfirst, hnext⟩ := ha s hs
    obtain ⟨hothers, hlast⟩ := ih hrest hnext
    rw [run_mapM_cons, List.map_cons, hfirst, hothers]
    exact ⟨rfl, hlast⟩

end SchemaLayout
