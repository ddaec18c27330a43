import Mathlib.Data.List.Perm.Basic
import SchemaLayout.Proofs.Data.List

/-!
# Computations that can fail

When a computation that is put together from others succeeds: a sequence if all its steps do, a list of
them if each does. A property that every step of a loop keeps holds at its end, and a loop that fails does so with
the first of its steps that fails.
-/

namespace SchemaLayout

variable {α β ε : Type}

theorem except_bind_eq_ok_iff {first : Except ε α} {next : α → Except ε β} {b : β} :
    (first >>= next) = .ok b ↔ ∃ a, first = .ok a ∧ next a = .ok b := by
  cases first with
  | ok a => simp [bind, Except.bind]
  | error error => simp [bind, Except.bind]

/-- Asking for what has to be there succeeds if it is there. -/
theorem elim_throw_eq_ok_iff {found : Option α} {error : ε} {a : α} :
    found.elim (throw error : Except ε α) pure = .ok a ↔ found = some a := by
  cases found <;> simp [throw, throwThe, MonadExceptOf.throw, pure, Except.pure]

theorem except_bind_eq_error_iff {first : Except ε α} {next : α → Except ε β} {error : ε} :
    (first >>= next) = .error error ↔ first = .error error ∨ ∃ a, first = .ok a ∧ next a = .error error := by
  cases first with
  | ok a => simp [bind, Except.bind]
  | error error => simp [bind, Except.bind]

theorem mapError_eq_ok_iff {ε' : Type} {result : Except ε α} {change : ε → ε'} {a : α} :
    result.mapError change = .ok a ↔ result = .ok a := by
  cases result <;> simp [Except.mapError]

/-- `list.mapM f` succeeds if `f` does for each element, with these results. -/
theorem mapM_eq_ok_iff {f : α → Except ε β} {list : List α} {results : List β} :
    list.mapM f = .ok results ↔ List.Forall₂ (fun a b => f a = .ok b) list results := by
  induction list generalizing results with
  | nil =>
    rw [List.mapM_nil, List.forall₂_nil_left_iff]
    show Except.ok [] = Except.ok results ↔ _
    simp [eq_comm]
  | cons a rest ih =>
    simp only [List.mapM_cons, except_bind_eq_ok_iff, ih, List.forall₂_cons_left_iff]
    constructor
    · intro h
      rcases h with ⟨b, hb, others, hothers, h⟩
      cases h
      exact ⟨b, others, hb, hothers, rfl⟩
    · intro h
      rcases h with ⟨b, others, hb, hothers, rfl⟩
      exact ⟨b, hb, others, hothers, rfl⟩

/-- `mapM` of `f` and then `g` on each element, as two runs of `mapM`. -/
theorem mapM_bind_eq_ok_iff {γ : Type} {f : α → Except ε β} {g : β → Except ε γ} {list : List α}
    {results : List γ} : (list.mapM fun a => f a >>= g) = .ok results ↔
      ∃ middle, list.mapM f = .ok middle ∧ middle.mapM g = .ok results := by
  simp only [mapM_eq_ok_iff, except_bind_eq_ok_iff]
  constructor
  · intro h
    induction h with
    | nil => exact ⟨[], .nil, .nil⟩
    | cons hfirst _ ih =>
      obtain ⟨b, hb, hc⟩ := hfirst
      obtain ⟨middle, hmiddle, hrest⟩ := ih
      exact ⟨b :: middle, .cons hb hmiddle, .cons hc hrest⟩
  · rintro ⟨middle, hmiddle, hresults⟩
    induction hmiddle generalizing results with
    | nil =>
      cases hresults
      exact .nil
    | cons hb _ ih =>
      cases hresults with
      | cons hc hrest => exact .cons ⟨_, hb, hc⟩ (ih hrest)

theorem mapM_append_eq_ok_iff {f : α → Except ε β} {list others : List α} {results : List β} :
    (list ++ others).mapM f = .ok results ↔
      ∃ first second, list.mapM f = .ok first ∧ others.mapM f = .ok second ∧ results = first ++ second := by
  rw [List.mapM_append]
  simp only [except_bind_eq_ok_iff, pure, Except.pure, Except.ok.injEq]
  constructor
  · rintro ⟨first, hfirst, second, hsecond, rfl⟩
    exact ⟨first, second, hfirst, hsecond, rfl⟩
  · rintro ⟨first, second, hfirst, hsecond, rfl⟩
    exact ⟨first, hfirst, second, hsecond, rfl⟩

/-- If `f` and `g` succeed alike on each element, `mapM` does on the list. -/
theorem mapM_eq_ok_iff_of_forall {ε' : Type} {f : α → Except ε β} {g : α → Except ε' β} {list : List α}
    (h : ∀ a ∈ list, ∀ b, f a = .ok b ↔ g a = .ok b) {results : List β} :
    list.mapM f = .ok results ↔ list.mapM g = .ok results := by
  rw [mapM_eq_ok_iff, mapM_eq_ok_iff]
  induction list generalizing results with
  | nil => simp only [List.forall₂_nil_left_iff]
  | cons a rest ih =>
    obtain ⟨hfirst, hrest⟩ := List.forall_mem_cons.1 h
    simp only [List.forall₂_cons_left_iff, hfirst, ih hrest]

theorem mapM_singleton_eq_ok_iff {f : α → Except ε β} {a : α} {results : List β} :
    [a].mapM f = .ok results ↔ ∃ b, f a = .ok b ∧ results = [b] := by
  simp only [mapM_eq_ok_iff, List.forall₂_cons_left_iff, List.forall₂_nil_left_iff, exists_and_left, exists_eq_left]

theorem exists_mapM {f : α → Except ε β} {list : List α} (h : ∀ a ∈ list, ∃ b, f a = .ok b) :
    ∃ results, list.mapM f = .ok results := by
  induction list with
  | nil => exact ⟨[], rfl⟩
  | cons a rest ih =>
    obtain ⟨⟨b, hb⟩, hrest⟩ := List.forall_mem_cons.1 h
    obtain ⟨results, hresults⟩ := ih hrest
    refine ⟨b :: results, mapM_eq_ok_iff.2 (.cons hb (mapM_eq_ok_iff.1 hresults))⟩

theorem mapM_eq_ok_map {f : α → Except ε β} {g : α → β} {list : List α}
    (h : ∀ a ∈ list, f a = .ok (g a)) : list.mapM f = .ok (list.map g) := by
  rw [mapM_eq_ok_iff, List.forall₂_map_right_iff, List.forall₂_same]
  exact h

/-- `list.mapM f` has a result if `f` has one for each element. -/
theorem mapM_eq_some_iff {f : α → Option β} {list : List α} {results : List β} :
    list.mapM f = some results ↔ List.Forall₂ (fun a b => f a = some b) list results := by
  induction list generalizing results with
  | nil =>
    rw [List.mapM_nil, List.forall₂_nil_left_iff]
    show some [] = some results ↔ _
    simp [eq_comm]
  | cons a rest ih =>
    simp only [List.mapM_cons, Option.bind_eq_bind, Option.bind_eq_some_iff, ih, List.forall₂_cons_left_iff]
    constructor
    · intro h
      rcases h with ⟨b, hb, others, hothers, h⟩
      cases h
      exact ⟨b, others, hb, hothers, rfl⟩
    · intro h
      rcases h with ⟨b, others, hb, hothers, rfl⟩
      exact ⟨b, hb, others, hothers, rfl⟩

/-- If `f a = some a` for each element, `mapM f` gives the list back. -/
theorem mapM_eq_some_self {f : α → Option α} {list : List α} (h : ∀ a ∈ list, f a = some a) :
    list.mapM f = some list := by
  rw [mapM_eq_some_iff, List.forall₂_same]
  exact h

theorem exists_mem_of_mapM {f : α → Except ε β} {list : List α} {results : List β}
    (h : list.mapM f = .ok results) {b : β} (hb : b ∈ results) : ∃ a ∈ list, f a = .ok b :=
  exists_of_mem_right (mapM_eq_ok_iff.1 h) hb

/-- If `after` of a result is `before` of its element, this is so of the lists. -/
theorem map_eq_of_mapM {γ : Type} (before : α → γ) (after : β → γ) {f : α → Except ε β}
    {list : List α} {results : List β} (h : list.mapM f = .ok results)
    (hsame : ∀ a ∈ list, ∀ b, f a = .ok b → after b = before a) :
    results.map after = list.map before :=
  map_eq_of_forall₂ before after (mapM_eq_ok_iff.1 h) hsame

/-- On a permutation of `list`, `mapM f` has a permutation of its results. -/
theorem exists_mapM_of_perm {f : α → Except ε β} {list others : List α} {results : List β}
    (h : list.mapM f = .ok results) (hperm : others.Perm list) :
    ∃ otherResults, others.mapM f = .ok otherResults ∧ otherResults.Perm results := by
  obtain ⟨otherResults, hothers, hresults⟩ := List.perm_comp_forall₂ hperm (mapM_eq_ok_iff.1 h)
  exact ⟨otherResults, mapM_eq_ok_iff.2 hothers, hresults⟩

/-- If `f` and `g` take related elements to `related` results, `mapM` does so with lists. -/
theorem exists_mapM_of_forall₂ {γ δ : Type} {r : α → γ → Prop} {related : β → δ → Prop} {f : α → Except ε β}
    {g : γ → Except ε δ}
    (hstep : ∀ a c b, r a c → f a = .ok b → ∃ d, g c = .ok d ∧ related b d) {list : List α} {others : List γ}
    (hlist : List.Forall₂ r list others) {results : List β} (h : list.mapM f = .ok results) :
    ∃ otherResults, others.mapM g = .ok otherResults ∧ List.Forall₂ related results otherResults := by
  simp only [mapM_eq_ok_iff] at h ⊢
  induction hlist generalizing results with
  | nil =>
    cases h
    exact ⟨[], .nil, .nil⟩
  | cons hfirst _ ih =>
    cases h with
    | cons hresult hresults =>
      obtain ⟨d, hd, hrelated⟩ := hstep _ _ _ hfirst hresult
      obtain ⟨otherResults, hothers, hrest⟩ := ih hresults
      exact ⟨d :: otherResults, .cons hd hothers, .cons hrelated hrest⟩

/-- The result at a place is that of the element there. -/
theorem exists_getElem?_of_mapM {f : α → Except ε β} {list : List α} {results : List β}
    (h : list.mapM f = .ok results) {place : Nat} {a : α} (ha : list[place]? = some a) :
    ∃ b, results[place]? = some b ∧ f a = .ok b := by
  obtain ⟨hlength, hget⟩ := List.forall₂_iff_get.1 (mapM_eq_ok_iff.1 h)
  obtain ⟨hplace, rfl⟩ := List.getElem?_eq_some_iff.1 ha
  exact ⟨_, List.getElem?_eq_getElem (by omega), hget place hplace (by omega)⟩

/-- `foldlM` fails with what the first step to fail fails with. -/
theorem foldlM_eq_error_iff {f : β → α → Except ε β} {list : List α} {init : β} {error : ε} :
    list.foldlM f init = .error error ↔ ∃ before a after middle, list = before ++ a :: after ∧
      before.foldlM f init = .ok middle ∧ f middle a = .error error := by
  induction list generalizing init with
  | nil =>
    refine ⟨nofun, ?_⟩
    rintro ⟨before, a, after, _, hlist, _⟩
    exact absurd hlist (by simp)
  | cons head rest ih =>
    rw [List.foldlM_cons, except_bind_eq_error_iff]
    constructor
    · rintro (hfirst | ⟨next, hnext, hrest⟩)
      · exact ⟨[], head, rest, init, rfl, rfl, hfirst⟩
      · obtain ⟨before, a, after, middle, rfl, hbefore, ha⟩ := ih.1 hrest
        refine ⟨head :: before, a, after, middle, rfl, ?_, ha⟩
        rw [List.foldlM_cons, hnext]
        exact hbefore
    · rintro ⟨before, a, after, middle, hlist, hbefore, ha⟩
      -- Either the first step fails, or it is one of those before the step that does.
      cases before with
      | nil =>
        cases hbefore
        cases hlist
        exact Or.inl ha
      | cons first others =>
        cases hlist
        rw [List.foldlM_cons, except_bind_eq_ok_iff] at hbefore
        obtain ⟨next, hnext, hbefore⟩ := hbefore
        exact Or.inr ⟨next, hnext, ih.2 ⟨others, a, after, middle, rfl, hbefore, ha⟩⟩

/-- The results of `mapM` are those of its elements. -/
theorem mem_iff_of_mapM {f : α → Except ε β} {list : List α} {results : List β} (h : list.mapM f = .ok results)
    {b : β} : b ∈ results ↔ ∃ a ∈ list, f a = .ok b := by
  refine ⟨exists_mem_of_mapM h, ?_⟩
  rintro ⟨a, ha, hresult⟩
  obtain ⟨place, hplace⟩ := List.mem_iff_getElem?.1 ha
  obtain ⟨other, hother, hsame⟩ := exists_getElem?_of_mapM h hplace
  cases hsame.symm.trans hresult
  exact List.mem_of_getElem? hother

/-- `foldlM` keeps `P` if each step does. -/
theorem foldlM_preserves {P : β → Prop} {f : β → α → Except ε β}
    (hstep : ∀ b a next, P b → f b a = .ok next → P next) {list : List α} {init result : β}
    (hinit : P init) (h : list.foldlM f init = .ok result) : P result := by
  induction list generalizing init with
  | nil =>
    cases h
    exact hinit
  | cons a rest ih =>
    rw [List.foldlM_cons, except_bind_eq_ok_iff] at h
    obtain ⟨next, hnext, hrest⟩ := h
    exact ih (hstep init a next hinit hnext) hrest

/-- If `f` and `g` keep states `related` on related elements, `foldlM` does so on lists. -/
theorem exists_foldlM_of_forall₂ {γ : Type} {r : α → α → Prop} {related : β → γ → Prop}
    {f : β → α → Except ε β} {g : γ → α → Except ε γ}
    (hstep : ∀ b c a other next, related b c → r a other → f b a = .ok next →
      ∃ otherNext, g c other = .ok otherNext ∧ related next otherNext)
    {list others : List α} (hlist : List.Forall₂ r list others) {init result : β} {otherInit : γ}
    (hinit : related init otherInit) (h : list.foldlM f init = .ok result) :
    ∃ otherResult, others.foldlM g otherInit = .ok otherResult ∧ related result otherResult := by
  induction hlist generalizing init otherInit with
  | nil =>
    cases h
    exact ⟨otherInit, rfl, hinit⟩
  | cons hfirst _ ih =>
    rw [List.foldlM_cons, except_bind_eq_ok_iff] at h
    obtain ⟨next, hnext, hrest⟩ := h
    obtain ⟨otherNext, hother, hrelated⟩ := hstep _ _ _ _ _ hinit hfirst hnext
    obtain ⟨otherResult, hresult, hlast⟩ := ih hrelated hrest
    refine ⟨otherResult, ?_, hlast⟩
    rw [List.foldlM_cons, hother]
    exact hresult

end SchemaLayout
