import SchemaLayout.Layout.Placement
import SchemaLayout.Proofs.Data.List

/-!
# Spans of bytes

The parts of a message's storage are spans of bytes. A chain of spans is one in which each starts at or
behind the end of the one before it (`Span.Chain`); the spans of a chain are disjoint and lie between its
ends. Where the values of a message lie is found out in the order of their storage, which is the order
of the fields up to a permutation (`inStorageOrder_perm`).
-/

namespace SchemaLayout

/-! ## Alignment -/

theorem le_alignUp (stride offset : Nat) : offset ≤ alignUp stride offset := by
  unfold alignUp
  split <;> omega

/-- `alignUp` goes up by less than `stride`. -/
theorem alignUp_lt_add {stride : Nat} (h : 0 < stride) (offset : Nat) :
    alignUp stride offset < offset + stride := by
  have hmod := Nat.mod_lt offset h
  unfold alignUp
  split <;> omega

/-- `alignUp` leaves multiples of `stride`. -/
theorem alignUp_of_mod_eq_zero {stride offset : Nat} (h : offset % stride = 0) :
    alignUp stride offset = offset :=
  if_pos h

/-- `alignUp` gives multiples of `stride`. -/
theorem alignUp_mod {stride : Nat} (h : 0 < stride) (offset : Nat) :
    alignUp stride offset % stride = 0 := by
  have hmod := Nat.mod_lt offset h
  have hsplit := Nat.div_add_mod offset stride
  unfold alignUp
  split
  · assumption
  -- The next multiple is that of the quotient's successor.
  · have hnext : offset + (stride - offset % stride) = stride * (offset / stride + 1) := by
      rw [Nat.mul_add, Nat.mul_one]
      omega
    rw [hnext, Nat.mul_mod_right]

/-! ## Spans and chains -/

/-- The bytes from `start` on, `bytes` of them. -/
structure Span where
  start : Nat
  bytes : Nat

namespace Span

/-- The first byte behind a span. -/
def stop (span : Span) : Nat :=
  span.start + span.bytes

/-- No byte belongs to both spans. -/
def Disjoint (first second : Span) : Prop :=
  first.stop ≤ second.start ∨ second.stop ≤ first.start

/-- The span starts at a multiple of its size. -/
def IsAligned (span : Span) : Prop :=
  span.start % span.bytes = 0

/-- Spans that follow each other from `start` on, the last of which ends at `stop`. -/
inductive Chain : (start : Nat) → List Span → (stop : Nat) → Prop
  | nil (start : Nat) : Chain start [] start
  | cons {start stop : Nat} {span : Span} {rest : List Span} :
    start ≤ span.start → Chain span.stop rest stop → Chain start (span :: rest) stop

namespace Chain

variable {start middle stop : Nat} {spans others : List Span}

theorem append (h : Chain start spans middle) (hothers : Chain middle others stop) :
    Chain start (spans ++ others) stop := by
  induction h with
  | nil => exact hothers
  | cons hstart _ ih => exact .cons hstart (ih hothers)

/-- A chain that has a first span may also start before it. -/
theorem of_start_le (h : Chain start spans stop) {earlier : Nat} (hearlier : earlier ≤ start)
    (hspans : spans ≠ []) : Chain earlier spans stop := by
  cases h with
  | nil => exact absurd rfl hspans
  | cons hstart hrest => exact .cons (Nat.le_trans hearlier hstart) hrest

theorem start_le_stop (h : Chain start spans stop) : start ≤ stop := by
  induction h with
  | nil => exact Nat.le_refl _
  | cons hstart _ ih => simp only [Span.stop] at ih; omega

/-- The spans of a chain are between `start` and `stop`. -/
theorem mem_bounds (h : Chain start spans stop) :
    ∀ span ∈ spans, start ≤ span.start ∧ span.stop ≤ stop := by
  induction h with
  | nil => simp
  | @cons start stop span rest hstart hrest ih =>
    refine List.forall_mem_cons.2 ⟨⟨hstart, hrest.start_le_stop⟩, fun other hother => ?_⟩
    have hother := ih other hother
    simp only [Span.stop] at hother ⊢
    omega

/-- Spans of a chain are behind all spans that come before them. -/
theorem pairwise_stop_le (h : Chain start spans stop) :
    spans.Pairwise fun first second => first.stop ≤ second.start := by
  induction h with
  | nil => exact List.Pairwise.nil
  | cons _ hrest ih =>
    exact List.pairwise_cons.2 ⟨fun other hother => (hrest.mem_bounds other hother).1, ih⟩

/-- Spans of a chain are `Disjoint`. -/
theorem pairwise_disjoint (h : Chain start spans stop) : spans.Pairwise Disjoint :=
  h.pairwise_stop_le.imp Or.inl

theorem stop_eq_getLast (h : Chain start spans stop) : stop = spans.getLast?.elim start Span.stop := by
  induction h with
  | nil => rfl
  | @cons start stop span rest _ _ ih =>
    cases rest with
    | nil => exact ih
    | cons next others => rw [ih, List.getLast?_cons_cons, List.getLast?_cons]; rfl

end Chain

theorem Disjoint.symm {first second : Span} (h : first.Disjoint second) : second.Disjoint first :=
  Or.symm h

end Span

namespace Placement

/-! ## The order of storage -/

variable {α : Type}

/-- `items` in the order of `StorageKind.all`, and in their own order within a kind. -/
def inStorageOrder (kindOf : α → StorageKind) (items : List α) : List α :=
  StorageKind.all.flatMap fun kind => items.filter (kindOf · = kind)

theorem map_inStorageOrder {β : Type} (f : α → β) (kindOf : β → StorageKind) (items : List α) :
    (inStorageOrder (kindOf ∘ f) items).map f = inStorageOrder kindOf (items.map f) := by
  simp only [inStorageOrder, List.map_flatMap, List.filter_map]
  rfl

/-- `inStorageOrder` reorders `items`: every kind has its turn once. -/
theorem inStorageOrder_perm (kindOf : α → StorageKind) (items : List α) :
    (inStorageOrder kindOf items).Perm items :=
  flatMap_filter_perm kindOf (by decide) fun item _ => by cases kindOf item <;> decide

end Placement

end SchemaLayout
