/-!
# JSON documents

The values that a JSON text stands for. Whole numbers of the 64-bit range are read as integers;
every other number keeps its spelling, since no schema member holds one. Members keep their order
and their repetitions, because a record that names a member twice is refused while a free map takes
the last value.
-/

namespace SchemaLayout

/-- A JSON document. -/
inductive Json where
  | null
  | bool (value : Bool)
  /-- A number written without fraction and exponent that fits in 64 bits, signed or not. -/
  | int (value : Int)
  /-- Any other number, as it is spelled. -/
  | real (spelling : String)
  | text (value : String)
  /-- A well-formed text that names half of a surrogate pair alone, or an object with such a key:
  no record can read it, but a member that is ignored may hold it. -/
  | unreadable
  | array (items : List Json)
  | object (members : List (String × Json))
  deriving Inhabited

namespace Json

/-! ## Equality -/

mutual

/-- Equality of documents, member for member in order. -/
def same : Json → Json → Bool
  | .null, .null => true
  | .bool a, .bool b => a == b
  | .int a, .int b => a == b
  | .real a, .real b => a == b
  | .text a, .text b => a == b
  | .unreadable, .unreadable => true
  | .array a, .array b => sameItems a b
  | .object a, .object b => sameMembers a b
  | _, _ => false

/-- Equality of the items of two arrays. -/
def sameItems : List Json → List Json → Bool
  | [], [] => true
  | x :: xs, y :: ys => same x y && sameItems xs ys
  | _, _ => false

/-- Equality of the members of two objects. -/
def sameMembers : List (String × Json) → List (String × Json) → Bool
  | [], [] => true
  | (j, x) :: xs, (k, y) :: ys => j == k && same x y && sameMembers xs ys
  | _, _ => false

end

mutual

theorem eq_of_same {a b : Json} (h : same a b = true) : a = b := by
  cases a <;> cases b <;> simp_all [same]
  · exact eq_of_sameItems h
  · exact eq_of_sameMembers h

theorem eq_of_sameItems {a b : List Json} (h : sameItems a b = true) : a = b := by
  match a, b with
  | [], [] => rfl
  | [], _ :: _ => simp [sameItems] at h
  | _ :: _, [] => simp [sameItems] at h
  | x :: xs, y :: ys =>
    simp only [sameItems, Bool.and_eq_true] at h
    rw [eq_of_same h.1, eq_of_sameItems h.2]

theorem eq_of_sameMembers {a b : List (String × Json)} (h : sameMembers a b = true) : a = b := by
  match a, b with
  | [], [] => rfl
  | [], _ :: _ => simp [sameMembers] at h
  | _ :: _, [] => simp [sameMembers] at h
  | (j, x) :: xs, (k, y) :: ys =>
    simp only [sameMembers, Bool.and_eq_true, beq_iff_eq] at h
    rw [h.1.1, eq_of_same h.1.2, eq_of_sameMembers h.2]

end

mutual

theorem same_self (a : Json) : same a a = true := by
  match a with
  | .null | .bool _ | .int _ | .real _ | .text _ | .unreadable => simp [same]
  | .array items => simpa [same] using sameItems_self items
  | .object members => simpa [same] using sameMembers_self members

theorem sameItems_self (a : List Json) : sameItems a a = true := by
  match a with
  | [] => simp [sameItems]
  | x :: xs => simp [sameItems, same_self x, sameItems_self xs]

theorem sameMembers_self (a : List (String × Json)) : sameMembers a a = true := by
  match a with
  | [] => simp [sameMembers]
  | (k, x) :: xs => simp [sameMembers, same_self x, sameMembers_self xs]

end

instance : DecidableEq Json := fun a b =>
  decidable_of_iff (same a b = true) ⟨eq_of_same, fun h => h ▸ same_self a⟩

end Json

end SchemaLayout
