import Std.Data.HashMap

/-!
# Ordered maps

Maps from text to values that keep their keys in the order in which they were first set. The entries
stand in an array, and a hash map says where each key is. `toList` is what a map means; the lemmas
say what looking up and setting a value do to it.
-/

namespace SchemaLayout

/-- A map whose keys keep the order in which they came: `entries` in order, and the place of each key. -/
structure OrderedMap (α : Type) where
  entries : Array (String × α)
  places : Std.HashMap String Nat
  /-- The hash map knows exactly where each key is. -/
  places_iff : ∀ (key : String) (place : Nat),
    places[key]? = some place ↔ entries[place]?.map (fun entry => entry.1) = some key

namespace OrderedMap

variable {α : Type}

/-- The map without entries. -/
def empty : OrderedMap α := ⟨#[], ∅, by simp⟩

instance : Inhabited (OrderedMap α) := ⟨empty⟩

/-- The entries in order. -/
def toList (map : OrderedMap α) : List (String × α) :=
  map.entries.toList

/-- The number of `entries`. -/
def size (map : OrderedMap α) : Nat :=
  map.entries.size

/-- The keys in order. -/
def keys (map : OrderedMap α) : List String :=
  map.toList.map (·.1)

/-- The values in the order of their keys. -/
def values (map : OrderedMap α) : List α :=
  map.toList.map (·.2)

/-- The value of a key. -/
def find? (map : OrderedMap α) (key : String) : Option α :=
  map.places[key]?.bind fun place => map.entries[place]?.map (·.2)

/-- The key has a value: `find?` has a result. -/
def contains (map : OrderedMap α) (key : String) : Bool :=
  (map.find? key).isSome

/-! ## Setting values -/

theorem places_iff_push {entries : Array (String × α)} {places : Std.HashMap String Nat}
    (places_iff : ∀ (key : String) (place : Nat),
      places[key]? = some place ↔ entries[place]?.map (fun entry => entry.1) = some key)
    {key : String} (absent : places[key]? = none) (value : α) (other : String) (place : Nat) :
    (places.insert key entries.size)[other]? = some place ↔
      (entries.push (key, value))[place]?.map (fun entry => entry.1) = some other := by
  rw [Std.HashMap.getElem?_insert, Array.getElem?_push]
  by_cases same : key = other
  · subst same
    have fresh : entries[place]?.map (·.1) ≠ some key := by
      rw [ne_eq, ← places_iff key place, absent]
      simp
    by_cases last : place = entries.size
    · simp [last]
    · simp only [beq_self_eq_true, if_true, if_neg last, Option.some.injEq]
      exact ⟨fun h => absurd h.symm last, fun h => absurd h fresh⟩
  · by_cases last : place = entries.size
    · have outside : places[other]? ≠ some entries.size := by
        rw [ne_eq, places_iff]
        simp
      simp [same, last, outside]
    · simpa [same, last] using places_iff other place

/-- Gives a key the value that `change` makes of its present one: in place if it has one, else at the
end. -/
def update (map : OrderedMap α) (key : String) (change : Option α → α) : OrderedMap α :=
  match map with
  | ⟨entries, places, places_iff⟩ =>
    match found : places[key]? with
    | some place => {
        entries := entries.modify place fun (name, value) => (name, change (some value))
        places
        places_iff := by
          intro other there
          rw [places_iff, Array.getElem?_modify]
          split <;> cases entries[there]? <;> simp
      }
    | none =>
      -- The place comes first, so that the array it is the size of need not be kept.
      let extended := places.insert key entries.size
      ⟨entries.push (key, change none), extended, places_iff_push places_iff found _⟩

/-- Gives `key` a value, at its place if it has one. -/
def insert (map : OrderedMap α) (key : String) (value : α) : OrderedMap α :=
  map.update key fun _ => value

/-! ## What the operations mean -/

theorem find?_eq_some_iff {map : OrderedMap α} {key : String} {value : α} :
    map.find? key = some value ↔ (key, value) ∈ map.toList := by
  simp only [find?, Option.bind_eq_some_iff, Option.map_eq_some_iff, toList, Array.mem_toList_iff,
    Array.mem_iff_getElem?]
  constructor
  · rintro ⟨place, found, ⟨name, there⟩, entry, rfl⟩
    have named := (map.places_iff key place).1 found
    rw [entry] at named
    simp only [Option.map_some, Option.some.injEq] at named
    exact ⟨place, by rw [entry, named]⟩
  · rintro ⟨place, entry⟩
    exact ⟨place, (map.places_iff key place).2 (by simp [entry]), (key, value), entry, rfl⟩

end OrderedMap

end SchemaLayout
