import SchemaLayout.Data.OrderedMap

/-!
# Looking values up in ordered maps

What is found in an ordered map after a value has been set: setting the value of a key leaves those of
all other keys alone. No key has two entries, and the entry of a new key comes behind all others.
-/

namespace SchemaLayout.OrderedMap

variable {α : Type}

theorem find?_empty (key : String) : (empty : OrderedMap α).find? key = none := by
  simp [find?, empty]

/-- After `update`, `key` has the new value, and every other key the one it had. -/
theorem find?_update (map : OrderedMap α) (key : String) (change : Option α → α) (other : String) :
    (map.update key change).find? other =
      if key = other then some (change (map.find? key)) else map.find? other := by
  obtain ⟨entries, places, hplaces⟩ := map
  rw [update]
  split
  · next place hfound =>
    obtain ⟨entry, hentry, hkey⟩ := Option.map_eq_some_iff.1 ((hplaces key place).1 hfound)
    simp only [find?, hfound, Array.getElem?_modify]
    by_cases hother : key = other
    · subst hother
      simp [hfound, hentry]
    · rw [if_neg hother]
      cases hthere : places[other]? with
      | none => rfl
      | some there =>
        -- Another key is at another place.
        have hne : place ≠ there := by
          intro h
          subst h
          have hsame := (hplaces other place).1 hthere
          rw [hentry, Option.map_some, Option.some.injEq] at hsame
          exact hother (hkey.symm.trans hsame)
        simp [hne]
  · next hfound =>
    simp only [find?, hfound, Std.HashMap.getElem?_insert, Option.bind_none]
    by_cases hother : key = other
    · subst hother
      simp
    · simp only [beq_iff_eq, hother, if_false]
      cases hthere : places[other]? with
      | none => rfl
      | some there =>
        -- The new entry is behind all others.
        obtain ⟨entry, hentry, _⟩ := Option.map_eq_some_iff.1 ((hplaces other there).1 hthere)
        have hlt := (Array.getElem?_eq_some_iff.1 hentry).1
        simp [Array.getElem?_push, Nat.ne_of_lt hlt]

/-- After `insert`, `key` has `value`. -/
theorem find?_insert (map : OrderedMap α) (key : String) (value : α) (other : String) :
    (map.insert key value).find? other = if key = other then some value else map.find? other :=
  find?_update map key _ other

/-- `update` adds at most one entry. -/
theorem size_update_le (map : OrderedMap α) (key : String) (change : Option α → α) :
    (map.update key change).size ≤ map.size + 1 := by
  obtain ⟨entries, places, hplaces⟩ := map
  rw [update]
  split
  · simp [size]
  · simp [size]

/-! ## Entries -/

/-- The `keys` of a map differ from each other. -/
theorem nodup_keys (map : OrderedMap α) : map.keys.Nodup := by
  have hplace {place : Nat} (hlt : place < map.keys.length) : map.places[map.keys[place]]? = some place := by
    have hentry : place < map.entries.size := by simpa [keys, toList] using hlt
    rw [map.places_iff, Array.getElem?_eq_getElem hentry]
    simp [keys, toList]
  refine List.pairwise_iff_getElem.2 fun first second hfirst hsecond hlt heq => ?_
  have hsame := hplace hfirst
  rw [heq, hplace hsecond] at hsame
  exact Nat.ne_of_gt hlt (Option.some.inj hsame)

/-- `update` puts a new key behind all others. -/
theorem toList_update_of_none {map : OrderedMap α} {key : String} (h : map.find? key = none)
    (change : Option α → α) : (map.update key change).toList = map.toList ++ [(key, change none)] := by
  obtain ⟨entries, places, hplaces⟩ := map
  rw [update]
  split
  · next place hfound =>
    -- A key that has a place has a value.
    obtain ⟨entry, hentry, _⟩ := Option.map_eq_some_iff.1 ((hplaces key place).1 hfound)
    simp [find?, hfound, hentry] at h
  · exact Array.toList_push

theorem toList_insert {map : OrderedMap α} {key : String} (h : map.find? key = none) (value : α) :
    (map.insert key value).toList = map.toList ++ [(key, value)] :=
  toList_update_of_none h _

/-- `update` leaves a known key at its place. -/
theorem toList_update_of_isSome {map : OrderedMap α} {key : String} (h : (map.find? key).isSome = true)
    (change : Option α → α) : (map.update key change).toList =
      map.toList.map fun entry => if entry.1 = key then (entry.1, change (some entry.2)) else entry := by
  obtain ⟨entries, places, hplaces⟩ := map
  rw [update]
  split
  · next place hfound =>
    apply List.ext_getElem?
    intro there
    simp only [toList, Array.getElem?_toList, List.getElem?_map, Array.getElem?_modify]
    cases hentry : entries[there]? with
    | none => simp
    | some entry =>
      -- The key is at its place and nowhere else.
      have hplace : entry.1 = key ↔ place = there := by
        have hiff := hplaces key there
        rw [hfound, hentry, Option.some.injEq, Option.map_some, Option.some.injEq] at hiff
        exact hiff.symm
      by_cases hsame : place = there
      · simp [hsame, hplace.2 hsame]
      · simp [hsame, mt hplace.1 hsame]
  · next hfound => simp [find?, hfound] at h

/-- `find?` finds exactly the `keys`. -/
theorem isSome_find?_iff {map : OrderedMap α} {key : String} :
    (map.find? key).isSome = true ↔ key ∈ map.keys := by
  simp only [Option.isSome_iff_exists, find?_eq_some_iff, keys, List.mem_map, Prod.exists,
    exists_and_right, exists_eq_right]

theorem length_toList (map : OrderedMap α) : map.toList.length = map.size :=
  Array.length_toList

end SchemaLayout.OrderedMap
