import SchemaLayout.Proofs.Feature.Document
import SchemaLayout.Proofs.Feature.Spellings

/-!
# Resolving acts by merging

Features are merged in two ways: a set that is written into another set, and a set into the features that an element
inherits. They fit each other: an element inside of another one has the features that it would have if both sets were
merged first and then written on a single element (`resolve_acts_by_merging`). So a whole chain of elements inside
each other comes to one set (`resolveAll_eq_resolve`).

Keys of extensions keep the places where they came first, and so all of this holds of their order, too.
-/

namespace SchemaLayout

/-! ## Extension features -/

namespace Extensions

/-- Of two values for `key`, the `last` one counts. -/
theorem insert_insert (key : String) (value last : Json) (extensions : Extensions) :
    (extensions.insert key value).insert key last = extensions.insert key last := by
  induction extensions with
  | nil => exact if_pos rfl
  | cons head rest ih =>
    by_cases hhead : head.1 = key
    · simp only [insert, if_pos hhead, if_true]
    · simp only [insert, if_neg hhead, ih]

/-- A key that is there keeps its place, so its `insert` commutes with that of another one. -/
theorem insert_comm {key other : String} (hne : key ≠ other) {extensions : Extensions}
    (hkey : key ∈ extensions.map (·.1)) (value otherValue : Json) :
    (extensions.insert other otherValue).insert key value = (extensions.insert key value).insert other otherValue := by
  induction extensions with
  | nil => exact absurd hkey List.not_mem_nil
  | cons head rest ih =>
    by_cases hhead : head.1 = key
    · have hother : head.1 ≠ other := fun h => hne (hhead.symm.trans h)
      simp only [insert, if_pos hhead, if_neg hother, if_neg hne]
    · have hrest : key ∈ rest.map (·.1) := (List.mem_cons.1 hkey).resolve_left (Ne.symm hhead)
      by_cases hother : head.1 = other
      · simp only [insert, if_neg hhead, if_pos hother, if_neg (Ne.symm hne)]
      · simp only [insert, if_neg hhead, if_neg hother, ih hrest]

/-- A key that is there may as well be set after a `merge` with other keys. -/
theorem insert_merge {key : String} {earlier later : Extensions} (hkey : key ∈ earlier.map (·.1))
    (hlater : key ∉ later.map (·.1)) (value : Json) :
    (earlier.insert key value).merge later = (earlier.merge later).insert key value := by
  unfold merge
  induction later generalizing earlier with
  | nil => rfl
  | cons entry rest ih =>
    rw [List.map_cons, List.mem_cons, not_or] at hlater
    have hstill : key ∈ (earlier.insert entry.1 entry.2).map (·.1) := by
      rw [keys_insert]
      split
      · exact hkey
      · exact List.mem_append_left _ hkey
    rw [List.foldl_cons, List.foldl_cons, ← ih hstill hlater.2, insert_comm hlater.1 hkey]

/-- `insert` in `later` is `insert` in the result of `merge`. -/
theorem merge_insert {later : Extensions} (hlater : (later.map (·.1)).Nodup) (earlier : Extensions) (key : String)
    (value : Json) : earlier.merge (later.insert key value) = (earlier.merge later).insert key value := by
  induction later generalizing earlier with
  | nil => rfl
  | cons head rest ih =>
    rw [List.map_cons, List.nodup_cons] at hlater
    by_cases hhead : head.1 = key
    · -- The value that the key had is replaced at once on the left, and behind all other keys on the right.
      have hrest : key ∉ rest.map (·.1) := hhead ▸ hlater.1
      have hthere : key ∈ (earlier.insert key head.2).map (·.1) := by
        rw [keys_insert]
        split
        · assumption
        · exact List.mem_append_right _ List.mem_cons_self
      have hleft : earlier.merge (insert key value (head :: rest)) =
          (earlier.insert key value).merge rest := by
        rw [insert, if_pos hhead]
        rfl
      have hright : earlier.merge (head :: rest) = (earlier.insert key head.2).merge rest := by
        rw [← hhead]
        rfl
      rw [hleft, hright, ← insert_merge hthere hrest, insert_insert]
    · rw [insert, if_neg hhead]
      exact ih hlater.2 (earlier.insert head.1 head.2)

/-- `merge` is associative if keys of the middle set differ. -/
theorem merge_merge {first : Extensions} (hfirst : (first.map (·.1)).Nodup) (earlier second : Extensions) :
    (earlier.merge first).merge second = earlier.merge (first.merge second) := by
  induction second generalizing first with
  | nil => rfl
  | cons entry rest ih =>
    have hstep := ih (nodup_insert hfirst entry.1 entry.2)
    rw [merge_insert hfirst] at hstep
    exact hstep

end Extensions

/-! ## Feature sets -/

namespace FeatureSet

/-- Each key of the set is there once, as in all sets that are read (`hasDistinctKeys_of_decode`). -/
def HasDistinctKeys (set : FeatureSet) : Prop :=
  (set.extensions.map (·.1)).Nodup

instance (set : FeatureSet) : Decidable set.HasDistinctKeys :=
  inferInstanceAs (Decidable (set.extensions.map (·.1)).Nodup)

/-- The set writes every one of `NamedFeature.all`. -/
def SetsAll (set : FeatureSet) : Prop :=
  ∀ feature ∈ NamedFeature.all, (feature.written set).isSome

variable {first second : FeatureSet}

theorem hasDistinctKeys_of_decode {room : Nat} {document : Json} {set : FeatureSet}
    (h : decode room document = some set) : set.HasDistinctKeys := by
  obtain ⟨_, _, hextensions⟩ := exists_decodeExtensions_of_decode h
  exact (of_decodeExtensions hextensions).1

theorem HasDistinctKeys.merge (h : first.HasDistinctKeys) (later : FeatureSet) :
    (first.merge later).HasDistinctKeys :=
  Extensions.nodup_merge h later.extensions

theorem merge_assoc (hsecond : second.HasDistinctKeys) (first third : FeatureSet) :
    (first.merge second).merge third = first.merge (second.merge third) := by
  unfold merge
  simp only [Option.or_assoc, Extensions.merge_merge hsecond]

theorem merge_empty (set : FeatureSet) : set.merge empty = set := by
  unfold merge empty
  simp only [Option.none_or]
  rfl

theorem empty_merge (h : first.HasDistinctKeys) : empty.merge first = first := by
  have hextensions : Extensions.merge [] first.extensions = first.extensions :=
    Extensions.merge_eq_append h
  unfold merge empty
  simp only [Option.or_none, hextensions]

end FeatureSet

/-- `Features.merge` acts by `FeatureSet.merge`. -/
theorem Features.merge_merge {first : FeatureSet} (hfirst : first.HasDistinctKeys) (inherited : Features)
    (second : FeatureSet) : (inherited.merge first).merge second = inherited.merge (first.merge second) := by
  unfold Features.merge FeatureSet.merge
  simp only [Option.getD_or, Extensions.merge_merge hfirst]

/-! ## Resolving -/

namespace FeatureRules

variable (rules : FeatureRules) {first second : FeatureSet}

theorem registered_merge (first second : FeatureSet) :
    rules.registered (first.merge second) = (rules.registered first).merge (rules.registered second) := by
  unfold registered FeatureSet.merge
  simp only [Extensions.filter_merge]

/-- `resolve` twice is `resolve` of the `merge`. -/
theorem resolve_resolve (hfirst : first.HasDistinctKeys) (second : FeatureSet) (inherited : Features) :
    rules.resolve (some second) (rules.resolve (some first) inherited) =
      rules.resolve (some (first.merge second)) inherited := by
  have hkeys : (rules.registered first).HasDistinctKeys := List.Nodup.sublist (List.filter_sublist.map _) hfirst
  show (inherited.merge (rules.registered first)).merge (rules.registered second) =
    inherited.merge (rules.registered (first.merge second))
  rw [Features.merge_merge hkeys, registered_merge]

/-- `resolveAll` is `resolve` of the sets of `chain`, merged from the outermost one on. -/
theorem resolveAll_eq_resolve {chain : List FeatureSet} (hchain : ∀ set ∈ chain, set.HasDistinctKeys)
    (outermost : Features) : rules.resolveAll chain outermost =
      rules.resolve (some (chain.foldl FeatureSet.merge .empty)) outermost := by
  have hfrom (before : FeatureSet) (hbefore : before.HasDistinctKeys) :
      rules.resolveAll chain (rules.resolve (some before) outermost) =
        rules.resolve (some (chain.foldl FeatureSet.merge before)) outermost := by
    unfold resolveAll
    induction chain generalizing before with
    | nil => rfl
    | cons set rest ih =>
      rw [List.foldl_cons, List.foldl_cons, resolve_resolve rules hbefore]
      exact ih (fun other hother => hchain other (List.mem_cons_of_mem set hother)) _ (hbefore.merge set)
  exact hfrom .empty List.nodup_nil

/-- A key that is not registered is only inherited. -/
theorem lookup_resolve_of_not_isRegistered {key : String} (hkey : rules.isRegistered key = false)
    (set : FeatureSet) (inherited : Features) :
    (rules.resolve (some set) inherited).extensions.lookup key = inherited.extensions.lookup key := by
  show List.lookup key (inherited.extensions.merge (set.extensions.filter (rules.isRegistered ·.1))) = _
  rw [Extensions.lookup_merge, ← List.filter_reverse, Extensions.lookup_filter, hkey]
  rfl

/-- A feature that the set writes does not depend on what is inherited. -/
theorem resolved_resolve_eq {feature : NamedFeature} (hfeature : feature ∈ NamedFeature.all) {set : FeatureSet}
    (hset : (feature.written set).isSome) (inherited other : Features) :
    feature.resolved (rules.resolve (some set) inherited) = feature.resolved (rules.resolve (some set) other) := by
  obtain ⟨value, hvalue⟩ := Option.isSome_iff_exists.1 hset
  have hresult (around : Features) : feature.resolved (rules.resolve (some set) around) = value := by
    show feature.resolved (around.merge (rules.registered set)) = value
    rw [NamedFeature.resolved_merge hfeature, NamedFeature.written_registered hfeature, hvalue]
    rfl
  rw [hresult, hresult]

/-- `resolve` acts by `merge`, which is associative, and `empty` changes nothing, like no set at all. A set with
`SetsAll` leaves no named feature to what is inherited, and keys without `isRegistered` count in no set. -/
theorem resolve_acts_by_merging (hfirst : first.HasDistinctKeys) (hsecond : second.HasDistinctKeys)
    (third : FeatureSet) (inherited : Features) :
    rules.resolve (some second) (rules.resolve (some first) inherited) =
        rules.resolve (some (first.merge second)) inherited ∧
      (first.merge second).merge third = first.merge (second.merge third) ∧
      first.merge .empty = first ∧ FeatureSet.empty.merge first = first ∧
      rules.resolve none inherited = inherited ∧
      (first.SetsAll → ∀ other, ∀ feature ∈ NamedFeature.all,
        feature.resolved (rules.resolve (some first) inherited) =
          feature.resolved (rules.resolve (some first) other)) ∧
      ∀ key, rules.isRegistered key = false →
        (rules.resolve (some first) inherited).extensions.lookup key = inherited.extensions.lookup key := by
  refine ⟨resolve_resolve rules hfirst second inherited, FeatureSet.merge_assoc hsecond first third,
    FeatureSet.merge_empty first, FeatureSet.empty_merge hfirst, rfl, ?_, ?_⟩
  · intro hall other feature hfeature
    exact resolved_resolve_eq rules hfeature (hall feature hfeature) inherited other
  · intro key hkey
    exact lookup_resolve_of_not_isRegistered rules hkey first inherited

/-- The style of a house: all features that have names, a style, and a tone, which is not registered. -/
def houseSet : FeatureSet :=
  { DefaultsTable.proto3Features with extensions := [("acme.style", .text "terse"), ("acme.tone", .text "dry")] }

/-- The style of a letter, spelled in two ways. -/
def letterSet : FeatureSet where
  enumOpenness := some .closed
  extensions := [("[acme.style]", .text "verbose"), ("acme.style", .text "brief")]

/-- `letterSet` inside `houseSet`: `resolve` gives the style of their `merge`, and no tone. -/
theorem resolve_acts_by_merging_style :
    houseSet.HasDistinctKeys ∧ letterSet.HasDistinctKeys ∧ houseSet.SetsAll ∧
      styleRules.resolve (some letterSet) (styleRules.resolve (some houseSet) styleRules.defaults) =
        styleRules.resolve (some (houseSet.merge letterSet)) styleRules.defaults ∧
      (styleRules.resolve (some (houseSet.merge letterSet)) styleRules.defaults).extensions =
        [("acme.style", .text "brief"), ("[acme.style]", .text "verbose")] ∧
      styleRules.isRegistered "acme.tone" = false ∧
      (styleRules.resolve (some houseSet) styleRules.defaults).extensions.lookup "acme.tone" = none ∧
      ∀ other, ∀ feature ∈ NamedFeature.all,
        feature.resolved (styleRules.resolve (some houseSet) styleRules.defaults) =
          feature.resolved (styleRules.resolve (some houseSet) other) := by
  have hhouse : houseSet.HasDistinctKeys := by decide
  have hletter : letterSet.HasDistinctKeys := by decide
  have hall : houseSet.SetsAll := by
    simp [FeatureSet.SetsAll, NamedFeature.all, houseSet, DefaultsTable.proto3Features]
  have htone : styleRules.isRegistered "acme.tone" = false := by decide
  obtain ⟨hmerge, -, -, -, -, hnamed, hdropped⟩ :=
    resolve_acts_by_merging styleRules hhouse hletter .empty styleRules.defaults
  exact ⟨hhouse, hletter, hall, hmerge, by decide, htone, hdropped "acme.tone" htone, hnamed hall⟩

end FeatureRules

end SchemaLayout
