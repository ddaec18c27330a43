import Mathlib.Data.List.Nodup
import SchemaLayout.Feature.Rules
import SchemaLayout.Proofs.Data.Except

/-!
# Inheriting features

An element has the features of the element around it, apart from those that are written on it. Over any number of
elements inside each other this means that of the sets that are written on them, the innermost one that sets a
feature decides, and the defaults where none does (`Inherits.resolve`). For the features of extensions the same
holds key by key, where sets count only for keys that are registered.
-/

namespace SchemaLayout

/-! ## Extension features -/

namespace Extensions

theorem lookup_cons_eq (entry : String × Json) (rest : Extensions) (key : String) :
    (entry :: rest : Extensions).lookup key = if key = entry.1 then some entry.2 else rest.lookup key := by
  rw [List.lookup_cons]
  by_cases hkey : key = entry.1
  · rw [if_pos hkey, beq_iff_eq.2 hkey]
  · rw [if_neg hkey, beq_eq_false_iff_ne.2 hkey]

theorem lookup_insert (key : String) (value : Json) (extensions : Extensions) (other : String) :
    (extensions.insert key value).lookup other =
      if other = key then some value else extensions.lookup other := by
  induction extensions with
  | nil => exact lookup_cons_eq (key, value) [] other
  | cons head rest ih =>
    rw [insert]
    by_cases hhead : head.1 = key
    · rw [if_pos hhead, lookup_cons_eq, lookup_cons_eq, hhead]
      by_cases hkey : other = key
      · rw [if_pos hkey, if_pos hkey]
      · rw [if_neg hkey, if_neg hkey, if_neg hkey]
    · rw [if_neg hhead, lookup_cons_eq, lookup_cons_eq, ih]
      by_cases hother : other = head.1
      · have hkey : other ≠ key := fun hkey => hhead (hother.symm.trans hkey)
        rw [if_pos hother, if_pos hother, if_neg hkey]
      · rw [if_neg hother, if_neg hother]

/-- After `merge`, a key has the last value in `later`, and without one the value in `earlier`. -/
theorem lookup_merge (earlier later : Extensions) (key : String) :
    (earlier.merge later).lookup key = (later.reverse.lookup key).or (earlier.lookup key) := by
  unfold merge
  induction later generalizing earlier with
  | nil => rfl
  | cons entry rest ih =>
    rw [List.foldl_cons, ih, lookup_insert, List.reverse_cons, List.lookup_append, Option.or_assoc,
      lookup_cons_eq]
    by_cases hkey : key = entry.1
    · rw [if_pos hkey, if_pos hkey]
      rfl
    · rw [if_neg hkey, if_neg hkey]
      rfl

theorem mem_of_mem_insert {key : String} {value : Json} {extensions : Extensions} {entry : String × Json}
    (h : entry ∈ extensions.insert key value) : entry = (key, value) ∨ entry ∈ extensions := by
  induction extensions with
  | nil => exact Or.inl (List.mem_singleton.1 h)
  | cons head rest ih =>
    rw [insert] at h
    split at h
    · exact (List.mem_cons.1 h).imp_right (List.mem_cons_of_mem head)
    · rcases List.mem_cons.1 h with rfl | hrest
      · exact Or.inr List.mem_cons_self
      · exact (ih hrest).imp_right (List.mem_cons_of_mem head)

theorem mem_keys_insert {key : String} {value : Json} {extensions : Extensions} {other : String}
    (h : other ∈ (extensions.insert key value).map (·.1)) : other = key ∨ other ∈ extensions.map (·.1) := by
  obtain ⟨entry, hentry, rfl⟩ := List.mem_map.1 h
  rcases mem_of_mem_insert hentry with rfl | hentry
  · exact Or.inl rfl
  · exact Or.inr (List.mem_map_of_mem hentry)

theorem nodup_insert {extensions : Extensions} (h : (extensions.map (·.1)).Nodup) (key : String) (value : Json) :
    ((extensions.insert key value).map (·.1)).Nodup := by
  induction extensions with
  | nil => exact List.nodup_singleton key
  | cons head rest ih =>
    rw [List.map_cons, List.nodup_cons] at h
    obtain ⟨hhead, hrest⟩ := h
    rw [insert]
    split
    · next hkey =>
      rw [List.map_cons, List.nodup_cons]
      exact ⟨hkey ▸ hhead, hrest⟩
    · next hkey =>
      rw [List.map_cons, List.nodup_cons]
      exact ⟨fun hmem => (mem_keys_insert hmem).elim hkey hhead, ih hrest⟩

theorem nodup_merge {earlier : Extensions} (h : (earlier.map (·.1)).Nodup) (later : Extensions) :
    ((earlier.merge later).map (·.1)).Nodup :=
  List.foldlRecOn later _ (motive := fun all : Extensions => (all.map (·.1)).Nodup) h
    fun _ hall entry _ => nodup_insert hall entry.1 entry.2

/-- The entries after `merge` are from either set. -/
theorem mem_of_mem_merge {earlier later : Extensions} {entry : String × Json}
    (h : entry ∈ earlier.merge later) : entry ∈ earlier ∨ entry ∈ later := by
  unfold merge at h
  induction later generalizing earlier with
  | nil => exact Or.inl h
  | cons head rest ih =>
    rcases ih h with hinserted | hrest
    · rcases mem_of_mem_insert hinserted with rfl | hearlier
      · exact Or.inr List.mem_cons_self
      · exact Or.inl hearlier
    · exact Or.inr (List.mem_cons_of_mem head hrest)

/-- `lookup` among the entries whose keys satisfy `p`. -/
theorem lookup_filter (p : String → Bool) (extensions : Extensions) (key : String) :
    List.lookup key (extensions.filter (p ·.1)) = if p key then extensions.lookup key else none := by
  induction extensions with
  | nil => exact (ite_self none).symm
  | cons entry rest ih =>
    rw [List.filter_cons, lookup_cons_eq]
    by_cases hkey : key = entry.1
    · subst hkey
      cases hp : p entry.1 with
      | true => simp only [if_true, lookup_cons_eq]
      | false => simp [ih, hp]
    · rw [if_neg hkey]
      split
      · rw [lookup_cons_eq, if_neg hkey, ih]
      · exact ih

end Extensions

/-! ## The features that have names -/

/-- A feature that has a name: its value in a set, if it is `written` there, and as it is `resolved`. -/
structure NamedFeature where
  Value : Type
  written : FeatureSet → Option Value
  resolved : Features → Value

namespace NamedFeature

/-- The features that have names. -/
def all : List NamedFeature :=
  [⟨_, (·.fieldPresence), (·.fieldPresence)⟩, ⟨_, (·.enumOpenness), (·.enumOpenness)⟩,
    ⟨_, (·.repeatedEncoding), (·.repeatedEncoding)⟩, ⟨_, (·.utf8Validation), (·.utf8Validation)⟩,
    ⟨_, (·.messageEncoding), (·.messageEncoding)⟩, ⟨_, (·.jsonFormat), (·.jsonFormat)⟩]

variable {feature : NamedFeature} (h : feature ∈ all)

include h

/-- `merge` with inherited features takes what is written, and else what is inherited. -/
theorem resolved_merge (inherited : Features) (set : FeatureSet) :
    feature.resolved (inherited.merge set) = (feature.written set).getD (feature.resolved inherited) := by
  simp only [all, List.mem_cons, List.not_mem_nil, or_false] at h
  rcases h with rfl | rfl | rfl | rfl | rfl | rfl <;> rfl

/-- `merge` of two sets takes what the later one writes, and else the earlier one. -/
theorem written_merge (earlier later : FeatureSet) :
    feature.written (earlier.merge later) = (feature.written later).or (feature.written earlier) := by
  simp only [all, List.mem_cons, List.not_mem_nil, or_false] at h
  rcases h with rfl | rfl | rfl | rfl | rfl | rfl <;> rfl

/-- `registered` drops extensions only. -/
theorem written_registered (rules : FeatureRules) (set : FeatureSet) :
    feature.written (rules.registered set) = feature.written set := by
  simp only [all, List.mem_cons, List.not_mem_nil, or_false] at h
  rcases h with rfl | rfl | rfl | rfl | rfl | rfl <;> rfl

/-- `complete` succeeds only if every feature is written. -/
theorem written_of_complete {set : FeatureSet} {features : Features} (hcomplete : set.complete = .ok features) :
    feature.written set = some (feature.resolved features) := by
  simp only [FeatureSet.complete, except_bind_eq_ok_iff, elim_throw_eq_ok_iff] at hcomplete
  obtain ⟨_, hfieldPresence, _, henumOpenness, _, hrepeatedEncoding, _, hutf8Validation, _, hmessageEncoding,
    _, hjsonFormat, hfeatures⟩ := hcomplete
  cases hfeatures
  simp only [all, List.mem_cons, List.not_mem_nil, or_false] at h
  rcases h with rfl | rfl | rfl | rfl | rfl | rfl <;> assumption

end NamedFeature

/-- `complete` keeps the extensions. -/
theorem FeatureSet.extensions_of_complete {set : FeatureSet} {features : Features} (h : set.complete = .ok features) :
    features.extensions = set.extensions := by
  simp only [complete, except_bind_eq_ok_iff] at h
  obtain ⟨_, _, _, _, _, _, _, _, _, _, _, _, hfeatures⟩ := h
  cases hfeatures
  rfl

/-! ## Sets inside each other -/

/-- `features` are those of an element inside of `sets`, the innermost first, with `defaults` around all of
them. -/
structure Inherits (rules : FeatureRules) (defaults : FeatureSet) (sets : List FeatureSet) (features : Features) :
    Prop where
  /-- The innermost set that sets a feature decides. -/
  named : ∀ feature ∈ NamedFeature.all,
    some (feature.resolved features) = (sets.findSome? feature.written).or (feature.written defaults)
  /-- The innermost set that has a key decides on it; of several values in a set, the last one counts. -/
  extensions : ∀ key, features.extensions.lookup key =
    (if rules.isRegistered key then sets.findSome? fun set => set.extensions.reverse.lookup key else none).or
      (defaults.extensions.lookup key)
  /-- Each key has one value if that is so of the defaults. -/
  keys : (defaults.extensions.map (·.1)).Nodup → (features.extensions.map (·.1)).Nodup

variable {rules : FeatureRules} {defaults : FeatureSet} {sets : List FeatureSet} {features : Features}

/-- Outside of all sets, `Inherits` holds of the completed defaults. -/
theorem inherits_of_complete (h : defaults.complete = .ok features) : Inherits rules defaults [] features := by
  have hextensions := FeatureSet.extensions_of_complete h
  constructor
  case named =>
    intro feature hfeature
    exact (NamedFeature.written_of_complete hfeature h).symm
  case extensions =>
    intro key
    rw [hextensions, List.findSome?_nil, ite_self]
    rfl
  case keys =>
    intro hkeys
    rwa [hextensions]

/-- `resolve` keeps `Inherits`, with what is written as the innermost set. -/
theorem Inherits.resolve (h : Inherits rules defaults sets features) (written : Option FeatureSet) :
    Inherits rules defaults (written.toList ++ sets) (rules.resolve written features) := by
  cases written with
  | none => exact h
  | some set =>
    show Inherits rules defaults (set :: sets) (features.merge (rules.registered set))
    constructor
    case named =>
      intro feature hfeature
      rw [NamedFeature.resolved_merge hfeature, NamedFeature.written_registered hfeature, List.findSome?_cons]
      cases feature.written set with
      | some value => rfl
      | none => exact h.named feature hfeature
    case extensions =>
      intro key
      show List.lookup key (features.extensions.merge (set.extensions.filter (rules.isRegistered ·.1))) = _
      -- Of two entries for a key the last one counts, hence the search from behind.
      rw [Extensions.lookup_merge, ← List.filter_reverse, Extensions.lookup_filter, h.extensions,
        List.findSome?_cons]
      cases rules.isRegistered key with
      | false => rfl
      | true =>
        simp only [if_true]
        cases List.lookup key set.extensions.reverse <;> rfl
    case keys =>
      intro hkeys
      exact Extensions.nodup_merge (h.keys hkeys) _

/-! ## Rules of editions -/

/-- The defaults that `ofTable` comes to are the completed features of `rowFor?`. -/
theorem FeatureRules.exists_row_of_ofTable {edition : Edition} {table : DefaultsTable}
    {extensions : List FeatureExtension} (h : ofTable edition table extensions = .ok rules) :
    rules.edition = edition ∧ rules.extensions = extensions ∧
      ∃ row, table.rowFor? edition = some row ∧ row.features.complete = .ok rules.defaults := by
  unfold ofTable at h
  by_cases hcovered : edition < table.minimum ∨ table.maximum < edition
  · rw [if_pos hcovered] at h
    cases h
  rw [if_neg hcovered] at h
  cases hrow : table.rowFor? edition with
  | none =>
    rw [hrow] at h
    cases h
  | some row =>
    rw [hrow] at h
    cases hstray : extensions.find? (!·.extendsFeatures) with
    | some stray =>
      simp only [hstray] at h
      cases h
    | none =>
      simp only [hstray] at h
      cases hdefaults : row.features.complete with
      | error feature =>
        rw [hdefaults] at h
        cases h
      | ok defaults =>
        rw [hdefaults] at h
        cases h
        exact ⟨rfl, rfl, row, rfl, hdefaults⟩

end SchemaLayout
