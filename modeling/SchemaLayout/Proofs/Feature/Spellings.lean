import SchemaLayout.Proofs.Data.List
import SchemaLayout.Proofs.Feature.Inheritance

/-!
# Spellings of extension features

The key of an extension feature may have brackets around the name of the extension, or dots in front of it, and
means the same extension without them: so says the check of what is registered. Merging goes by the keys as they are
written. Along a chain of sets, an extension therefore has a value for each of the spellings that were used, and
has the value that was written last, and no other one, exactly if it was spelled alike each time
(`values_resolveAll_iff`).
-/

namespace SchemaLayout

/-- `key` means the extension `name`. -/
def spells (name key : String) : Bool :=
  featureName key = name.toList

namespace Extensions

/-! ## Keys -/

/-- `insert` keeps the place of a key, and puts a new one behind all others. -/
theorem keys_insert (key : String) (value : Json) (extensions : Extensions) :
    (extensions.insert key value).map (·.1) =
      if key ∈ extensions.map (·.1) then extensions.map (·.1) else extensions.map (·.1) ++ [key] := by
  induction extensions with
  | nil => rfl
  | cons head rest ih =>
    rw [insert]
    by_cases hhead : head.1 = key
    · simp [hhead]
    · rw [if_neg hhead, List.map_cons, ih, List.map_cons]
      by_cases hrest : key ∈ rest.map (·.1)
      · rw [if_pos hrest, if_pos (List.mem_cons_of_mem _ hrest)]
      · have hnew : key ∉ head.1 :: rest.map (·.1) :=
          fun hmem => (List.mem_cons.1 hmem).elim (Ne.symm hhead) hrest
        rw [if_neg hrest, if_neg hnew, List.cons_append]

/-- `merge []` has each key where it came first, like `eraseDups`. -/
theorem keys_merge_nil (later : Extensions) :
    (merge [] later).map (·.1) = (later.map (·.1)).eraseDups := by
  unfold merge
  induction later using List.reverseRecOn with
  | nil => rfl
  | append_singleton front entry ih =>
    rw [List.foldl_append, List.foldl_cons, List.foldl_nil, keys_insert, ih, List.map_append, List.map_singleton,
      eraseDups_concat]
    simp only [List.mem_eraseDups]

theorem merge_append (earlier first second : Extensions) :
    earlier.merge (first ++ second) = (earlier.merge first).merge second :=
  List.foldl_append

/-! ## Keys of one kind -/

variable (p : String → Bool)

theorem filter_insert (key : String) (value : Json) (extensions : Extensions) :
    (extensions.insert key value).filter (p ·.1) =
      if p key then insert key value (extensions.filter (p ·.1)) else extensions.filter (p ·.1) := by
  induction extensions with
  | nil =>
    rw [insert, List.filter_cons]
    rfl
  | cons head rest ih =>
    rw [insert]
    by_cases hhead : head.1 = key
    · subst hhead
      cases hp : p head.1 <;> simp [insert, hp]
    · rw [if_neg hhead, List.filter_cons, ih, List.filter_cons]
      cases p head.1 <;> cases p key <;> simp [insert, hhead]

/-- `merge` keeps entries whose keys satisfy `p` to themselves. -/
theorem filter_merge (earlier later : Extensions) :
    (earlier.merge later).filter (p ·.1) = merge (earlier.filter (p ·.1)) (later.filter (p ·.1)) := by
  unfold merge
  induction later generalizing earlier with
  | nil => rfl
  | cons entry rest ih =>
    rw [List.foldl_cons, ih, filter_insert, List.filter_cons]
    cases p entry.1 <;> rfl

/-- The entries whose keys `spells` relates to `name`. -/
def entriesFor (name : String) (extensions : Extensions) : Extensions :=
  extensions.filter (spells name ·.1)

end Extensions

namespace FeatureRules

variable (rules : FeatureRules)

/-! ## Chains of sets -/

/-- The features of an element inside of the sets of `chain`, the outermost one first. -/
def resolveAll (chain : List FeatureSet) (outermost : Features) : Features :=
  chain.foldl (fun inherited set => rules.resolve (some set) inherited) outermost

/-- What the sets of `chain` write for the extension `name`, in their order. -/
def writtenFor (name : String) (chain : List FeatureSet) : Extensions :=
  chain.flatMap (·.extensions.entriesFor name)

theorem isRegistered_iff (key : String) :
    rules.isRegistered key = true ↔ ∃ name ∈ rules.extensions.map (·.name), spells name key = true := by
  simp only [isRegistered, List.any_eq_true, decide_eq_true_eq, List.mem_map, spells, exists_exists_and_eq_and,
    eq_comm (a := featureName key)]

section

variable {rules} {name : String} (hname : name ∈ rules.extensions.map (·.name))

include hname

/-- `resolve` merges the entries for a registered extension. -/
theorem entriesFor_resolve (set : FeatureSet) (inherited : Features) :
    (rules.resolve (some set) inherited).extensions.entriesFor name =
      (inherited.extensions.entriesFor name).merge (set.extensions.entriesFor name) := by
  have hkept : (rules.registered set).extensions.entriesFor name = set.extensions.entriesFor name := by
    rw [Extensions.entriesFor, registered, List.filter_filter]
    refine List.filter_congr fun entry _ => ?_
    cases hspells : spells name entry.1 with
    | false => rfl
    | true => exact (rules.isRegistered_iff entry.1).2 ⟨name, hname, hspells⟩
  rw [← hkept]
  exact Extensions.filter_merge _ inherited.extensions (rules.registered set).extensions

/-- `resolveAll` merges `writtenFor` into the entries that are there. -/
theorem entriesFor_resolveAll (chain : List FeatureSet) (outermost : Features) :
    (rules.resolveAll chain outermost).extensions.entriesFor name =
      (outermost.extensions.entriesFor name).merge (writtenFor name chain) := by
  unfold resolveAll
  induction chain generalizing outermost with
  | nil => rfl
  | cons set rest ih =>
    rw [List.foldl_cons, ih, entriesFor_resolve hname, ← Extensions.merge_append]
    rfl

/-! ## Values -/

variable {outermost : Features} (hnone : outermost.extensions = []) (chain : List FeatureSet)

include hnone

/-- An extension has one key for each spelling, in the order in which they came first. -/
theorem keys_resolveAll : ((rules.resolveAll chain outermost).extensions.entriesFor name).map (·.1) =
    ((writtenFor name chain).map (·.1)).eraseDups := by
  rw [entriesFor_resolveAll hname, hnone]
  exact Extensions.keys_merge_nil _

/-- `lookup` of a spelling finds the value that was last written with it. -/
theorem lookup_resolveAll (key : String) :
    ((rules.resolveAll chain outermost).extensions.entriesFor name).lookup key =
      (writtenFor name chain).reverse.lookup key := by
  rw [entriesFor_resolveAll hname, hnone, Extensions.lookup_merge]
  exact Option.or_none

/-- If all of `writtenFor` has one spelling, the value written last is the only one. -/
theorem values_resolveAll_of_alike
    (halike : ∀ first ∈ writtenFor name chain, ∀ second ∈ writtenFor name chain, first.1 = second.1) :
    ((rules.resolveAll chain outermost).extensions.entriesFor name).map (·.2) =
      ((writtenFor name chain).getLast?.map (·.2)).toList := by
  have hkeys := keys_resolveAll hname hnone chain
  have hlookup := lookup_resolveAll hname hnone chain
  generalize (rules.resolveAll chain outermost).extensions.entriesFor name = final at hkeys hlookup
  rcases List.eq_nil_or_concat' (writtenFor name chain) with hwritten | ⟨front, last, hwritten⟩
  · rw [hwritten, List.map_nil, List.eraseDups_nil, List.map_eq_nil_iff] at hkeys
    rw [hwritten, hkeys]
    rfl
  have hmem {key : String} : key ∈ final.map (·.1) ↔ key ∈ (writtenFor name chain).map (·.1) := by
    rw [hkeys, List.mem_eraseDups]
  have hlast : last ∈ writtenFor name chain := by simp [hwritten]
  have honly (key : String) (hkey : key ∈ final.map (·.1)) : key = last.1 := by
    obtain ⟨entry, hentry, rfl⟩ := List.mem_map.1 (hmem.1 hkey)
    exact halike entry hentry last hlast
  -- There is one key, the spelling that is used each time, and no second one.
  cases final with
  | nil => exact absurd (hmem.2 (List.mem_map_of_mem hlast)) List.not_mem_nil
  | cons entry rest =>
    have hentry : entry.1 = last.1 := honly entry.1 List.mem_cons_self
    cases rest with
    | nil =>
      have hvalue := hlookup last.1
      rw [Extensions.lookup_cons_eq, if_pos hentry.symm, hwritten, List.reverse_append, List.reverse_singleton,
        List.singleton_append, Extensions.lookup_cons_eq, if_pos rfl, Option.some.injEq] at hvalue
      simp [hwritten, hvalue]
    | cons second rest =>
      have hsecond : second.1 = last.1 := honly second.1 (List.mem_cons_of_mem _ List.mem_cons_self)
      have hnodup : ((entry :: second :: rest).map (·.1)).Nodup := hkeys ▸ nodup_eraseDups _
      simp [hentry, hsecond] at hnodup

/-- After `resolveAll`, a registered extension has one key for each spelling in `writtenFor`, with the value
last written with it. The value written last of all is its only one exactly if all of `writtenFor` has one
spelling. -/
theorem values_resolveAll_iff :
    ((rules.resolveAll chain outermost).extensions.entriesFor name).map (·.1) =
        ((writtenFor name chain).map (·.1)).eraseDups ∧
      (∀ key, ((rules.resolveAll chain outermost).extensions.entriesFor name).lookup key =
        (writtenFor name chain).reverse.lookup key) ∧
      (((rules.resolveAll chain outermost).extensions.entriesFor name).map (·.2) =
          ((writtenFor name chain).getLast?.map (·.2)).toList ↔
        ∀ first ∈ writtenFor name chain, ∀ second ∈ writtenFor name chain, first.1 = second.1) := by
  refine ⟨keys_resolveAll hname hnone chain, lookup_resolveAll hname hnone chain, ?_,
    values_resolveAll_of_alike hname hnone chain⟩
  intro hvalues first hfirst second hsecond
  have hkeys := keys_resolveAll hname hnone chain
  have hshort : ((writtenFor name chain).map (·.1)).eraseDups.length ≤ 1 := by
    rw [← hkeys, List.length_map, ← List.length_map (·.2), hvalues]
    exact Option.length_toList_le
  have hmem {entry : String × Json} (hentry : entry ∈ writtenFor name chain) :
      entry.1 ∈ ((writtenFor name chain).map (·.1)).eraseDups :=
    List.mem_eraseDups.2 (List.mem_map_of_mem hentry)
  -- There is room for one key only, so both keys stand at the same place.
  obtain ⟨here, hhere, hfirst⟩ := List.mem_iff_getElem.1 (hmem hfirst)
  obtain ⟨there, hthere, hsecond⟩ := List.mem_iff_getElem.1 (hmem hsecond)
  obtain rfl : here = there := by omega
  exact hfirst.symm.trans hsecond

end

/-! ### Styles -/

/-- The rules of edition 2023 with one registered extension. -/
def styleRules : FeatureRules where
  edition := .edition2023
  defaults := {
    fieldPresence := .explicit, enumOpenness := .openEnded, repeatedEncoding := .packed
    utf8Validation := .verify, messageEncoding := .lengthPrefixed, jsonFormat := .allow
  }
  extensions := [{ name := "acme.style", extendee := ".google.protobuf.FeatureSet" }]

theorem ofTable_style : ofTable .edition2023 .standard styleRules.extensions = .ok styleRules :=
  rfl

/-- A set that says how verbose to be. -/
def styleSet (key value : String) : FeatureSet where
  extensions := [(key, .text value)]

/-- Spelled alike, the style inside overrides the one outside. -/
theorem values_resolveAll_iff_style :
    "acme.style" ∈ styleRules.extensions.map (·.name) ∧ styleRules.defaults.extensions = [] ∧
      ((styleRules.resolveAll [styleSet "acme.style" "terse", styleSet "acme.style" "verbose"]
        styleRules.defaults).extensions.entriesFor "acme.style").map (·.2) = [.text "verbose"] := by
  have hname : "acme.style" ∈ styleRules.extensions.map (·.name) := by decide
  have hnone : styleRules.defaults.extensions = [] := rfl
  refine ⟨hname, hnone, ?_⟩
  exact (values_resolveAll_iff hname hnone
    [styleSet "acme.style" "terse", styleSet "acme.style" "verbose"]).2.2.2 (by decide)

/-- With brackets outside and without them inside, the style has two values. -/
theorem entriesFor_resolveAll_style :
    ofTable .edition2023 .standard styleRules.extensions = .ok styleRules ∧
      styleRules.defaults.extensions = [] ∧
      (∀ set ∈ [styleSet "[acme.style]" "terse", styleSet "acme.style" "verbose"],
        (set.extensions.entriesFor "acme.style").length = 1) ∧
      (styleRules.resolveAll [styleSet "[acme.style]" "terse", styleSet "acme.style" "verbose"]
        styleRules.defaults).extensions.entriesFor "acme.style" =
          [("[acme.style]", .text "terse"), ("acme.style", .text "verbose")] := by
  refine ⟨ofTable_style, rfl, ?_, ?_⟩
  · decide
  · decide

end FeatureRules

end SchemaLayout
