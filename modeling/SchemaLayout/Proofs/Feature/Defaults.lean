import Mathlib.Data.List.TakeWhile
import SchemaLayout.Proofs.Data.List
import SchemaLayout.Proofs.Feature.Inheritance

/-!
# Which editions have rules

An edition has rules only if the table of defaults covers it, has a row for it, all extensions are those of the
feature message, and the row leaves no feature out; these are looked at one after the other, and the first that is
not so is what is wrong with the edition. If all is well, the rules start from what the row says. All of this is told
of the table as it was written down (`FeatureRules.Outcome`): the row is the last one at or below the edition, and a
feature of it is what is to be overridden, or else what is fixed. The rules of an edition come to that, and to
nothing else (`FeatureRules.ofTable_eq_iff`).
-/

namespace SchemaLayout

/-! ## Rows -/

namespace DefaultsTable

/-- No row comes before one of an earlier edition. Editions may have several rows. -/
def IsAscending (table : DefaultsTable) : Prop :=
  table.rows.Pairwise fun row later => row.edition ≤ later.edition

/-- `edition` is between `table.minimum` and `table.maximum`. -/
def Covers (table : DefaultsTable) (edition : Edition) : Prop :=
  table.minimum ≤ edition ∧ edition ≤ table.maximum

/-- `row` is the last one at or below `edition`. -/
def IsRowAt (table : DefaultsTable) (edition : Edition) (row : DefaultsRow) : Prop :=
  row.edition ≤ edition ∧
    ∃ before after, table.rows = before ++ row :: after ∧ ∀ later ∈ after, edition < later.edition

variable {table : DefaultsTable} {edition : Edition}

theorem not_covers_iff : ¬ table.Covers edition ↔ edition < table.minimum ∨ table.maximum < edition :=
  not_and_or.trans (or_congr Nat.not_le Nat.not_le)

/-- In an ascending table, `rowFor?` is the last of all rows at or below `edition`. -/
theorem IsAscending.rowFor?_eq (h : table.IsAscending) :
    table.rowFor? edition = (table.rows.filter (·.edition ≤ edition)).getLast? := by
  have hfront : table.rows.Pairwise fun row later =>
      decide (later.edition ≤ edition) = true → decide (row.edition ≤ edition) = true :=
    h.imp fun hle hlater => decide_eq_true (Nat.le_trans hle (of_decide_eq_true hlater))
  rw [rowFor?, takeWhile_eq_filter hfront]

/-- `rowFor?` finds the row with `IsRowAt`. -/
theorem rowFor?_eq_some_iff (h : table.IsAscending) {row : DefaultsRow} :
    table.rowFor? edition = some row ↔ table.IsRowAt edition row := by
  simp only [h.rowFor?_eq, getLast?_filter_eq_some_iff, decide_eq_true_eq]
  exact and_congr_right fun _ => exists_congr fun _ => exists_congr fun _ => and_congr_right fun _ =>
    forall₂_congr fun _ _ => Nat.not_le

theorem rowFor?_eq_none_iff (h : table.IsAscending) :
    table.rowFor? edition = none ↔ ∀ row ∈ table.rows, edition < row.edition := by
  rw [h.rowFor?_eq, List.getLast?_eq_none_iff, List.filter_eq_nil_iff]
  exact forall₂_congr fun _ _ => (not_congr decide_eq_true_iff).trans Nat.not_le

end DefaultsTable

/-! ## Extensions -/

/-- `extendee` is `featureSetName` with any number of dots in front. -/
def FeatureExtension.IsOfFeatures (extension : FeatureExtension) : Prop :=
  ∃ dots, extension.extendee.toList = List.replicate dots '.' ++ featureSetName.toList

theorem FeatureExtension.extendsFeatures_iff {extension : FeatureExtension} :
    extension.extendsFeatures = true ↔ extension.IsOfFeatures := by
  rw [extendsFeatures, decide_eq_true_iff]
  constructor
  · intro hname
    have hdots : ∀ c ∈ extension.extendee.toList.takeWhile (· = '.'), c = '.' := by
      intro c hc
      have hdot := List.mem_takeWhile_imp hc
      exact of_decide_eq_true hdot
    refine ⟨(extension.extendee.toList.takeWhile (· = '.')).length, ?_⟩
    rw [← List.eq_replicate_of_mem hdots, ← hname, List.takeWhile_append_dropWhile]
  · rintro ⟨dots, hname⟩
    rw [hname, List.dropWhile_append_of_pos (fun c hc => decide_eq_true (List.eq_of_mem_replicate hc))]
    decide

/-! ## Features that a set leaves out -/

namespace NamedFeature

/-- `NamedFeature.all` with the names that errors have for them, in the order of a set. -/
def members : List (String × NamedFeature) :=
  ["field_presence", "enum_type", "repeated_field_encoding", "utf8_validation", "message_encoding",
    "json_format"].zip all

end NamedFeature

namespace FeatureSet

variable {set : FeatureSet}

/-- `complete` fails with the name of the first feature that the set leaves out. -/
theorem complete_eq_error_iff {name : String} :
    set.complete = .error name ↔ ∃ before feature after, NamedFeature.members = before ++ (name, feature) :: after ∧
      (∀ earlier ∈ before, (earlier.2.written set).isSome) ∧ feature.written set = none := by
  have hfirst : set.complete = .error name ↔
      (NamedFeature.members.find? fun member => (member.2.written set).isNone).map (·.1) = some name := by
    have hnamed (first : String) : (.error first : Except String Features) = .error name ↔ some first = some name := by
      rw [Except.error.injEq, Option.some.injEq]
    -- The names are the same one by one: as long as features are set, both sides look at the next one.
    obtain ⟨fieldPresence, enumOpenness, repeatedEncoding, utf8Validation, messageEncoding, jsonFormat, _⟩ := set
    cases fieldPresence with
    | none => exact hnamed "field_presence"
    | some _ =>
      cases enumOpenness with
      | none => exact hnamed "enum_type"
      | some _ =>
        cases repeatedEncoding with
        | none => exact hnamed "repeated_field_encoding"
        | some _ =>
          cases utf8Validation with
          | none => exact hnamed "utf8_validation"
          | some _ =>
            cases messageEncoding with
            | none => exact hnamed "message_encoding"
            | some _ =>
              cases jsonFormat with
              | none => exact hnamed "json_format"
              | some _ => exact ⟨nofun, nofun⟩
  rw [hfirst, Option.map_eq_some_iff]
  constructor
  · rintro ⟨⟨_, feature⟩, hfound, rfl⟩
    obtain ⟨hunset, before, after, hmembers, hbefore⟩ := List.find?_eq_some_iff_append.1 hfound
    exact ⟨before, feature, after, hmembers, fun earlier hearlier => by simpa using hbefore earlier hearlier,
      Option.isNone_iff_eq_none.1 hunset⟩
  · rintro ⟨before, feature, after, hmembers, hbefore, hunset⟩
    refine ⟨(name, feature), List.find?_eq_some_iff_append.2 ⟨?_, before, after, hmembers, ?_⟩, rfl⟩
    · exact Option.isNone_iff_eq_none.2 hunset
    · exact fun earlier hearlier => by simpa using hbefore earlier hearlier

theorem complete_eq_ok_iff {features : Features} :
    set.complete = .ok features ↔
      (∀ feature ∈ NamedFeature.all, feature.written set = some (feature.resolved features)) ∧
        features.extensions = set.extensions := by
  constructor
  · intro h
    exact ⟨fun feature hfeature => NamedFeature.written_of_complete hfeature h, extensions_of_complete h⟩
  · rintro ⟨hall, hextensions⟩
    simp only [NamedFeature.all, List.forall_mem_cons, List.not_mem_nil, false_implies, implies_true, and_true]
      at hall
    obtain ⟨hfieldPresence, henumOpenness, hrepeatedEncoding, hutf8Validation, hmessageEncoding, hjsonFormat⟩ := hall
    simp only [complete, except_bind_eq_ok_iff, elim_throw_eq_ok_iff]
    refine ⟨_, hfieldPresence, _, henumOpenness, _, hrepeatedEncoding, _, hutf8Validation, _, hmessageEncoding, _,
      hjsonFormat, ?_⟩
    rw [← hextensions]
    rfl

end FeatureSet

/-! ## Outcomes -/

namespace FeatureRules

/-- What becomes of the rules of an edition, one case for each error and one for success. -/
inductive Outcome (edition : Edition) (table : DefaultsTable) (extensions : List FeatureExtension) :
    Except FeatureError FeatureRules → Prop
  /-- The table is not for this edition. -/
  | unsupported (houtside : ¬ table.Covers edition) :
      Outcome edition table extensions (.error (.unsupportedEdition edition table.minimum table.maximum))
  /-- All rows are later. -/
  | noDefault (hcovers : table.Covers edition) (hlater : ∀ row ∈ table.rows, edition < row.edition) :
      Outcome edition table extensions (.error (.noDefault edition))
  /-- An extension is of something else; it is the first one. -/
  | strayExtension (hcovers : table.Covers edition) {row : DefaultsRow} (hrow : table.IsRowAt edition row)
      {before after : List FeatureExtension} {stray : FeatureExtension}
      (hextensions : extensions = before ++ stray :: after) (hbefore : ∀ earlier ∈ before, earlier.IsOfFeatures)
      (hstray : ¬ stray.IsOfFeatures) :
      Outcome edition table extensions (.error (.invalidExtension stray.name stray.extendee))
  /-- A feature is neither fixed nor to be overridden; it is the first one. -/
  | incomplete (hcovers : table.Covers edition) {row : DefaultsRow} (hrow : table.IsRowAt edition row)
      (hextensions : ∀ extension ∈ extensions, extension.IsOfFeatures) {before after : List (String × NamedFeature)}
      {name : String} {feature : NamedFeature} (hmembers : NamedFeature.members = before ++ (name, feature) :: after)
      (hbefore : ∀ earlier ∈ before, (earlier.2.written row.overridable).isSome ∨ (earlier.2.written row.fixed).isSome)
      (hoverridable : feature.written row.overridable = none) (hfixed : feature.written row.fixed = none) :
      Outcome edition table extensions (.error (.incompleteDefaults edition name))
  /-- There are rules. By default, a feature is what is to be overridden if that is written, and else what is fixed. -/
  | rules (hcovers : table.Covers edition) {row : DefaultsRow} (hrow : table.IsRowAt edition row)
      (hextensions : ∀ extension ∈ extensions, extension.IsOfFeatures) {defaults : Features}
      (hdefaults : ∀ feature ∈ NamedFeature.all,
        (feature.written row.overridable).or (feature.written row.fixed) = some (feature.resolved defaults))
      (hmerged : defaults.extensions = row.fixed.extensions.merge row.overridable.extensions) :
      Outcome edition table extensions (.ok { edition, defaults, extensions })

variable {edition : Edition} {table : DefaultsTable} {extensions : List FeatureExtension}

/-! ## What the rules come to -/

/-- No extension is found to be stray if all satisfy `IsOfFeatures`. -/
theorem find?_stray_eq_none_iff :
    extensions.find? (!·.extendsFeatures) = none ↔ ∀ extension ∈ extensions, extension.IsOfFeatures := by
  simp only [List.find?_eq_none, Bool.not_eq_true', Bool.not_eq_false, FeatureExtension.extendsFeatures_iff]

/-- The stray extension that is found is the first one without `IsOfFeatures`. -/
theorem find?_stray_eq_some_iff {stray : FeatureExtension} :
    extensions.find? (!·.extendsFeatures) = some stray ↔ ∃ before after, extensions = before ++ stray :: after ∧
      (∀ earlier ∈ before, earlier.IsOfFeatures) ∧ ¬ stray.IsOfFeatures := by
  simp only [List.find?_eq_some_iff_append, Bool.not_not, Bool.not_eq_true', ← Bool.not_eq_true,
    FeatureExtension.extendsFeatures_iff]
  constructor
  · rintro ⟨hstray, before, after, hextensions, hbefore⟩
    exact ⟨before, after, hextensions, hbefore, hstray⟩
  · rintro ⟨before, after, hextensions, hbefore, hstray⟩
    exact ⟨hstray, before, after, hextensions, hbefore⟩

/-- `complete` fails for a row with the first feature that is neither in `fixed` nor in `overridable`. -/
theorem complete_row_eq_error_iff {row : DefaultsRow} {name : String} :
    row.features.complete = .error name ↔ ∃ before feature after,
      NamedFeature.members = before ++ (name, feature) :: after ∧
        (∀ earlier ∈ before, (earlier.2.written row.overridable).isSome ∨ (earlier.2.written row.fixed).isSome) ∧
          feature.written row.overridable = none ∧ feature.written row.fixed = none := by
  rw [FeatureSet.complete_eq_error_iff]
  refine exists_congr fun before => exists_congr fun feature => exists_congr fun after =>
    and_congr_right fun hmembers => ?_
  have hwritten : ∀ member ∈ NamedFeature.members, member.2.written row.features =
      (member.2.written row.overridable).or (member.2.written row.fixed) :=
    fun member hmember => NamedFeature.written_merge (List.of_mem_zip hmember).2 _ _
  rw [hmembers, List.forall_mem_append, List.forall_mem_cons] at hwritten
  obtain ⟨hbefore, hfeature, _⟩ := hwritten
  rw [hfeature, Option.or_eq_none_iff]
  refine and_congr_left fun _ => forall₂_congr fun earlier hearlier => ?_
  rw [hbefore earlier hearlier, Option.isSome_or, Bool.or_eq_true]

/-- `complete` takes each feature of a row from `overridable`, or else from `fixed`. -/
theorem complete_row_eq_ok_iff {row : DefaultsRow} {defaults : Features} :
    row.features.complete = .ok defaults ↔
      (∀ feature ∈ NamedFeature.all,
        (feature.written row.overridable).or (feature.written row.fixed) = some (feature.resolved defaults)) ∧
        defaults.extensions = row.fixed.extensions.merge row.overridable.extensions := by
  rw [FeatureSet.complete_eq_ok_iff]
  refine and_congr_left fun _ => forall₂_congr fun feature hfeature => ?_
  rw [DefaultsRow.features, NamedFeature.written_merge hfeature]

/-- Every edition has some `Outcome`. -/
theorem exists_outcome (h : table.IsAscending) (edition : Edition) (extensions : List FeatureExtension) :
    ∃ result, Outcome edition table extensions result := by
  -- `ofTable` asks in this order: for the edition, its row, the extensions and the features.
  by_cases hcovers : table.Covers edition
  · cases hrow : table.rowFor? edition with
    | none => exact ⟨_, .noDefault hcovers ((DefaultsTable.rowFor?_eq_none_iff h).1 hrow)⟩
    | some row =>
      have hrow := (DefaultsTable.rowFor?_eq_some_iff h).1 hrow
      cases hstray : extensions.find? (!·.extendsFeatures) with
      | some stray =>
        obtain ⟨before, after, hextensions, hbefore, hstray⟩ := find?_stray_eq_some_iff.1 hstray
        exact ⟨_, .strayExtension hcovers hrow hextensions hbefore hstray⟩
      | none =>
        have hextensions := find?_stray_eq_none_iff.1 hstray
        cases hcomplete : row.features.complete with
        | error name =>
          obtain ⟨before, feature, after, hmembers, hbefore, hoverridable, hfixed⟩ :=
            complete_row_eq_error_iff.1 hcomplete
          exact ⟨_, .incomplete hcovers hrow hextensions hmembers hbefore hoverridable hfixed⟩
        | ok defaults =>
          obtain ⟨hdefaults, hmerged⟩ := complete_row_eq_ok_iff.1 hcomplete
          exact ⟨_, .rules hcovers hrow hextensions hdefaults hmerged⟩
  · exact ⟨_, .unsupported hcovers⟩

/-- `ofTable` comes to any `Outcome`, hence there is but one. -/
theorem Outcome.ofTable_eq {result : Except FeatureError FeatureRules}
    (houtcome : Outcome edition table extensions result) (h : table.IsAscending) :
    ofTable edition table extensions = result := by
  have hin (hcovers : table.Covers edition) : ¬ (edition < table.minimum ∨ table.maximum < edition) :=
    fun hout => DefaultsTable.not_covers_iff.2 hout hcovers
  cases houtcome with
  | unsupported houtside =>
    rw [ofTable, if_pos (DefaultsTable.not_covers_iff.1 houtside)]
    rfl
  | noDefault hcovers hlater =>
    rw [ofTable, if_neg (hin hcovers), (DefaultsTable.rowFor?_eq_none_iff h).2 hlater]
    rfl
  | strayExtension hcovers hrow hextensions hbefore hstray =>
    have hfound := find?_stray_eq_some_iff.2 ⟨_, _, hextensions, hbefore, hstray⟩
    rw [ofTable, if_neg (hin hcovers), (DefaultsTable.rowFor?_eq_some_iff h).2 hrow]
    simp only [hfound]
    rfl
  | incomplete hcovers hrow hextensions hmembers hbefore hoverridable hfixed =>
    have hcomplete := complete_row_eq_error_iff.2 ⟨_, _, _, hmembers, hbefore, hoverridable, hfixed⟩
    rw [ofTable, if_neg (hin hcovers), (DefaultsTable.rowFor?_eq_some_iff h).2 hrow]
    simp only [find?_stray_eq_none_iff.2 hextensions, hcomplete]
    rfl
  | rules hcovers hrow hextensions hdefaults hmerged =>
    have hcomplete := complete_row_eq_ok_iff.2 ⟨hdefaults, hmerged⟩
    rw [ofTable, if_neg (hin hcovers), (DefaultsTable.rowFor?_eq_some_iff h).2 hrow]
    simp only [find?_stray_eq_none_iff.2 hextensions, hcomplete]
    rfl

/-- `ofTable` comes to the `Outcome` and to nothing else. -/
theorem ofTable_eq_iff (h : table.IsAscending) {result : Except FeatureError FeatureRules} :
    ofTable edition table extensions = result ↔ Outcome edition table extensions result := by
  constructor
  · rintro rfl
    obtain ⟨result, hresult⟩ := exists_outcome h edition extensions
    rwa [hresult.ofTable_eq h]
  · exact fun houtcome => houtcome.ofTable_eq h

end FeatureRules

end SchemaLayout
