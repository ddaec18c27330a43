import SchemaLayout.Proofs.Feature.Defaults
import SchemaLayout.Proofs.Schema.Inheritance

/-!
# Files that are refused for want of rules

What the table of defaults and the extensions say of an edition decides whether it has rules. Files are put together
one after the other, so the first file whose edition has none is the one that is refused, unless something is wrong
with the declarations of a file before it (`outcome_iff_and_refused_iff`).
-/

namespace SchemaLayout.Schema

variable {config : Config}

/-! ## One file -/

/-- `addFile` refuses a file for want of rules iff `ofTable` does. -/
theorem addFile_eq_features_error_iff {schema : Schema} {decl : FileDecl} {name : String} {error : FeatureError} :
    addFile config schema decl = .error (.features name error) ↔
      decl.name = name ∧ FeatureRules.ofTable decl.level config.defaults config.extensions = .error error := by
  rw [addFile]
  cases FeatureRules.ofTable decl.level config.defaults config.extensions with
  | error found => simp
  | ok rules =>
    cases hadd : schema.addDeclarations rules decl with
    | error fault => simp [hadd, Except.mapError]
    | ok next => simp [hadd, Except.mapError]

/-! ## Several files -/

/-- `ofFiles` fails for want of rules iff one file has none and those before it make a schema. -/
theorem ofFiles_eq_features_error_iff {files : List FileDecl} {name : String} {error : FeatureError} :
    ofFiles config files = .error (.features name error) ↔ ∃ before decl after schema,
      files = before ++ decl :: after ∧ ofFiles config before = .ok schema ∧ decl.name = name ∧
        FeatureRules.ofTable decl.level config.defaults config.extensions = .error error := by
  simp only [ofFiles, foldlM_eq_error_iff, addFile_eq_features_error_iff]

/-- The files of a schema have rules. -/
theorem exists_rules_of_mem {files : List FileDecl} {schema : Schema} (h : ofFiles config files = .ok schema)
    {decl : FileDecl} (hdecl : decl ∈ files) :
    ∃ rules, FeatureRules.ofTable decl.level config.defaults config.extensions = .ok rules := by
  obtain ⟨index, hindex⟩ := List.mem_iff_getElem?.1 hdecl
  obtain ⟨rules, _, _, hrules, _⟩ := exists_addDeclarations_of_getElem? h hindex
  exact ⟨rules, hrules⟩

/-- Files with rules make a schema unless a `Fault` is in their declarations. -/
theorem exists_ofFiles_of_rules {files : List FileDecl}
    (hrules : ∀ decl ∈ files, ∃ rules, FeatureRules.ofTable decl.level config.defaults config.extensions = .ok rules)
    (hfault : ∀ fault, ofFiles config files ≠ .error (.fault fault)) : ∃ schema, ofFiles config files = .ok schema := by
  cases hfiles : ofFiles config files with
  | ok schema => exact ⟨schema, rfl⟩
  | error error =>
    cases error with
    | fault fault => exact absurd hfiles (hfault fault)
    | features name error =>
      obtain ⟨before, decl, after, _, rfl, _, _, herror⟩ := ofFiles_eq_features_error_iff.1 hfiles
      obtain ⟨rules, hdecl⟩ := hrules decl (List.mem_append_right _ List.mem_cons_self)
      cases hdecl.symm.trans herror

/-- With an ascending table of defaults, the rules of an edition come to what the table and the extensions say; and
files are refused for want of rules exactly if one of them has none while all before it do, and then for the first
one, if nothing is wrong with the declarations before. -/
theorem outcome_iff_and_refused_iff :
    (∀ table : DefaultsTable, table.IsAscending → ∀ edition extensions result,
      FeatureRules.ofTable edition table extensions = result ↔
        FeatureRules.Outcome edition table extensions result) ∧
      ∀ (config : Config) (files : List FileDecl) (name : String) (error : FeatureError),
        ofFiles config files = .error (.features name error) ↔ ∃ before decl after,
          files = before ++ decl :: after ∧ decl.name = name ∧
            FeatureRules.ofTable decl.level config.defaults config.extensions = .error error ∧
              (∀ earlier ∈ before, ∃ rules,
                FeatureRules.ofTable earlier.level config.defaults config.extensions = .ok rules) ∧
                ∀ fault, ofFiles config before ≠ .error (.fault fault) := by
  refine ⟨fun table h edition extensions result => FeatureRules.ofTable_eq_iff h, fun config files name error => ?_⟩
  rw [ofFiles_eq_features_error_iff]
  constructor
  · rintro ⟨before, decl, after, schema, hfiles, hbefore, hname, herror⟩
    refine ⟨before, decl, after, hfiles, hname, herror, fun earlier => exists_rules_of_mem hbefore, ?_⟩
    intro fault hfault
    cases hbefore.symm.trans hfault
  · rintro ⟨before, decl, after, hfiles, hname, herror, hrules, hfault⟩
    obtain ⟨schema, hbefore⟩ := exists_ofFiles_of_rules hrules hfault
    exact ⟨before, decl, after, schema, hfiles, hbefore, hname, herror⟩

/-! ## A draft whose edition has no rules yet -/

/-- A table for an edition that is being worked on: the second of its two rows leaves out how names suit JSON. -/
def draftTable : DefaultsTable where
  rows := [
    { edition := .proto3, fixed := DefaultsTable.proto3Features },
    { edition := .edition2023, fixed := DefaultsTable.proto3Features },
    { edition := .edition2023
      fixed := { DefaultsTable.proto3Features with fieldPresence := none, jsonFormat := none }
      overridable := { fieldPresence := some .explicit } }
  ]
  minimum := .proto3
  maximum := .edition2023

def draftConfig : Config where
  defaults := draftTable
  extensions := [{ name := "draft.tone", extendee := ".google.protobuf.FeatureSet" }]

def ledgerFile : FileDecl where
  name := "ledger.proto"
  syntaxName := some "proto3"

def draftFile : FileDecl where
  name := "draft.proto"
  syntaxName := some "editions"
  edition := some .edition2023

/-- A file of an edition that the table is not for. -/
def sketchFile : FileDecl where
  name := "sketch.proto"
  syntaxName := some "editions"
  edition := some .edition2024

theorem isAscending_draft : draftTable.IsAscending := by
  unfold DefaultsTable.IsAscending
  decide

/-- The rules of files of the edition before. -/
def ledgerRules : FeatureRules where
  edition := .proto3
  defaults := {
    fieldPresence := .implicit, enumOpenness := .openEnded, repeatedEncoding := .packed
    utf8Validation := .verify, messageEncoding := .lengthPrefixed, jsonFormat := .allow }
  extensions := draftConfig.extensions

theorem ofTable_ledger :
    FeatureRules.ofTable ledgerFile.level draftConfig.defaults draftConfig.extensions = .ok ledgerRules :=
  rfl

/-- Of the rows of an edition, the last one counts. -/
theorem isRowAt_draft : draftTable.IsRowAt .edition2023 draftTable.rows[2] :=
  ⟨by decide, draftTable.rows.take 2, [], rfl, List.forall_mem_nil _⟩

/-- `json_format` is the only feature that this row leaves out. -/
theorem outcome_draft : FeatureRules.Outcome .edition2023 draftTable draftConfig.extensions
    (.error (.incompleteDefaults .edition2023 "json_format")) := by
  have hextensions : ∀ extension ∈ draftConfig.extensions, extension.IsOfFeatures := by
    intro extension hextension
    cases List.mem_singleton.1 hextension
    exact ⟨1, rfl⟩
  have hmembers : NamedFeature.members =
      NamedFeature.members.take 5 ++ [("json_format", ⟨_, (·.jsonFormat), (·.jsonFormat)⟩)] := rfl
  refine .incomplete ⟨by decide, by decide⟩ isRowAt_draft hextensions hmembers ?_ rfl rfl
  simp [NamedFeature.members, NamedFeature.all, draftTable, DefaultsTable.proto3Features]

/-- The draft is refused, which comes after a file that has rules; the sketch behind it, which has none either, is not
looked at. -/
theorem refused_draft : draftTable.IsAscending ∧
    FeatureRules.ofTable .edition2023 draftTable draftConfig.extensions =
      .error (.incompleteDefaults .edition2023 "json_format") ∧
      ofFiles draftConfig [ledgerFile, draftFile, sketchFile] =
        .error (.features "draft.proto" (.incompleteDefaults .edition2023 "json_format")) := by
  obtain ⟨houtcome, hrefused⟩ := outcome_iff_and_refused_iff
  have herror := (houtcome draftTable isAscending_draft _ _ _).2 outcome_draft
  obtain ⟨schema, hledger⟩ := exists_ofFiles ledgerRules ofTable_ledger rfl (by cbv)
  refine ⟨isAscending_draft, herror, (hrefused _ _ _ _).2 ?_⟩
  refine ⟨[ledgerFile], draftFile, [sketchFile], rfl, rfl, herror, ?_, ?_⟩
  · exact fun earlier => exists_rules_of_mem hledger
  · intro fault hfault
    cases hledger.symm.trans hfault

end SchemaLayout.Schema
