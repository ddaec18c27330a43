import SchemaLayout.Proofs.Schema.Inheritance
import SchemaLayout.Proofs.Schema.Lookup

/-!
# Imports

When the imports of a file are looked up, the names of the files before it are known, and its own name is, too. So
what a file imports is an earlier file or the file itself, and following imports leads back to a file exactly if the
file imports itself (`imports_earlier_iff`).
-/

namespace SchemaLayout.Schema

variable {config : Config} {files : List FileDecl} {schema : Schema}

/-- `imported` is among the `dependencies` of the file. -/
def Imports (schema : Schema) (importer imported : FileId) : Prop :=
  imported ∈ (schema.file importer).dependencies

/-! ## Imports of a file -/

/-- `addDeclarations` looks imports up among the files before, apart from the name of the file itself. -/
theorem exists_file_of_addDeclarations {next : Schema} {rules : FeatureRules} {decl : FileDecl}
    (h : schema.addDeclarations rules decl = .ok next) :
    ∃ file, next.files[schema.files.size]? = some file ∧ ∀ imported, imported ∈ file.dependencies ↔
      ∃ name ∈ decl.dependency,
        (if decl.name = name then some ⟨schema.files.size⟩ else schema.findFile? name) = some imported := by
  obtain ⟨directory, dependencies, fields, methods, hregister, hdependencies, _, _, rfl⟩ :=
    addDeclarations_eq_ok_iff.1 h
  refine ⟨_, Array.getElem?_push_size, fun imported => ?_⟩
  rw [Linking.dependencies] at hdependencies
  simp only [mem_iff_of_mapM hdependencies, elim_throw_eq_ok_iff, file?_of_register hregister]
  rfl

section

variable (h : ofFiles config files = .ok schema)

include h

/-- `Imports` in terms of `findFile?` in the schema of the files before. -/
theorem exists_before_imports_iff {id : FileId} {decl : FileDecl} (hdecl : files[id.index]? = some decl) :
    ∃ before, ofFiles config (files.take id.index) = .ok before ∧ before.files.size = id.index ∧
      ∀ imported, schema.Imports id imported ↔
        ∃ name ∈ decl.dependency, (if decl.name = name then some id else before.findFile? name) = some imported := by
  obtain ⟨rules, before, next, _, hbefore, hsize, hadd, hpart, _⟩ := exists_addDeclarations_of_getElem? h hdecl
  obtain ⟨file, hfile, hdependencies⟩ := exists_file_of_addDeclarations hadd
  rw [hsize] at hfile hdependencies
  refine ⟨before, hbefore, hsize, fun imported => ?_⟩
  rw [Imports, file_of_getElem? (hpart.files hfile)]
  exact hdependencies imported

/-- What a file imports is an earlier file, or the file itself by its own name. -/
theorem mem_or_lt_of_imports {id imported : FileId} {decl : FileDecl} (hdecl : files[id.index]? = some decl)
    (himports : schema.Imports id imported) :
    decl.name ∈ decl.dependency ∧ imported = id ∨ imported.index < id.index := by
  obtain ⟨before, hbefore, hsize, himports_iff⟩ := exists_before_imports_iff h hdecl
  obtain ⟨name, hname, hfound⟩ := (himports_iff imported).1 himports
  by_cases hself : decl.name = name
  · rw [if_pos hself] at hfound
    exact Or.inl ⟨hself ▸ hname, (Option.some.inj hfound).symm⟩
  · rw [if_neg hself] at hfound
    obtain ⟨file, hfile, _⟩ := (isIndexed_ofFiles hbefore).findFile?_eq_some_iff.1 hfound
    exact Or.inr (hsize ▸ (Array.getElem?_eq_some_iff.1 hfile).1)

theorem lt_or_eq_of_imports {importer imported : FileId} (himports : schema.Imports importer imported) :
    imported.index < importer.index ∨ imported = importer := by
  by_cases hindex : importer.index < files.length
  · rcases mem_or_lt_of_imports h (List.getElem?_eq_getElem hindex) himports with ⟨_, hself⟩ | hlt
    · exact Or.inr hself
    · exact Or.inl hlt
  · -- There is no such file, and what stands for it imports nothing.
    rw [← size_files_ofFiles h] at hindex
    rw [Imports, Schema.file, Array.getElem?_eq_none (Nat.le_of_not_lt hindex)] at himports
    exact absurd himports List.not_mem_nil

/-- A file imports itself iff its name is among `decl.dependency`. -/
theorem imports_self_iff {id : FileId} {decl : FileDecl} (hdecl : files[id.index]? = some decl) :
    schema.Imports id id ↔ decl.name ∈ decl.dependency := by
  constructor
  · intro himports
    exact ((mem_or_lt_of_imports h hdecl himports).resolve_right (Nat.lt_irrefl _)).1
  · intro hname
    obtain ⟨_, _, _, himports_iff⟩ := exists_before_imports_iff h hdecl
    exact (himports_iff id).2 ⟨decl.name, hname, if_pos rfl⟩

/-! ## Following imports -/

/-- Following `Imports` leads to an earlier file, or stays at a file that imports itself. -/
theorem lt_or_eq_of_transGen {start last : FileId} (hpath : Relation.TransGen schema.Imports start last) :
    last.index < start.index ∨ last = start ∧ schema.Imports start start := by
  induction hpath with
  | single himports =>
    rcases lt_or_eq_of_imports h himports with hlt | rfl
    · exact Or.inl hlt
    · exact Or.inr ⟨rfl, himports⟩
  | tail _ himports ih =>
    rcases lt_or_eq_of_imports h himports with hlt | rfl
    · rcases ih with hbefore | ⟨rfl, _⟩
      · exact Or.inl (Nat.lt_trans hlt hbefore)
      · exact Or.inl hlt
    · exact ih

theorem transGen_self_iff {id : FileId} : Relation.TransGen schema.Imports id id ↔ schema.Imports id id :=
  ⟨fun hpath => ((lt_or_eq_of_transGen h hpath).resolve_left (Nat.lt_irrefl _)).2, .single⟩

/-- All imports of a file are of earlier files, and following them does not lead back, iff
`decl.name ∉ decl.dependency`. -/
theorem imports_earlier_iff :
    (∀ importer imported, schema.Imports importer imported → imported.index < importer.index ∨ imported = importer) ∧
      ∀ (id : FileId) (decl : FileDecl), files[id.index]? = some decl →
        ((∀ imported, schema.Imports id imported → imported.index < id.index) ↔ decl.name ∉ decl.dependency) ∧
          (¬ Relation.TransGen schema.Imports id id ↔ decl.name ∉ decl.dependency) := by
  refine ⟨fun _ _ => lt_or_eq_of_imports h, fun id decl hdecl => ⟨?_, ?_⟩⟩
  · rw [← imports_self_iff h hdecl]
    constructor
    · exact fun hearlier hself => Nat.lt_irrefl _ (hearlier id hself)
    · intro hnot imported himports
      refine (lt_or_eq_of_imports h himports).resolve_right ?_
      rintro rfl
      exact hnot himports
  · rw [transGen_self_iff h, imports_self_iff h hdecl]

end

/-! ## A diary that imports itself -/

def calendarFile : FileDecl where
  name := "calendar.proto"

/-- The diary imports the calendar, which comes before it, and itself. -/
def diaryFile : FileDecl where
  name := "diary.proto"
  dependency := ["calendar.proto", "diary.proto"]

theorem exists_ofFiles_diary : ∃ schema, ofFiles {} [calendarFile, diaryFile] = .ok schema := by
  obtain ⟨before, hbefore⟩ := exists_ofFiles_proto2 calendarFile rfl rfl (by cbv)
  exact exists_ofFiles_pair (ofTable_proto2 rfl) hbefore proto2Rules rfl (by decide) (by decide) (by cbv)

/-- `diaryFile` makes a schema, though an import of it leads to no earlier file. -/
theorem not_imports_earlier_diary : ¬ ∀ (config : Config) (files : List FileDecl) (schema : Schema),
    ofFiles config files = .ok schema →
      (∀ importer imported, schema.Imports importer imported → imported.index < importer.index) ∧
        ∀ id, ¬ Relation.TransGen schema.Imports id id := by
  intro hall
  obtain ⟨schema, hschema⟩ := exists_ofFiles_diary
  have hself : schema.Imports ⟨1⟩ ⟨1⟩ := (imports_self_iff hschema rfl).2 (by decide)
  exact Nat.lt_irrefl 1 ((hall _ _ _ hschema).1 ⟨1⟩ ⟨1⟩ hself)

/-- Following imports leads back to `diaryFile`, and not to `calendarFile`. -/
theorem imports_earlier_iff_diary : ∃ schema, ofFiles {} [calendarFile, diaryFile] = .ok schema ∧
    (∀ importer imported, schema.Imports importer imported → imported.index < importer.index ∨ imported = importer) ∧
      ¬ Relation.TransGen schema.Imports ⟨0⟩ ⟨0⟩ ∧ Relation.TransGen schema.Imports ⟨1⟩ ⟨1⟩ := by
  obtain ⟨schema, hschema⟩ := exists_ofFiles_diary
  obtain ⟨hearlier, hself⟩ := imports_earlier_iff hschema
  refine ⟨schema, hschema, hearlier, ?_, ?_⟩
  · exact (hself ⟨0⟩ calendarFile rfl).2.2 (by decide)
  · exact not_not.1 fun hnot => (hself ⟨1⟩ diaryFile rfl).2.1 hnot (by decide)

end SchemaLayout.Schema
