import SchemaLayout.Config
import SchemaLayout.Schema.Linking
import SchemaLayout.Schema.Numbering

/-!
# Assembly

How files are put together to a schema, one after the other, each after the files it imports. A file
either is added as a whole or leaves the schema as it was.
-/

namespace SchemaLayout.Schema

/-- Enters the name of a file and all names in it, taking its `steps`. -/
def register (schema : Schema) (name : String) (steps : List Registration) :
    Except Fault Directory :=
  if (schema.directory.file? name).isSome then .error (.registeredTwice name)
  else Registration.takeAll steps (schema.directory.insertFile name ⟨schema.files.size⟩)

/-- The schema with more elements, of which fields and methods are linked. -/
def extend (schema : Schema) (directory : Directory) (file : FileNode) (additions : Additions)
    (fields : List FieldNode) (methods : List MethodNode) : Schema where
  files := schema.files.push file
  messages := schema.messages ++ additions.messages
  fields := schema.fields ++ fields
  oneofs := schema.oneofs ++ additions.oneofs
  enums := schema.enums ++ additions.enums
  values := schema.values ++ additions.values
  services := schema.services ++ additions.services
  methods := schema.methods ++ methods
  directory := directory

/-- Adds the declarations of a file, whose features follow `rules`. -/
def addDeclarations (schema : Schema) (rules : FeatureRules) (decl : FileDecl) :
    Except Fault Schema := do
  let (file, additions) := Numbering.file ⟨rules, ⟨schema.files.size⟩⟩ schema.counts decl
  let directory ← schema.register decl.name additions.steps
  let context : Linking.Context := { directory, messages := schema.messages ++ additions.messages }
  let dependencies ← Linking.dependencies directory decl
  let fields ← additions.fields.mapM (Linking.field context)
  let methods ← additions.methods.mapM (Linking.method context)
  return schema.extend directory { file with dependencies } additions fields methods

/-- Adds a file, once `FeatureRules.ofTable` gives the rules for its features. -/
def addFile (config : Config) (schema : Schema) (decl : FileDecl) : Except SchemaError Schema :=
  match FeatureRules.ofTable decl.level config.defaults config.extensions with
  | .error error => .error (.features decl.name error)
  | .ok rules => (schema.addDeclarations rules decl).mapError .fault

/-- The schema of `files`, each of which comes after those it imports. -/
def ofFiles (config : Config) (files : List FileDecl) : Except SchemaError Schema :=
  files.foldlM (addFile config) empty

/-! ## Builders -/

/-- A step of a builder, which holds the schema of the files that were added so far. With a `SchemaError` the
builder goes on; a `Fault` leaves no builder. -/
abbrev Building := ExceptT SchemaError (StateT Schema (Except Fault))

/-- Enters the names of a file and adds its elements. Its fields are not linked, and its methods still missing. -/
def allocate (rules : FeatureRules) (decl : FileDecl) : StateT Schema (Except Fault) Additions := do
  let schema ← get
  let (file, additions) := Numbering.file ⟨rules, ⟨schema.files.size⟩⟩ schema.counts decl
  let directory ← schema.register decl.name additions.steps
  set (schema.extend directory file additions (additions.fields.map (·.node)) [])
  return additions

/-- Looks up what a file refers to by names, where `mark` counts the elements that were there before it. -/
def link (mark : Counts) (decl : FileDecl) (file : FileId) (additions : Additions) :
    StateT Schema (Except Fault) Unit := do
  let schema ← get
  let context : Linking.Context := { directory := schema.directory, messages := schema.messages }
  let dependencies ← Linking.dependencies schema.directory decl
  modify fun schema => { schema with files := schema.files.modify file.index ({ · with dependencies }) }
  let fields ← (additions.fields.mapM (Linking.field context) : Except Fault (List FieldNode))
  modify fun schema => { schema with fields := schema.fields.extract 0 mark.fields ++ fields }
  let methods ← (additions.methods.mapM (Linking.method context) : Except Fault (List MethodNode))
  modify fun schema => { schema with methods := schema.methods ++ methods }

/-- Adds a file whose features follow `rules`: first `allocate`, then `link`. -/
def add (rules : FeatureRules) (decl : FileDecl) : StateT Schema (Except Fault) FileId := do
  let before ← get
  let additions ← allocate rules decl
  link before.counts decl ⟨before.files.size⟩ additions
  return ⟨before.files.size⟩

/-- Adds a file to what a builder holds, once `FeatureRules.ofTable` gives the rules for its features. The
answer is the number of the file. -/
def build (config : Config) (decl : FileDecl) : Building FileId :=
  match FeatureRules.ofTable decl.level config.defaults config.extensions with
  | .error error => throw (.features decl.name error)
  | .ok rules => ExceptT.lift (add rules decl)

end SchemaLayout.Schema
