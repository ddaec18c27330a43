import SchemaLayout.Schema.Registration

/-!
# Additions

What a file adds to a schema: its elements in the order of their numbers, and the steps that enter their
names and check them. Fields and methods still refer to types by name; they are drafts until all names
of the file are known.
-/

namespace SchemaLayout

/-! ## Drafts -/

/-- A field whose references are still names. Its `node` refers to nothing but its own message. -/
structure FieldDraft where
  node : FieldNode
  typeName : Option String
  extendee : Option String
  deriving DecidableEq, Inhabited

/-- A method whose references are still names. -/
structure MethodDraft where
  name : String
  fullName : String
  service : ServiceId
  features : Features
  clientStreaming : Bool
  serverStreaming : Bool
  inputName : String
  outputName : String
  deriving DecidableEq, Inhabited

/-! ## Counts -/

/-- How many elements there are of each kind that stands in a file. -/
structure Counts where
  messages : Nat := 0
  fields : Nat := 0
  oneofs : Nat := 0
  enums : Nat := 0
  values : Nat := 0
  services : Nat := 0
  methods : Nat := 0
  deriving DecidableEq, Inhabited

instance : Add Counts where
  add a b := {
    messages := a.messages + b.messages
    fields := a.fields + b.fields
    oneofs := a.oneofs + b.oneofs
    enums := a.enums + b.enums
    values := a.values + b.values
    services := a.services + b.services
    methods := a.methods + b.methods
  }

/-- How many elements of each kind `schema` has. The next one of a kind gets this number. -/
def Schema.counts (schema : Schema) : Counts where
  messages := schema.messages.size
  fields := schema.fields.size
  oneofs := schema.oneofs.size
  enums := schema.enums.size
  values := schema.values.size
  services := schema.services.size
  methods := schema.methods.size

/-! ## Additions -/

/-- Elements to be added, and the `steps` that come with them. -/
structure Additions where
  messages : List MessageNode := []
  fields : List FieldDraft := []
  oneofs : List OneofNode := []
  enums : List EnumNode := []
  values : List EnumValueNode := []
  services : List ServiceNode := []
  methods : List MethodDraft := []
  steps : List Registration := []

namespace Additions

instance : Append Additions where
  append a b := {
    messages := a.messages ++ b.messages
    fields := a.fields ++ b.fields
    oneofs := a.oneofs ++ b.oneofs
    enums := a.enums ++ b.enums
    values := a.values ++ b.values
    services := a.services ++ b.services
    methods := a.methods ++ b.methods
    steps := a.steps ++ b.steps
  }

/-- How many elements of each kind are added. -/
def counts (additions : Additions) : Counts where
  messages := additions.messages.length
  fields := additions.fields.length
  oneofs := additions.oneofs.length
  enums := additions.enums.length
  values := additions.values.length
  services := additions.services.length
  methods := additions.methods.length

theorem counts_append (a b : Additions) : (a ++ b).counts = a.counts + b.counts := by
  change Counts.mk (a.messages ++ b.messages).length (a.fields ++ b.fields).length
    (a.oneofs ++ b.oneofs).length (a.enums ++ b.enums).length (a.values ++ b.values).length
    (a.services ++ b.services).length (a.methods ++ b.methods).length = _
  simp only [List.length_append]
  rfl

end Additions

end SchemaLayout
