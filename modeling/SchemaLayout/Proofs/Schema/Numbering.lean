import SchemaLayout.Schema.Numbering

/-!
# What numbering builds

The additions of a file are made of pieces: heads of messages, enums, services and extensions, each of
which is given its numbers from where the piece before it ended (`Built`). What holds of every piece, and
of two additions together if of each, holds of the additions of a file (`built_file`); so only what is about
the nesting of messages needs to go through it again.
-/

namespace SchemaLayout

/-! ## Counts -/

theorem Counts.add_assoc (a b c : Counts) : a + b + c = a + (b + c) := by
  show Counts.mk _ _ _ _ _ _ _ = Counts.mk _ _ _ _ _ _ _
  congr 1 <;> exact Nat.add_assoc _ _ _

namespace Numbering

variable {context : Context} {start : Counts}

theorem counts_head (container : Option MessageId) (fullName : String) (features : Features)
    (nestedTypes : List MessageId) (enums : List EnumId) (extensions : List FieldId)
    (decl : MessageDecl) :
    (head context start container fullName features nestedTypes enums extensions decl).counts =
      headCounts decl := by
  simp only [Additions.counts, head, headCounts, fields, oneofs, List.length_map,
    List.length_zipIdx, List.length_singleton, List.length_nil]

/-! ## Pieces -/

/-- The additions are pieces with consecutive numbers from `start` on. -/
inductive Built (context : Context) : (start : Counts) → Additions → Prop
  | nothing (start : Counts) : Built context start {}
  | head (start : Counts) (container : Option MessageId) (fullName : String) (features : Features)
    (nestedTypes : List MessageId) (enums : List EnumId) (extensions : List FieldId)
    (decl : MessageDecl) :
    Built context start
      (head context start container fullName features nestedTypes enums extensions decl)
  | enum (start : Counts) (container : Option MessageId) (scope : String) (inherited : Features)
    (decl : EnumDecl) : Built context start (enum context start container scope inherited decl)
  | service (start : Counts) (scope : String) (inherited : Features) (decl : ServiceDecl) :
    Built context start (service context start scope inherited decl)
  | extensions (start : Counts) (declaredIn : Option MessageId) (scope : String)
    (inherited : Features) (decls : List FieldDecl) :
    Built context start (extensions context declaredIn scope inherited decls)
  | append {start : Counts} {first second : Additions} : Built context start first →
    Built context (start + first.counts) second → Built context start (first ++ second)

/-- Enums are `Built` one by one. -/
theorem built_enums (start : Counts) (container : Option MessageId) (scope : String)
    (inherited : Features) (decls : List EnumDecl) :
    Built context start (enums context start container scope inherited decls) := by
  induction decls generalizing start with
  | nil => exact .nothing start
  | cons decl rest ih => exact .append (.enum start container scope inherited decl) (ih _)

theorem built_services (start : Counts) (scope : String) (inherited : Features)
    (decls : List ServiceDecl) :
    Built context start (services context start scope inherited decls) := by
  induction decls generalizing start with
  | nil => exact .nothing start
  | cons decl rest ih => exact .append (.service start scope inherited decl) (ih _)

/-! ## Messages and files -/

/-- `message` in terms of its `head` and of what is in it. -/
theorem message_eq (start : Counts) (container : Option MessageId) (scope : String) (inherited : Features)
    (decl : MessageDecl) : message context start container scope inherited decl =
      let fullName := Name.qualify scope decl.name
      let features := context.rules.resolve (decl.options.bind (·.features)) inherited
      let own : Option MessageId := some ⟨start.messages⟩
      let inside := start + headCounts decl
      let nested := messages context inside own fullName features decl.nestedType
      let afterNested := inside + nested.2.counts
      head context start container fullName features nested.1
          ((List.range' afterNested.enums decl.enumType.length).map .mk)
          (fieldIds afterNested.fields decl.extension.length) decl
        ++ nested.2
        ++ enums context afterNested own fullName features decl.enumType
        ++ extensions context own fullName features decl.extension := by
  cases decl
  rw [message]

mutual

/-- A message is `Built` of heads, enums and extensions. -/
theorem built_message (start : Counts) (container : Option MessageId) (scope : String)
    (inherited : Features) (decl : MessageDecl) :
    Built context start (message context start container scope inherited decl) := by
  match decl with
  | ⟨name, field, extension, nestedType, enumType, extensionRange, oneofDecl, options,
      reservedRange, reservedName⟩ =>
    rw [message]
    -- The head first, then nested messages, enums and extensions, as `message` appends them.
    refine .append (.append (.append (.head start container _ _ _ _ _ _) ?_) ?_)
      (.extensions _ _ _ _ _)
    · rw [counts_head]
      exact built_messages _ _ _ _ nestedType
    · rw [Additions.counts_append, counts_head, ← Counts.add_assoc]
      exact built_enums _ _ _ _ enumType

/-- `built_message` for lists. -/
theorem built_messages (start : Counts) (container : Option MessageId) (scope : String)
    (inherited : Features) (decls : List MessageDecl) :
    Built context start (messages context start container scope inherited decls).2 := by
  match decls with
  | [] => exact .nothing start
  | decl :: rest =>
    rw [messages]
    exact .append (built_message start container scope inherited decl)
      (built_messages _ container scope inherited rest)

end

/-- The additions of a file are `Built`. -/
theorem built_file (context : Context) (start : Counts) (decl : FileDecl) :
    Built context start (file context start decl).2 := by
  refine .append (.append (.append (built_messages start none _ _ decl.messageType) ?_) ?_)
    (.extensions _ _ _ _ _)
  · exact built_enums _ _ _ _ decl.enumType
  · rw [Additions.counts_append, ← Counts.add_assoc]
    exact built_services _ _ _ decl.service

end Numbering

end SchemaLayout
