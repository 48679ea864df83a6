import PackLint.Schema.NumberRule
import PackLint.Schema.StringRule

/-!
# Schemas

A `Schema` says what a node of a document may be. The properties of an object, the values of a map
and the items of a list may depend on the context they are looked at in, and so may most other
fields.

An object has a fixed set of properties, a map any keys with values of one schema. A skill list is
a list of strings that are skill lines.

Model of `Schema` and its subclasses `SchemaBool`, `SchemaNumber`, `SchemaString`, `SchemaList`,
`MythicSkillList`, `SchemaObject` and `SchemaMap`, which are the variants of one type here. A field
that is a value or a function there (`ValueOrFn`) is a function of the context.
-/

namespace PackLint

/-- A property of an object, whose schema is an `α` (`SchemaObjectProperty`). -/
structure PropertyOf (α : Type) where
  schema : Context → α
  required : Context → Bool := fun _ => false
  description : Context → Option String := fun _ => none
  aliases : Context → Option (List String) := fun _ => none

/-- What the items of a list may be: anything, all alike, or one by one. -/
inductive ItemsOf (α : Type) where
  | anything
  | each (schema : α)
  | inOrder (schemas : List α)

/-- What a node may be. -/
inductive Schema where
  | anything (info : SchemaInfo)
  | bool (info : SchemaInfo)
  | number (info : SchemaInfo) (rule : NumberRule)
  | string (info : SchemaInfo) (rule : StringRule)
  | list (info : SchemaInfo) (items : Context → ItemsOf Schema) (allowDuplicates : Context → Bool)
  | skillList (info : SchemaInfo) (supportsTriggers : Bool)
  | object (info : SchemaInfo) (properties : Context → List (String × PropertyOf Schema))
  | map (info : SchemaInfo) (value : Context → Schema)
      (description : Context → Option String)

/-- A property of an object. -/
abbrev Property := PropertyOf Schema

namespace Schema

instance : Inhabited Schema := ⟨anything {}⟩

/-! ## Parts -/

/-- What the schema has besides its rule. -/
def info : Schema → SchemaInfo
  | anything info | bool info | number info _ | string info _ | list info _ _ | skillList info _
  | object info _ | map info _ _ => info

/-- The schema with other information. -/
def withInfo (s : Schema) (f : SchemaInfo → SchemaInfo) : Schema :=
  match s with
  | anything info => anything (f info)
  | bool info => bool (f info)
  | number info rule => number (f info) rule
  | string info rule => string (f info) rule
  | list info items duplicates => list (f info) items duplicates
  | skillList info triggers => skillList (f info) triggers
  | object info properties => object (f info) properties
  | map info value description => map (f info) value description

/-- The schema under a name (`with_name`). -/
def named (s : Schema) (name : Context → Option String) : Schema :=
  s.withInfo fun info => { info with name }

/-- The schema with a colour for the values it accepts (`with_highlight`). -/
def highlighted (s : Schema) (color : Option TextClass) : Schema :=
  s.withInfo fun info => { info with highlight := color }

/-- The schema with more local checks. -/
def withLocalChecks (s : Schema) (checks : List Check) : Schema :=
  s.withInfo fun info => { info with localChecks := fun ctx => info.localChecks ctx ++ checks }

/-- The schema with more checks of references. -/
def withReferenceChecks (s : Schema) (checks : List Check) : Schema :=
  s.withInfo fun info =>
    { info with referenceChecks := fun ctx => info.referenceChecks ctx ++ checks }

/-- A string of any kind. -/
def anyString : Schema := string {} {}

/-- A list whose items are alike. -/
def listOf (s : Schema) (allowDuplicates : Bool := true) : Schema :=
  list {} (fun _ => .each s) (fun _ => allowDuplicates)

/-- A map with any values. -/
def anyMap : Schema := map {} (fun _ => anything {}) (fun _ => none)

/-- Whether the schema is an object. -/
def isObject : Schema → Bool
  | object _ _ => true
  | _ => false

/-- The name of the variant; a skill list is a list (`SchemaKind`). -/
def kindName : Schema → String
  | anything _ => "any"
  | bool _ => "bool"
  | number _ _ => "number"
  | string _ _ => "string"
  | list _ _ _ | skillList _ _ => "list"
  | object _ _ => "object"
  | map _ _ _ => "map"

/-! ## Descriptions -/

mutual

/-- The name of a schema, or its description (`type_name`). -/
def typeName (ctx : Context) : Schema → String
  | anything info => info.display ctx "any"
  | bool info => info.display ctx "bool"
  | number info rule => info.display ctx (rule.description ctx)
  | string info rule => info.display ctx (rule.description ctx)
  | list info items _ => info.display ctx (itemsDescription ctx (items ctx))
  | skillList info _ => info.display ctx "list(skill)"
  | object info properties =>
    let inner := ", ".intercalate (propertyDescriptions ctx (properties ctx))
    info.display ctx ("\x7b " ++ inner ++ " \x7d")
  | map info value _ => info.display ctx ("map(" ++ typeName ctx (value ctx) ++ ")")

/-- The items of a list as text. -/
def itemsDescription (ctx : Context) : ItemsOf Schema → String
  | .anything => "list"
  | .each s => "list(" ++ typeName ctx s ++ ")"
  | .inOrder ss => "[" ++ ", ".intercalate (typeNames ctx ss) ++ "]"

/-- The names of schemas. -/
def typeNames (ctx : Context) : List Schema → List String
  | [] => []
  | s :: ss => typeName ctx s :: typeNames ctx ss

/-- The properties of an object as texts. -/
def propertyDescriptions (ctx : Context) : List (String × PropertyOf Schema) → List String
  | [] => []
  | (key, property) :: ps =>
    (key ++ ": " ++ propertyTypeName ctx property) :: propertyDescriptions ctx ps

/-- The name of the schema of a property. -/
def propertyTypeName (ctx : Context) : PropertyOf Schema → String
  | ⟨schema, _, _, _⟩ => typeName ctx (schema ctx)

end

/-- The schema as text, whether or not it has a name (`internal_name`). -/
def description (s : Schema) (ctx : Context) : String :=
  (s.named fun _ => none).typeName ctx

/-- What is said of a node of the wrong kind (`expected_type_message`). -/
def wrongType (s : Schema) (site : Site) (n : Node) : Report :=
  site.problem n .invalidType ("Expected `" ++ s.typeName (.ofNode site n) ++ "`.")

end Schema

end PackLint
