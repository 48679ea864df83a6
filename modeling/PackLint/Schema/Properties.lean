import PackLint.Schema.Basic
import PackLint.Tree.KeyPath

/-!
# Properties

The properties of an object are its own; those of a map are the keys that a document has.
`Schema.flatProperties` puts the properties of nested objects in place of the objects, under dotted
keys, because a document may write them that way. A nested object without properties stays.

A property is found under its key and under its aliases; one from a nested object has an alias for
every way of choosing a name of each object on the way and of the property itself.

Model of `resolve_properties`, `submapped` and `_names` of `SchemaObject` and `SchemaMap`.
-/

namespace PackLint

namespace PropertyOf

variable {α : Type} (p : PropertyOf α) (key : String) (ctx : Context)

/-- The aliases, of which there may be none. -/
def aliasList : List String := (p.aliases ctx).getD []

/-- The names of the property: its key and its aliases (`_names`). -/
def names : List String := (key :: p.aliasList ctx).eraseDups

/-- The property as one of the nested object under `key`, whose names are `outer`. -/
def below (outer : List String) : PropertyOf α :=
  let inner := p.aliasList ctx ++ [key]
  let aliases := (outer.flatMap fun o => inner.map fun i => o ++ "." ++ i).eraseDups
  { p with aliases := fun _ => some aliases }

end PropertyOf

/-! ## Flattening -/

/-- The properties with their own nested properties, if they are objects that have some. -/
abbrev NestedProperties := List (String × Property × List (String × Property))

namespace NestedProperties

/-- The properties that have no nested ones. -/
def flat (ps : NestedProperties) : List (String × Property) :=
  ps.filterMap fun (key, p, children) => if children.isEmpty then some (key, p) else none

/-- The nested properties under dotted keys. -/
def dotted (ctx : Context) (ps : NestedProperties) : List (String × Property) :=
  ps.flatMap fun (key, p, children) =>
    let outer := key :: p.aliasList ctx
    children.map fun (subkey, child) => (key ++ "." ++ subkey, child.below subkey ctx outer)

/-- The properties without nested ones, and behind them the nested ones. -/
def flatten (ctx : Context) (ps : NestedProperties) : List (String × Property) :=
  Entries.insertAll ps.flat (ps.dotted ctx)

end NestedProperties

namespace Schema

mutual

/-- The flat properties of an object; nothing else has any below it. -/
def nestedProperties (ctx : Context) : Schema → List (String × Property)
  | object _ properties => NestedProperties.flatten ctx (withNested ctx (properties ctx))
  | _ => []

/-- Properties with their nested properties. -/
def withNested (ctx : Context) : List (String × PropertyOf Schema) → NestedProperties
  | [] => []
  | (key, p) :: ps => (key, p, propertyNested ctx p) :: withNested ctx ps

/-- The nested properties of a property. -/
def propertyNested (ctx : Context) : PropertyOf Schema → List (String × Property)
  | ⟨schema, _, _, _⟩ => nestedProperties ctx (schema ctx)

end

/-! ## Properties -/

/-- The key of the entry of a map that a key stands for: up to the first dot where the values are
objects, which are addressed by dotted keys. -/
def entryKey (value : Schema) (key : String) : String :=
  if value.isObject then String.ofList (cutOnce '.' key.toList) else key

/-- The entries of a map, each described by the first pair that has its key. -/
def entryProperties (value : Schema) (describe : Context → Option String) (site : Site)
    (pairs : List Pair) : List (String × Property) :=
  pairs.foldl (fun entries p =>
    let key := entryKey value p.keyText
    if entries.any (·.1 = key) then entries
    else
      let description := describe (.ofPair site p)
      entries ++ [(key, { schema := fun _ => value, description := fun _ => description })]) []

/-- The properties of an object, or of a map in the context of a node (`resolve_properties`). -/
def properties (ctx : Context) : Schema → List (String × Property)
  | object _ properties => properties ctx
  | map _ value describe =>
    match ctx.node.bind Node.pairs? with
    | some pairs => entryProperties (value ctx) describe ctx.site pairs
    | none => []
  | _ => []

/-- The properties with those of nested objects under dotted keys (`submapped`). -/
def flatProperties (s : Schema) (ctx : Context) : List (String × Property) :=
  NestedProperties.flatten ctx (withNested ctx (s.properties ctx))

/-- The names of properties. -/
def propertyNames (ctx : Context) (ps : List (String × Property)) : List String :=
  ps.flatMap fun (key, p) => p.names key ctx

end Schema

end PackLint
