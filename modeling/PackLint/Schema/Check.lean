import PackLint.Schema.Properties
import PackLint.Schema.Sweep

/-!
# Local checks

`Schema.check` compares a node with a schema and reports what can be said without other documents:
what is wrong, what the keys mean, and how accepted values are coloured. The checks that a schema
brings along come after those of its structure.

A check descends from a node to nodes inside of it, so the height of a node bounds the descent.

Model of `partial_process`: `checkStructure` is `_partial_process` of the variants, and the local
checks are the `partial_callbacks`.
-/

namespace PackLint

/-- The check of a node inside of the one that is looked at. -/
abbrev Visit := Schema → Node → Except Fault Report

namespace Schema

/-! ## Scalars -/

/-- The check of a truth value (`SchemaBool`). -/
def checkBool (s : Schema) (site : Site) (n : Node) : Report :=
  match n with
  | .scalar ⟨.bool _, _, _, _, _⟩ => site.highlight? n s.info.highlight
  | .scalar _ =>
    site.problem n .invalidType ("Expected a boolean, but got " ++ site.nodeText n ++ ".")
  | _ => s.wrongType site n

/-- The check of a number (`SchemaNumber`). -/
def checkNumber (s : Schema) (rule : NumberRule) (site : Site) (n : Node) :
    Except Fault Report := do
  match n with
  | .scalar ⟨.number x, _, _, _, _⟩ =>
    match ← rule.violation? (.ofNode site n) x with
    | some (code, message) => return site.problem n code message
    | none => return site.highlight? n s.info.highlight
  | _ => return s.wrongType site n

/-- The check of a string (`SchemaString`). -/
def checkString (s : Schema) (rule : StringRule) (site : Site) (n : Node) : Report :=
  match n with
  | .scalar scalar => rule.check s.info site scalar
  | _ => s.wrongType site n

/-! ## Lists -/

/-- The report on a list of the wrong length. -/
def checkLength (site : Site) (n : Node) (expected actual : Nat) : Report :=
  if actual = expected then .empty
  else
    let adjective := if expected < actual then "many" else "few"
    site.problem n .invalidListLength
      ("Too " ++ adjective ++ " items in list. Expected " ++ toString expected ++ ", but got " ++
        toString actual ++ ".")

/-- The reports on items that are the same as an earlier one; `earlier` are the values before the
items, the nearest first (`_check_duplicates`). -/
def repeated (site : Site) (earlier : List Value) : List Node → List Report
  | [] => []
  | n :: ns =>
    let value := n.toValue
    let isNull := match value with
      | .null => true
      | _ => false
    let report :=
      if !isNull && earlier.any (Value.same value) then
        site.problem n .duplicateListItem ("Duplicate item `" ++ site.nodeText n ++ "`.")
      else .empty
    report :: repeated site (value :: earlier) ns

/-- The report on repeated items. -/
def checkRepeated (site : Site) (items : List Node) : Except Fault Report :=
  if items.all (·.hasTextKeys) then .ok (.mergeAll (repeated site [] items))
  else .error .integerTooLong

/-- The check of the items of a list. -/
def checkItems (visit : Visit) (site : Site) (n : Node) (items : List Node) :
    ItemsOf Schema → Except Fault Report
  | .anything => .ok .empty
  | .each s => do return .mergeAll (← items.mapM (visit s))
  | .inOrder ss => do
    let reports ← (ss.zip items).mapM fun (s, item) => visit s item
    return checkLength site n ss.length items.length ++ .mergeAll reports

/-- The check of a list (`SchemaList`). -/
def checkList (visit : Visit) (s : Schema) (rule : ItemsOf Schema) (allowDuplicates : Bool)
    (site : Site) (n : Node) : Except Fault Report := do
  match n with
  | .seq items _ _ =>
    let report ← checkItems visit site n items rule
    if allowDuplicates then return report
    return report ++ (← checkRepeated site items)
  | _ => return s.wrongType site n

/-! ## Objects -/

/-- What is shown at the key of a property (`_hover`). -/
def hoverText (key : String) (p : Property) (s : Schema) (ctx : Context) : String :=
  let description := match p.description ctx with
    | none => ""
    | some text => if text = "" then "" else "\n\n" ++ text
  let aliases := (p.aliasList ctx).filter (· ≠ key)
  let aliasText :=
    if aliases.isEmpty then ""
    else "\n\nAliases: " ++ ", ".intercalate (aliases.map fun a => "`" ++ a ++ "`")
  "`" ++ key ++ "`: `" ++ s.typeName ctx ++ "`" ++ description ++ aliasText

/-- The pairs that hold a property, name by name (`_find_property_pairs`). -/
def propertyPairs (ctx : Context) (key : String) (p : Property) (pairs : List Pair) : List Pair :=
  (p.names key ctx).flatMap (findPairs pairs)

/-- The report on a property that is not there; one of a nested object is never missed. -/
def missingProperty (site : Site) (n : Node) (key : String) (p : Property) : Report :=
  if !key.toList.contains '.' && p.required (.ofNode site n) then
    site.problem n .missingProperty ("Missing required property `" ++ key ++ "`.")
  else .empty

/-- The check of a pair that holds a property. -/
def checkPair (visit : Visit) (site : Site) (key : String) (p : Property) (pair : Pair) :
    Except Fault Report := do
  match pair.value with
  | none => return site.problem pair.key .missingValue ("Expected a value for `" ++ key ++ "`.")
  | some value =>
    let ctx := Context.ofPair site pair
    let s := p.schema ctx
    let hover := { range := site.nodeRange pair.key, contents := hoverText key p s ctx }
    return .ofHover hover ++ (← visit s value)

/-- The check of a property in the pairs of a map. -/
def checkProperty (visit : Visit) (site : Site) (n : Node) (pairs : List Pair) (key : String)
    (p : Property) : Except Fault Report := do
  let found := propertyPairs (.ofNode site n) key p pairs
  if found.isEmpty then return missingProperty site n key p
  let repeated :=
    if 1 < found.length then
      found.map fun pair =>
        site.problem pair.key .duplicateProperty ("Duplicate property `" ++ key ++ "`.")
    else []
  return .mergeAll (repeated ++ (← found.mapM (checkPair visit site key p)))

/-- The hovers of the undotted keys of a map of objects, whose properties are shown instead of the
entries themselves. -/
def entryHovers (s : Schema) (site : Site) (n : Node) (pairs : List Pair) : Report :=
  match s with
  | map _ value describe =>
    let value := value (.ofNode site n)
    if value.isObject then
      .mergeAll ((pairs.filter fun p => !p.keyText.toList.contains '.').map fun p =>
        let entry : Property := { schema := fun _ => value, description := describe }
        let contents := hoverText p.keyText entry value (.ofPair site p)
        .ofHover { range := site.nodeRange p.key, contents })
    else .empty
  | _ => .empty

/-- The check of an object or a map (`SchemaObject`, `SchemaMap`). -/
def checkMap (visit : Visit) (s : Schema) (site : Site) (n : Node) : Except Fault Report := do
  match n with
  | .map pairs _ _ =>
    requireTextKeys pairs
    let ctx := Context.ofNode site n
    let properties := s.flatProperties ctx
    let reports ← properties.mapM fun (key, p) => checkProperty visit site n pairs key p
    let names := (propertyNames ctx properties).map String.toList
    let unexpected ← site.sweep names [] n
    return .mergeAll reports ++ unexpected ++ s.entryHovers site n pairs
  | _ => return s.wrongType site n

/-! ## Schemas -/

/-- The check of the structure of a node, by the variant of the schema (`_partial_process`). -/
def checkStructure (visit : Visit) (s : Schema) (site : Site) (n : Node) : Except Fault Report :=
  match s with
  | anything _ => .ok .empty
  | bool _ => .ok (s.checkBool site n)
  | number _ rule => s.checkNumber rule site n
  | string _ rule => .ok (s.checkString rule site n)
  | list _ items allowDuplicates =>
    let ctx := Context.ofNode site n
    checkList visit s (items ctx) (allowDuplicates ctx) site n
  | skillList _ _ => checkList visit s (.each anyString) true site n
  | object _ _ | map _ _ _ => checkMap visit s site n

/-- The check of a node of which no more than `levels` levels are looked at. -/
def checkWithin (site : Site) : Nat → Visit
  | 0, _, _ => .ok .empty
  | levels + 1, s, n => do
    let report ← checkStructure (checkWithin site levels) s site n
    return report ++ (← runChecks (s.info.localChecks (.ofNode site n)) site n)

/-- The local check of a node (`partial_process`). -/
def check (s : Schema) (site : Site) (n : Node) : Except Fault Report :=
  checkWithin site (n.height + 1) s n

end Schema

end PackLint
