import PackLint.Schema.Context
import PackLint.Text.Case
import PackLint.Text.Pattern

/-!
# Rules for strings

A `StringRule` may ask that a string contains a pattern, is a given text, or is one of several
options. An option that is missed by a few letters is suggested, and all options are proposed as
completions. Model of `StringMatcher` and of the fields of `SchemaString`.
-/

namespace PackLint

/-- An accepted text, and how it is proposed if not plainly (`StringMatcher`). -/
structure StringOption where
  text : String
  item : Option CompletionItem := none

/-- How an option is proposed (`to_completion_item`). -/
def StringOption.proposal (o : StringOption) : CompletionItem :=
  o.item.getD { label := o.text, kind := .value }

/-- What a string is compared with. -/
inductive StringMatcher where
  | pattern (p : Pattern)
  | literal (text : String)
  | options (os : List StringOption)

/-- What is asked of a string (`SchemaString`). -/
structure StringRule where
  matcher : Context → Option StringMatcher := fun _ => none
  caseSensitive : Context → Bool := fun _ => false

namespace StringRule

/-- The number of options that a description lists. -/
def shownOptions : Nat := 5

variable (rule : StringRule) (info : SchemaInfo) (ctx : Context)

/-- The rule as text (`internal_name`). -/
def description : String :=
  match rule.matcher ctx with
  | none => "string"
  | some (.pattern p) => "string(/" ++ p.text ++ "/)"
  | some (.literal text) => "string(\"" ++ text ++ "\")"
  | some (.options os) =>
    let shown := " | ".intercalate ((os.take shownOptions).map (·.text))
    "string(" ++ shown ++ (if shownOptions < os.length then " | ..." else "") ++ ")"

/-- Whether two texts are the same, if need be up to case (`_equals`). -/
def sameText (caseSensitive : Bool) (a b : String) : Bool :=
  if caseSensitive then a = b else lowerText a = lowerText b

/-- The options by their lower-case text: each stands where its last occurrence comes, counted from
the end, and means its first (`by_lower`). -/
def byLowerCase (options : List String) : List (String × String) :=
  Entries.ofList (options.reverse.map fun o => (lowerText o, o))

/-- The option that is suggested for a text that is none of them. -/
def suggestion? (site : Site) (caseSensitive : Bool) (options : List String) (text : String) :
    Option String :=
  if caseSensitive then site.suggestion? text options
  else
    let entries := byLowerCase options
    (site.suggestion? (lowerText text) (entries.map (·.1))).bind fun key => entries.lookup key

/-- What is said of a text that the rule does not accept (`_mismatch`). -/
def mismatch? (text : String) : Option String :=
  match rule.matcher ctx with
  | none => none
  | some (.pattern p) =>
    if p.search text.toList then none
    else some ("Expected a string matching /" ++ p.text ++ "/, but got `" ++ text ++ "`.")
  | some (.literal expected) =>
    if sameText (rule.caseSensitive ctx) expected text then none
    else some ("Expected `" ++ expected ++ "`, but got `" ++ text ++ "`.")
  | some (.options os) =>
    let caseSensitive := rule.caseSensitive ctx
    let options := os.map (·.text)
    if options.any fun o => sameText caseSensitive o text then none
    else
      let shown := info.display ctx (rule.description ctx)
      let suggestion := suggestion? ctx.site caseSensitive options text
      some ("Expected `" ++ shown ++ "`, but got `" ++ text ++ "`." ++ suggestionText suggestion)

/-- Whether the rule accepts a text (`matches`). -/
def accepts (text : String) : Bool :=
  (rule.mismatch? info ctx text).isNone

/-- The report on a scalar: what is wrong with it, or its highlight. -/
def check (site : Site) (s : Scalar) : Report :=
  let n := Node.scalar s
  match rule.mismatch? info (.ofNode site n) s.string with
  | some message => site.problem n .invalidValue message
  | none => site.highlight? n info.highlight

/-- The options proposed for a scalar. -/
def complete (site : Site) (s : Scalar) : Report :=
  let n := Node.scalar s
  match rule.matcher (.ofNode site n) with
  | some (.options os) =>
    .ofCompletion { range := site.nodeRange n, items := os.map (·.proposal) }
  | _ => .empty

end StringRule

end PackLint
