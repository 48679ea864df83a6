import PackLint.Component

/-!
# Reports

A `Report` is what looking at a document yields: diagnostics, hovers, links, highlights,
completions and the components that the document declares. `Report.merge` puts one report behind
another; only the highlights go in front, so that the latest highlight of a range comes first.

Model of `ValidationResult` and of what it lists: `Diagnostic`, `Hover`, `RangeLink`, `Highlight`
and `RangedCompletionItems`.

Results:
* `Report.merge_assoc`, `Report.empty_merge`, `Report.merge_empty`: reports form a monoid.
* `Report.mergeAll_cons`, `Report.mergeAll_append`: a list of reports is merged piece by piece.
-/

namespace PackLint

/-! ## Diagnostics -/

/-- How bad a problem is (`DiagnosticSeverity`). -/
inductive Severity where
  | error
  | warning
  | information
  | hint
deriving DecidableEq, Inhabited

/-- The number editors know a severity by. -/
def Severity.number : Severity → Nat
  | error => 1
  | warning => 2
  | information => 3
  | hint => 4

/-- The kinds of problems. -/
inductive DiagnosticCode where
  | syntaxError
  | safetyError
  | invalidType
  | invalidValue
  | numberOutOfRange
  | numberNotInteger
  | invalidListLength
  | duplicateListItem
  | missingProperty
  | duplicateProperty
  | missingValue
  | unexpectedProperty
  | invalidComponentId
  | duplicateComponentId
  | invalidPotionEffects
  | vanillaOverrideType
  | invalidDisplayOptions
  | cooldownNotTickAligned
  | mismatchedBraces
  | invalidBlockSyntax
  | missingEquals
  | duplicateKey
  | tooManyTargeters
  | triggersNotAllowed
  | tooManyTriggers
  | unknownComponent
  | tooManyChances
  | invalidChance
  | custom (name : String)
deriving DecidableEq, Inhabited

/-- The stable name of a kind of problem. -/
def DiagnosticCode.name : DiagnosticCode → String
  | syntaxError => "yaml-syntax-error"
  | safetyError => "yaml-safety-error"
  | invalidType => "yaml-invalid-type"
  | invalidValue => "yaml-invalid-value"
  | numberOutOfRange => "yaml-number-out-of-range"
  | numberNotInteger => "yaml-number-not-integer"
  | invalidListLength => "yaml-invalid-list-length"
  | duplicateListItem => "yaml-duplicate-list-item"
  | missingProperty => "yaml-missing-property"
  | duplicateProperty => "yaml-duplicate-property"
  | missingValue => "yaml-missing-value"
  | unexpectedProperty => "yaml-unexpected-property"
  | invalidComponentId => "mythic-invalid-component-id"
  | duplicateComponentId => "mythic-duplicate-component-id"
  | invalidPotionEffects => "mythic-item-invalid-potion-effects"
  | vanillaOverrideType => "mythic-mob-vanilla-override-type"
  | invalidDisplayOptions => "mythic-mob-invalid-display-options"
  | cooldownNotTickAligned => "mythic-cooldown-not-tick-aligned"
  | mismatchedBraces => "lineconfig-mismatched-braces"
  | invalidBlockSyntax => "lineconfig-invalid-block-syntax"
  | missingEquals => "lineconfig-missing-equals"
  | duplicateKey => "lineconfig-duplicate-key"
  | tooManyTargeters => "mythic-skill-too-many-targeters"
  | triggersNotAllowed => "mythic-skill-triggers-not-allowed"
  | tooManyTriggers => "mythic-skill-too-many-triggers"
  | unknownComponent => "mythic-skill-unknown-component"
  | tooManyChances => "mythic-skill-too-many-chances"
  | invalidChance => "mythic-skill-invalid-chance"
  | custom name => name

/-- A problem found in a document. -/
structure Diagnostic where
  range : Range
  message : String
  code : DiagnosticCode
  severity : Severity := .error
deriving DecidableEq

/-! ## Hovers, links and highlights -/

/-- The text shown while the cursor rests on a range. -/
structure Hover where
  range : Range
  contents : String
deriving DecidableEq

/-- A link from a range of one document to a range of another (`RangeLink`). -/
structure Link where
  fromUri : String
  fromRange : Range
  toUri : String
  toSelectionRange : Range
  toRange : Option Range := none
deriving DecidableEq

/-- The classes of text that are coloured alike (`SemanticTokenType`). -/
inductive TextClass where
  | typeName
  | enumMember
  | event
  | function
  | keyword
  | number
  | operator
  | property
  | string
deriving DecidableEq, Inhabited

namespace TextClass

/-- Every class. -/
def all : List TextClass :=
  [typeName, enumMember, event, function, keyword, number, operator, property, string]

/-- The name editors know a class by. -/
def name : TextClass → String
  | typeName => "class"
  | enumMember => "enumMember"
  | event => "event"
  | function => "function"
  | keyword => "keyword"
  | number => "number"
  | operator => "operator"
  | property => "property"
  | string => "string"

end TextClass

/-- What may be said of highlighted text besides its class (`SemanticTokenModifier`). -/
inductive TextModifier where
  | declaration
  | deprecated
  | readonly
  | static
deriving DecidableEq, Inhabited

namespace TextModifier

/-- Every modifier. -/
def all : List TextModifier := [declaration, deprecated, readonly, static]

/-- The name editors know a modifier by. -/
def name : TextModifier → String
  | declaration => "declaration"
  | deprecated => "deprecated"
  | readonly => "readonly"
  | static => "static"

end TextModifier

/-- A range of text and how it is coloured. -/
structure Highlight where
  range : Range
  color : TextClass
  modifiers : List TextModifier := []
deriving DecidableEq

namespace Highlight

/-- The place of the colour in a legend of colours (`color_index`). -/
def colorIndex? (h : Highlight) (legend : List TextClass) : Option Nat :=
  legend.findIdx? (· = h.color)

/-- The modifiers as a set of bits, each at the place of the modifier in a legend
(`modifier_bit_flag`). -/
def modifierBits (h : Highlight) (legend : List TextModifier) : Nat :=
  h.modifiers.foldl (fun bits m =>
    match legend.findIdx? (· = m) with
    | some i => bits ||| (1 <<< i)
    | none => bits) 0

end Highlight

/-! ## Completions -/

/-- The kinds of completion items (`CompletionItemKind`). -/
inductive CompletionKind where
  | text
  | function
  | field
  | typeName
  | property
  | value
  | enumMember
  | event
deriving DecidableEq, Inhabited

namespace CompletionKind

/-- Every kind. -/
def all : List CompletionKind :=
  [text, function, field, typeName, property, value, enumMember, event]

/-- The number editors know a kind by. -/
def number : CompletionKind → Nat
  | text => 1
  | function => 3
  | field => 5
  | typeName => 7
  | property => 10
  | value => 12
  | enumMember => 20
  | event => 23

end CompletionKind

/-- One proposal. -/
structure CompletionItem where
  label : String
  kind : CompletionKind := .text
  detail : Option String := none
  documentation : Option String := none
deriving DecidableEq

/-- Proposals for a range, possibly only where `condition` holds of the cursor
(`RangedCompletionItems`). -/
structure Completion where
  range : Range
  items : List CompletionItem
  condition : Option (Position → Bool) := none

/-- Whether the proposals are made at `p` (`applies_at`). -/
def Completion.appliesAt (c : Completion) (p : Position) : Bool :=
  c.range.contains p && (c.condition.map (· p)).getD true

/-! ## Reports -/

/-- Everything that looking at a document yields (`ValidationResult`). -/
structure Report where
  diagnostics : List Diagnostic := []
  hovers : List Hover := []
  links : List Link := []
  highlights : List Highlight := []
  completions : List Completion := []
  components : ComponentTable := {}

namespace Report

/-- The report that says nothing. -/
def empty : Report := {}

instance : Inhabited Report := ⟨empty⟩

/-- The report `s` behind the report `r`, its highlights in front (`merge`, `merged`). -/
def merge (r s : Report) : Report where
  diagnostics := r.diagnostics ++ s.diagnostics
  hovers := r.hovers ++ s.hovers
  links := r.links ++ s.links
  highlights := s.highlights ++ r.highlights
  completions := r.completions ++ s.completions
  components := r.components.append s.components

instance : Append Report := ⟨merge⟩

/-- The reports merged in order. -/
def mergeAll (rs : List Report) : Report :=
  rs.foldl merge empty

/-- A report of one diagnostic. -/
def ofDiagnostic (d : Diagnostic) : Report := { diagnostics := [d] }

/-- A report of one hover. -/
def ofHover (h : Hover) : Report := { hovers := [h] }

/-- A report of one highlight. -/
def ofHighlight (h : Highlight) : Report := { highlights := [h] }

/-- A report of one set of proposals. -/
def ofCompletion (c : Completion) : Report := { completions := [c] }

/-- Whether no diagnostic is an error. -/
def valid (r : Report) : Bool :=
  !r.diagnostics.any (·.severity = .error)

theorem append_eq_merge (r s : Report) : r ++ s = r.merge s := rfl

@[simp] theorem empty_merge (r : Report) : empty.merge r = r := by
  simp [merge, empty, ComponentTable.append]

@[simp] theorem merge_empty (r : Report) : r.merge empty = r := by
  simp [merge, empty, ComponentTable.append]

theorem merge_assoc (r s t : Report) : (r.merge s).merge t = r.merge (s.merge t) := by
  simp [merge, ComponentTable.append, List.append_assoc]

theorem foldl_merge (r : Report) (rs : List Report) : rs.foldl merge r = r.merge (mergeAll rs) := by
  induction rs generalizing r with
  | nil => simp [mergeAll]
  | cons s rs ih =>
    have h : mergeAll (s :: rs) = rs.foldl merge s := by simp [mergeAll]
    rw [h, List.foldl_cons, ih (r.merge s), ih s, merge_assoc]

@[simp] theorem mergeAll_nil : mergeAll [] = empty := rfl

@[simp] theorem mergeAll_cons (r : Report) (rs : List Report) :
    mergeAll (r :: rs) = r.merge (mergeAll rs) := by
  simpa [mergeAll] using foldl_merge r rs

theorem mergeAll_append (rs ss : List Report) :
    mergeAll (rs ++ ss) = (mergeAll rs).merge (mergeAll ss) := by
  induction rs with
  | nil => simp
  | cons r rs ih => simp [ih, merge_assoc]

end Report

end PackLint
