import PackLint.Text.Position

/-!
# Components

A component is a mob, a skill or an item that a document declares by name and that other documents
may refer to. Its declarations hold a document's uri and ranges, so they outlive the document's
tree. A `ComponentTable` lists components by kind.

Model of `ComponentKind`, `ComponentDeclaration` and `MythicComponent`. The subclasses `MythicMob`,
`MythicSkill` and `MythicItem` differ in what stands before the id in a description, which is the
argument `label` of `Component.description`.
-/

namespace PackLint

/-- The kinds of components (`ComponentKind`). -/
inductive ComponentKind where
  | mobs
  | skills
  | items
deriving DecidableEq, Inhabited

namespace ComponentKind

/-- Every kind. -/
def all : List ComponentKind := [mobs, skills, items]

/-- The name of the kind. -/
def name : ComponentKind → String
  | mobs => "mobs"
  | skills => "skills"
  | items => "items"

/-- The name of one component of the kind (`singular`). -/
def singular : ComponentKind → String
  | mobs => "mob"
  | skills => "skill"
  | items => "item"

/-- The words that stand before the id of a component of the kind. -/
def label : ComponentKind → String
  | mobs => "Mythic Mob"
  | skills => "Mythic Skill"
  | items => "Mythic Item"

end ComponentKind

/-- Where a component is declared: the range of its key and, if known, of the whole pair
(`ComponentDeclaration`). -/
structure Declaration where
  uri : String
  keyRange : Range
  pairRange : Option Range := none
deriving DecidableEq

/-- A named component with its declarations (`MythicComponent`). -/
structure Component where
  id : String
  declarations : List Declaration := []
  documentation : Option String := none
deriving DecidableEq

namespace Component

/-- The label of a component that is of no particular kind. -/
def plainLabel : String := "Component"

/-- A heading with the id, and the documentation below it (`generated_description`). -/
def description (c : Component) (label : String) : String :=
  let heading := "# " ++ label ++ ": `" ++ c.id ++ "`"
  match c.documentation with
  | none => heading
  | some text => if text = "" then heading else heading ++ "\n\n" ++ text

/-- Whether one of the declarations stands in the document at `uri` (`declared_in`). -/
def declaredIn (c : Component) (uri : String) : Bool :=
  c.declarations.any (·.uri = uri)

end Component

/-- Components by kind, in the order of their registration. A table has no order of the kinds, and a
kind that is listed without components is one that is not listed: what is read off a report
(`components_of`) are the components of one kind, of which there are none if the kind is absent. -/
structure ComponentTable where
  mobs : List Component := []
  skills : List Component := []
  items : List Component := []
deriving DecidableEq

namespace ComponentTable

/-- The components of a kind. -/
def of (t : ComponentTable) : ComponentKind → List Component
  | .mobs => t.mobs
  | .skills => t.skills
  | .items => t.items

theorem ext_of {t t' : ComponentTable} (h : ∀ kind, t.of kind = t'.of kind) :
    t = t' := by
  cases t
  cases t'
  obtain rfl := h .mobs
  obtain rfl := h .skills
  obtain rfl := h .items
  rfl

/-- The table that holds `cs` under `kind` and nothing else. -/
def single (kind : ComponentKind) (cs : List Component) : ComponentTable :=
  match kind with
  | .mobs => { mobs := cs }
  | .skills => { skills := cs }
  | .items => { items := cs }

/-- The components of `s` behind those of `t`, kind by kind. -/
def append (t s : ComponentTable) : ComponentTable :=
  ⟨t.mobs ++ s.mobs, t.skills ++ s.skills, t.items ++ s.items⟩

@[simp] theorem of_append (t s : ComponentTable) (kind : ComponentKind) :
    (t.append s).of kind = t.of kind ++ s.of kind := by
  cases kind <;> rfl

theorem of_single (kind kind' : ComponentKind) (cs : List Component) :
    (single kind cs).of kind' = if kind' = kind then cs else [] := by
  cases kind <;> cases kind' <;> rfl

end ComponentTable

end PackLint
