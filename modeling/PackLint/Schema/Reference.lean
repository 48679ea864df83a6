import PackLint.Schema.StringRule

/-!
# References

A scalar may refer to a component that some document declares. `Reference.check` looks the
component up among all that are registered: an unknown id is reported like any other option that
is missed, a known one is linked to each of its declarations and described. The registered
components are proposed as completions either way.
-/

namespace PackLint

/-- A way of referring to components: their kind, the name of the reference, and how references
look and are proposed. -/
structure Reference where
  kind : ComponentKind
  name : String
  color : TextClass
  proposal : CompletionKind

namespace Reference

/-- A reference to a skill. -/
def skill : Reference := ⟨.skills, "mythic_skill_id", .function, .function⟩

/-- A reference to a mob. -/
def mob : Reference := ⟨.mobs, "mythic_mob_id", .typeName, .typeName⟩

/-- A reference to an item. -/
def item : Reference := ⟨.items, "mythic_item_id", .typeName, .typeName⟩

variable (ref : Reference)

/-- How a component is described. -/
def describe (c : Component) : String :=
  c.description ref.kind.label

/-- The rule that accepts the ids of components. -/
def rule (components : List Component) : StringRule where
  matcher _ := some (.options (components.map fun c =>
    ⟨c.id, some { label := c.id, kind := ref.proposal, documentation := some (ref.describe c) }⟩))
  caseSensitive _ := true

/-- How the rule shows itself. -/
def info : SchemaInfo where
  name _ := some ref.name
  highlight := some ref.color

/-- The links and the hover of a scalar that refers to a component. -/
def target (site : Site) (s : Scalar) (c : Component) : Report :=
  let range := site.nodeRange (.scalar s)
  { links := c.declarations.map fun d =>
      { fromUri := site.uri, fromRange := range, toUri := d.uri, toSelectionRange := d.keyRange,
        toRange := d.pairRange }
    hovers := [{ range, contents := ref.describe c }] }

/-- The report on a scalar that refers to a component. -/
def report (site : Site) (s : Scalar) : Report :=
  let components := site.registry.components ref.kind
  let rule := ref.rule components
  let found := (components.find? (·.id = s.string)).map (ref.target site s)
  rule.check ref.info site s ++ rule.complete site s ++ found.getD .empty

/-- The check of a node that refers to a component; only a scalar can. -/
def check : Check := fun site n =>
  .ok ((n.scalar?.map (ref.report site)).getD .empty)

end Reference

end PackLint
