import PackLint.Proofs.Document.Answers
import PackLint.Proofs.Schema.Reference
import PackLint.Proofs.Workspace.Ownership

/-!
# References in a workspace

A reference is looked up among the components that the documents of a workspace have registered,
whatever is registered. That they have declarations is no matter of the reference: it is kept by
everything that can be done with a workspace. That each id stands among them once is kept too, but
for a document that is loaded back with an id that another one has registered since.

Results:
* `Workspace.components_registry`: what is registered is what the merged report lists.
* `Workspace.resolve_after`: in every workspace a reference is right or wrong, never both, and the
  registered ids are proposed for it, each of them once iff each is registered once. What more is
  known after a history.
* `Workspace.proposed_twice_after`: a history after which an id is proposed twice.
-/

namespace PackLint.Workspace

variable {ws : Workspace} {kind : ComponentKind}

/-- The registry and the merged report hold the same components in the same order. -/
theorem components_registry (ws : Workspace) (kind : ComponentKind) :
    ws.registry.components kind = ws.mergedReport.components.of kind := by
  rw [components_mergedReport]
  unfold Registry.components registry declared
  simp only [flatMap_filterMap, Option.map_map, Function.comp_def]

section

variable (ref : Reference) (doc : Document) (s : Scalar) (ws : Workspace)

/-- The registered ids are proposed one by one for a scalar that refers to a component. -/
theorem proposes_report :
    Reference.Proposes (doc.site ws.settings ws.data ws.registry) s
      ((ws.mergedReport.components.of ref.kind).map (·.id))
      (ref.report (doc.site ws.settings ws.data ws.registry) s) := by
  rw [← components_registry]
  exact Reference.proposes_report

/-- Each of them is proposed once iff no two components have the same id. -/
theorem proposesOnce_iff :
    Reference.ProposesOnce (doc.site ws.settings ws.data ws.registry) s
        (ws.mergedReport.components.of ref.kind)
        (ref.report (doc.site ws.settings ws.data ws.registry) s) ↔
      ((ws.mergedReport.components.of ref.kind).map (·.id)).Nodup := by
  rw [← components_registry]
  exact Reference.proposesOnce_iff

/-- **In every workspace a scalar that refers to a component is linked to all of its declarations if
its id is registered, and is a problem if it is not; the registered ids are proposed for it one by
one**, so each of them is proposed once iff no two components have the same id. After a history a
component has a declaration to link to. No two components have the same id then, unless a document
was loaded back that has an id of another one. -/
theorem resolve_after :
    let site := doc.site ws.settings ws.data ws.registry
    let known := ws.mergedReport.components.of ref.kind
    ∃ r, ref.schema.resolve site (.scalar s) = .ok r ∧
      (∀ c, known.find? (·.id = s.string) = some c → ref.Reaches site s c r) ∧
      ((∀ c ∈ known, c.id ≠ s.string) → Reference.Misses site s r) ∧
      Reference.Proposes site s (known.map (·.id)) r ∧
      (Reference.ProposesOnce site s known r ↔ (known.map (·.id)).Nodup) ∧
      ∀ settings data history, ws = after { settings, data } history →
        (∀ c ∈ known, c.id = s.string → r.links ≠ []) ∧
        (ReturnsUnopposed { workspace := { settings, data } } history →
          Reference.ProposesOnce site s known r ∧
            ∀ c ∈ known, c.id = s.string → ref.Reaches site s c r) := by
  intro site known
  have hknown : site.registry.components ref.kind = known := components_registry ws ref.kind
  have hreaches : ∀ c, known.find? (·.id = s.string) = some c →
      ref.Reaches site s c (ref.report site s) :=
    fun c hc => Reference.reaches_report (hknown ▸ hc)
  refine ⟨ref.report site s, Reference.resolve_schema, hreaches, fun hnone => ?_,
    proposes_report ref doc s ws, proposesOnce_iff ref doc s ws,
    fun settings data history hws => ⟨fun c hc hid => ?_, fun hreturns => ?_⟩⟩
  · exact Reference.misses_report fun c hc => hnone c (hknown ▸ hc)
  · have hproper : ws.Proper := hws ▸ (proper_after settings data history).1
    have hfound : (known.find? (·.id = s.string)).isSome :=
      List.find?_isSome.mpr ⟨c, hc, by simpa using hid⟩
    obtain ⟨c', hfind⟩ := Option.isSome_iff_exists.mp hfound
    rw [(hreaches c' hfind).links]
    exact fun hnil =>
      (hproper.owned (List.mem_of_find?_eq_some hfind)).1 (List.map_eq_nil_iff.mp hnil)
  · have hsettled : ws.Settled := hws ▸ settled_after hreturns
    have hids : (known.map (·.id)).Nodup :=
      hsettled.toProper.registersOnce_iff.mpr hsettled ref.kind
    refine ⟨(proposesOnce_iff ref doc s ws).mpr hids, fun c hc hid => hreaches c ?_⟩
    rw [← hid]
    exact find?_of_nodup_map (f := (·.id)) hids hc

end

/-- The id that is registered twice is proposed twice for a reference to it. -/
theorem proposed_twice_after :
    let ws := after {} returning
    let doc := Document.skillFile "zap: \x7bOnCooldownSkill: heal\x7d"
    let s := Scalar.ofString "heal" 23 27
    let site := doc.site ws.settings ws.data ws.registry
    ∃ r, Reference.skill.schema.resolve site (.scalar s) = .ok r ∧
      Reference.Proposes site s ["heal", "heal"] r ∧
      ¬ Reference.ProposesOnce site s (ws.mergedReport.components.of .skills) r := by
  intro ws doc s site
  have hids : ((ws.mergedReport.components.of .skills).map (·.id)) = ["heal", "heal"] :=
    ids_returning
  -- nothing but the ids is known of the workspace from here on
  clear_value ws
  refine ⟨Reference.skill.report site s, Reference.resolve_schema, ?_, fun honce => ?_⟩
  · exact hids ▸ proposes_report .skill doc s ws
  · have hnodup := (proposesOnce_iff .skill doc s ws).mp honce
    change ((ws.mergedReport.components.of .skills).map (·.id)).Nodup at hnodup
    rw [hids] at hnodup
    exact absurd hnodup (by decide)

end PackLint.Workspace
