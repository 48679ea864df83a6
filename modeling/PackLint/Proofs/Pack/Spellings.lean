import PackLint.Document
import PackLint.Proofs.Pack.Plain
import PackLint.Proofs.Schema.Referring

/-!
# Spellings of entries

The properties of an entry may stand below its id or behind it in dotted keys, and nested properties
likewise. The structure of a file and its references are looked at alike in all spellings. Not so
the checks that look around by themselves: the registration of ids (`component`) and the types of
mobs (`check_mob_types`) look at the pairs of the file, and the options of display entities
(`_display_options`) and potion effects (`check_potion_material`) at the map around them.

Results:
* `Pack.codes_eq_iff_verdict`: the codes of two spellings are the same if and only if these checks
  have the same codes.
* `Pack.codes_potion_effects`: potion effects may be a problem in one spelling only.
-/

namespace PackLint

namespace Pack

open Schema

/-- What the entries of a file say, leaf by leaf, but for the property that looks around. -/
def content (kind : FileKind) (site : Site) (n : Node) : List Occurrence :=
  kind.schema.keptIn (lookingAround kind) site n

/-- What is found in a file by the checks that look around: the registration of its ids, the types
of mobs, and the property that looks at the map around it. -/
def verdict (kind : FileKind) (site : Site) (n : Node) : Codes :=
  codes (findings (registration kind.declares kind.idColor site n)) +
    ((otherChecks kind).map fun (c : Check) => codes (findings (c site n))).sum +
    kind.schema.asideCodes (lookingAround kind) (fun t m => t.check site m) site n

theorem verdictCodes_eq (kind : FileKind) (site : Site) (n : Node) :
    kind.schema.verdictCodes (lookingAround kind) site n = verdict kind site n := by
  unfold verdictCodes verdict
  rw [localChecks_file, findings_runChecks, List.map_cons, List.sum_cons, map_add, map_list_sum,
    List.map_map, add_comm]
  rfl

/-- A file maps ids to objects, nothing about which depends on where they stand but their
properties. -/
theorem schema_eq_entries (kind : FileKind) : ∃ info inner describe,
    kind.schema = .map info (fun _ => .object inner fun _ => entryProperties kind) describe ∧
      inner.Uniform True := by
  cases kind <;> exact ⟨_, _, _, rfl, uniform_nothing (steady_const _) rfl rfl⟩

theorem refersToNothing_anyString : All RefersToNothing .anyString :=
  .intro ⟨fun _ => rfl, trivial⟩ fun _ h => h.elim

theorem refersToNothing_displayOptions : All RefersToNothing (.object {} displayOptions) := by
  refine .intro ⟨fun _ => rfl, trivial⟩ ?_
  rintro t ⟨ctx, e, he, ctx', rfl⟩
  rcases displayOptions_eq ctx with hnone | ⟨key, description, -, hone⟩
  · rw [hnone] at he
    cases he
  · rw [hone] at he
    cases List.mem_singleton.mp he
    exact refersToNothing_anyString

theorem refersToNothing_potionEffects : All RefersToNothing potionEffects := by
  refine .intro ⟨fun _ => rfl, trivial⟩ ?_
  rintro t ⟨ctx, ht⟩
  cases List.mem_singleton.mp ht
  exact refersToNothing_anyString

/-- The properties that look around refer to nothing. -/
theorem refersToNothing_lookingAround (kind : FileKind) : ∀ e ∈ entryProperties kind,
    some e.1 = lookingAround kind → ∀ ctx, All RefersToNothing (e.2.schema ctx) := by
  cases kind <;>
    simp [entryProperties, mobProperties, mobPropertiesWith, itemProperties, itemPropertiesWith,
      lookingAround, refersToNothing_displayOptions, refersToNothing_potionEffects]

variable {site site' : Site} {pairs pairs' : List Pair} {start stop start' stop' : Nat}

/-- **The codes of two spellings of a file are the same if and only if the checks that look around
have the same codes**; those of the references are the same. -/
theorem codes_eq_iff_verdict (kind : FileKind) (hsite : site.Alike site')
    (hsame : SameLeaves site.source site'.source (content kind site (.map pairs start stop))
      (content kind site' (.map pairs' start' stop'))) {r r' : Report}
    (hr : kind.schema.check site (.map pairs start stop) = .ok r)
    (hr' : kind.schema.check site' (.map pairs' start' stop') = .ok r') :
    (r.codes = r'.codes ↔ verdict kind site (.map pairs start stop) =
        verdict kind site' (.map pairs' start' stop')) ∧
      ∀ s s', kind.schema.resolve site (.map pairs start stop) = .ok s →
        kind.schema.resolve site' (.map pairs' start' stop') = .ok s' → s.codes = s'.codes := by
  obtain ⟨info, inner, describe, hschema, hinner⟩ := schema_eq_entries kind
  have hentry := uniformBut_entry kind hinner
  have hcheck := codes_check_eq_iff hentry hschema hsite hsame hr hr'
  rw [verdictCodes_eq, verdictCodes_eq] at hcheck
  refine ⟨hcheck, fun s s' hs hs' => ?_⟩
  exact codes_resolve_eq hentry (refersToNothing_lookingAround kind) hschema
    (referenceChecks_file kind) hsite hsame hs hs'

/-! ## Potion effects -/

/-- The place of an item file, where the material of sticks is known. -/
def stickSite (text : String) (tree : Node) : Site where
  settings := {}
  data := { materials := ["stick"] }
  registry := []
  uri := "file:///items.yml"
  source := .ofString text
  tree := some tree

/-- The material of a stick under a key. -/
def stickPair (key : String) (start : Nat) : Pair :=
  ⟨.scalar (.ofString key start (start + key.length)),
    some (.scalar (.ofString "stick" (start + key.length + 2) (start + key.length + 7))), none⟩

/-- No potion effects under a key. -/
def effectsPair (key : String) (start : Nat) : Pair :=
  ⟨.scalar (.ofString key start (start + key.length)),
    some (.seq [] (start + key.length + 2) (start + key.length + 4)), none⟩

/-- An item with the two properties below its id. -/
def textBelow : String := "a:\n  Id: stick\n  PotionEffects: []"

/-- The item with the two properties behind its id. -/
def textBehind : String := "a.Id: stick\na.PotionEffects: []"

/-- The tree of the item with the properties below its id. -/
def treeBelow : Node :=
  .map [⟨.scalar (.ofString "a" 0 1),
    some (.map [stickPair "Id" 5, effectsPair "PotionEffects" 17] 5 34), none⟩] 0 34

/-- The tree of the item with the properties behind its id. -/
def treeBehind : Node := .map [stickPair "a.Id" 0, effectsPair "a.PotionEffects" 12] 0 31

theorem content_below : content .item (stickSite textBelow treeBelow) treeBelow =
    [⟨"a.Id", stickPair "Id" 5⟩] := rfl

theorem content_behind : content .item (stickSite textBehind treeBehind) treeBehind =
    [⟨"a.Id", stickPair "a.Id" 0⟩] := rfl

/-- Both items say that they are sticks. -/
theorem same_content_stick :
    SameLeaves (stickSite textBelow treeBelow).source (stickSite textBehind treeBehind).source
      (content .item (stickSite textBelow treeBelow) treeBelow)
      (content .item (stickSite textBehind treeBehind) treeBehind) := by
  rw [content_below, content_behind]
  refine ⟨_, .refl _, .cons ⟨rfl, rfl, .some (.scalar ?_)⟩ .nil⟩
  exact ⟨rfl, rfl, fun _ => ⟨rfl, fun _ => rfl, fun _ => by decide⟩⟩

theorem exists_of_codes {x : Except Fault Report} {found : List DiagnosticCode}
    (h : (x.toOption.map fun r => r.diagnostics.map (·.code)) = some found) :
    ∃ r, x = .ok r ∧ r.codes = found := by
  cases x with
  | error fault => cases h
  | ok r =>
    cases h
    exact ⟨r, rfl, rfl⟩

/-- The potion effects of a stick are a problem below its id only, so the checks that look around
find different things in the two spellings. -/
theorem verdict_stick : ∃ r r' : Report,
    (stickSite textBelow treeBelow).Alike (stickSite textBehind treeBehind) ∧
      SameLeaves (stickSite textBelow treeBelow).source (stickSite textBehind treeBehind).source
        (content .item (stickSite textBelow treeBelow) treeBelow)
        (content .item (stickSite textBehind treeBehind) treeBehind) ∧
      FileKind.item.schema.check (stickSite textBelow treeBelow) treeBelow = .ok r ∧
      FileKind.item.schema.check (stickSite textBehind treeBehind) treeBehind = .ok r' ∧
      verdict .item (stickSite textBelow treeBelow) treeBelow ≠
        verdict .item (stickSite textBehind treeBehind) treeBehind := by
  have hsite : (stickSite textBelow treeBelow).Alike (stickSite textBehind treeBehind) :=
    ⟨rfl, rfl, rfl, rfl⟩
  have hbelow : ((FileKind.item.schema.check (stickSite textBelow treeBelow)
      treeBelow).toOption.map fun r => r.diagnostics.map (·.code)) =
        some [.invalidPotionEffects] := by
    decide +kernel
  have hbehind : ((FileKind.item.schema.check (stickSite textBehind treeBehind)
      treeBehind).toOption.map fun r => r.diagnostics.map (·.code)) = some [] := by
    decide +kernel
  obtain ⟨r, hr, hcodes⟩ := exists_of_codes hbelow
  obtain ⟨r', hr', hcodes'⟩ := exists_of_codes hbehind
  refine ⟨r, r', hsite, same_content_stick, hr, hr', fun hverdict => ?_⟩
  have hsame := (codes_eq_iff_verdict .item hsite same_content_stick hr hr').1.mpr hverdict
  rw [hcodes, hcodes'] at hsame
  cases Multiset.coe_eq_coe.mp hsame |>.length_eq

/-- The codes of the report on an item file, where the material of sticks is known. -/
def itemCodes (text : String) : Option (List DiagnosticCode) :=
  let file : Document :=
    { uri := "file:///items.yml", source := .ofString text, binding := some (.kind .item) }
  (file.examine {} { materials := ["stick"] } [] .alone).2.toOption.map fun r =>
    r.diagnostics.map (·.code)

/-- The potion effects of a stick are a problem if they stand below its id, but not behind it. -/
theorem codes_potion_effects : itemCodes textBelow = some [.invalidPotionEffects] ∧
    itemCodes textBehind = some [] := by
  decide +kernel

end Pack

end PackLint
