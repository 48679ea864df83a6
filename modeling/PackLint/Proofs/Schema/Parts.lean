import PackLint.Proofs.Tree.Height
import PackLint.Schema.Check

/-!
# The schemas inside of a schema

A schema holds others: the schemas of its items, of its properties and of its values. `Schema.All P`
says that `P` holds of a schema and of everything inside of it, whatever the context in which the
inner schemas are asked for. A node that a check descends to is looked at with an inner schema, so
what holds of all of them holds along the whole descent.

Results:
* `Schema.all_of_mem_flatProperties`: the properties of nested objects, which flattening puts in
  place of the objects, have schemas from inside.
* `Schema.height_value_of_mem_propertyPairs`: the values of properties are less high than the map.
-/

namespace PackLint

/-- The schemas of items. -/
def ItemsOf.schemas {α : Type} : ItemsOf α → List α
  | .anything => []
  | .each s => [s]
  | .inOrder ss => ss

namespace Schema

/-! ## Parts -/

/-- `t` stands directly in `s`. The items of a skill list are strings. -/
def Part (s t : Schema) : Prop :=
  match s with
  | list _ items _ => ∃ ctx, t ∈ (items ctx).schemas
  | skillList _ _ => t = anyString
  | object _ properties => ∃ ctx, ∃ e ∈ properties ctx, ∃ ctx', t = e.2.schema ctx'
  | map _ value _ => ∃ ctx, t = value ctx
  | _ => False

/-- `P` holds of a schema and of all schemas inside of it. -/
inductive All (P : Schema → Prop) : Schema → Prop
  | intro {s : Schema} (self : P s) (parts : ∀ t, Part s t → All P t) : All P s

variable {P : Schema → Prop} {s t : Schema}

theorem All.self (h : All P s) : P s := by
  cases h with
  | intro self _ => exact self

theorem All.part (h : All P s) (ht : Part s t) : All P t := by
  cases h with
  | intro _ parts => exact parts t ht

/-- All schemas inside of `s`, though perhaps not `s` itself, satisfy `P`. -/
def AllParts (P : Schema → Prop) (s : Schema) : Prop := ∀ t, Part s t → All P t

theorem All.allParts (h : All P s) : AllParts P s := fun _ => h.part

theorem All.imp {Q : Schema → Prop} (hPQ : ∀ s, P s → Q s) (h : All P s) : All Q s := by
  induction h with
  | intro self _ ih => exact .intro (hPQ _ self) ih

/-! ## Flattened properties -/

theorem mem_withNested {ctx : Context} {ps : List (String × Property)} {key : String} {p : Property}
    {children : List (String × Property)} (h : (key, p, children) ∈ withNested ctx ps) :
    (key, p) ∈ ps ∧ children = nestedProperties ctx (p.schema ctx) := by
  induction ps with
  | nil => simp [withNested] at h
  | cons e ps ih =>
    obtain ⟨key', p'⟩ := e
    simp only [withNested, List.mem_cons, Prod.mk.injEq] at h
    rcases h with ⟨rfl, rfl, rfl⟩ | h
    · exact ⟨List.mem_cons_self, by cases p; rfl⟩
    · exact ⟨List.mem_cons_of_mem _ (ih h).1, (ih h).2⟩

/-- A flattened property is one of the object's own or comes from a property that is an object; the
latter keeps all but its aliases. -/
theorem mem_flatten_withNested {ctx : Context} {ps : List (String × Property)}
    {e : String × Property} (h : e ∈ NestedProperties.flatten ctx (withNested ctx ps)) :
    e ∈ ps ∨ ∃ key p, (key, p) ∈ ps ∧ ∃ c ∈ nestedProperties ctx (p.schema ctx),
      e = (key ++ "." ++ c.1, c.2.below c.1 ctx (key :: p.aliasList ctx)) := by
  rcases Entries.mem_insertAll h with h | h
  · obtain ⟨⟨key, p, children⟩, hm, he⟩ := List.mem_filterMap.mp h
    simp only at he
    split at he
    · cases he
      exact Or.inl (mem_withNested hm).1
    · cases he
  · obtain ⟨⟨key, p, children⟩, hm, he⟩ := List.mem_flatMap.mp h
    obtain ⟨c, hc, rfl⟩ := List.mem_map.mp he
    obtain ⟨hp, rfl⟩ := mem_withNested hm
    exact Or.inr ⟨key, p, hp, c, hc, rfl⟩

theorem all_of_mem_nestedProperties {ctx : Context} (h : All P s) {e : String × Property}
    (he : e ∈ nestedProperties ctx s) (ctx' : Context) : All P (e.2.schema ctx') := by
  induction h generalizing e with
  | @intro s self parts ih =>
    cases s with
    | object info properties =>
      simp only [nestedProperties] at he
      rcases mem_flatten_withNested he with he | ⟨key, p, hp, c, hc, rfl⟩
      · exact parts _ ⟨ctx, e, he, ctx', rfl⟩
      · have hall := ih (p.schema ctx) ⟨ctx, (key, p), hp, ctx, rfl⟩ hc
        exact hall
    | _ => simp [nestedProperties] at he

/-- Every entry of a map is there for one of its pairs. -/
theorem exists_of_mem_entryProperties {value : Schema} {describe : Context → Option String}
    {site : Site} {pairs : List Pair} :
    ∀ e ∈ entryProperties value describe site pairs, ∃ p ∈ pairs,
      e = (entryKey value p.keyText,
        { schema := fun _ => value, description := fun _ => describe (.ofPair site p) }) := by
  unfold entryProperties
  refine List.foldlRecOn
    (motive := fun (es : List (String × Property)) => ∀ e ∈ es, ∃ p ∈ pairs,
      e = (entryKey value p.keyText,
        { schema := fun _ => value, description := fun _ => describe (.ofPair site p) }))
    pairs _ ?_ ?_
  · simp
  · intro entries ih p hp e he
    simp only at he
    split at he
    · exact ih e he
    · rcases List.mem_append.mp he with he | he
      · exact ih e he
      · exact ⟨p, hp, List.mem_singleton.mp he⟩

/-- Every entry of a map has the schema of its values. -/
theorem schema_of_mem_entryProperties {value : Schema} {describe : Context → Option String}
    {site : Site} {pairs : List Pair} (ctx : Context) :
    ∀ e ∈ entryProperties value describe site pairs, e.2.schema ctx = value := by
  intro e he
  obtain ⟨p, -, rfl⟩ := exists_of_mem_entryProperties e he
  rfl

theorem part_of_mem_properties {ctx : Context} {e : String × Property}
    (he : e ∈ s.properties ctx) (ctx' : Context) : Part s (e.2.schema ctx') := by
  cases s with
  | object info properties => exact ⟨ctx, e, he, ctx', rfl⟩
  | map info value describe =>
    simp only [properties] at he
    split at he
    · exact ⟨ctx, schema_of_mem_entryProperties ctx' e he⟩
    · simp at he
  | _ => simp [properties] at he

/-- The schema of a flattened property comes from inside. -/
theorem all_of_mem_flatProperties {ctx : Context} (h : AllParts P s) {e : String × Property}
    (he : e ∈ s.flatProperties ctx) (ctx' : Context) : All P (e.2.schema ctx') := by
  rcases mem_flatten_withNested he with he | ⟨key, p, hp, c, hc, rfl⟩
  · exact h _ (part_of_mem_properties he ctx')
  · exact all_of_mem_nestedProperties (h _ (part_of_mem_properties hp ctx)) hc ctx'

/-- The values of the properties of a map are less high than the map. -/
theorem height_value_of_mem_propertyPairs {ctx : Context} {pairs : List Pair} {start stop : Nat}
    {key : String} {p : Property} {pair : Pair} {v : Node}
    (hp : pair ∈ propertyPairs ctx key p pairs) (hv : pair.value = some v) :
    v.height < (Node.map pairs start stop).height := by
  obtain ⟨name, -, hp⟩ := List.mem_flatMap.mp hp
  exact Nat.lt_succ_of_le (height_value_of_mem_findPairs hp hv)

end Schema

end PackLint
