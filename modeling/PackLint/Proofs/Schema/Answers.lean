import PackLint.Proofs.Schema.Outcome
import PackLint.Proofs.Schema.Parts
import PackLint.Proofs.Schema.Sweep
import PackLint.Schema.Resolve

/-!
# When a check answers

A check descends from a node to the nodes inside of it, and ends in the first fault that it meets.
`Schema.Visits` is the descent. Whether the check has an answer is decided node by node: by what the
structure of the schema asks of the node (`Schema.Judges`), and by the checks that the schema brings
along.

Results:
* `NumberRule.answers_violation?`: which numbers a rule can judge.
* `Site.answers_sweep`: a sweep answers iff it can write all keys that it comes to.
* `Schema.answers_check`: a check answers iff every visited node can be judged.
* `Schema.answers_resolve`: references are resolved without a fault.
-/

open PackLint.Except

namespace PackLint

/-! ## Numbers -/

namespace NumberRule

variable (rule : NumberRule) (ctx : Context) (x : Number)

/-- The number lies outside of the bounds. -/
def Outside : Prop := (rule.belowMinimum? ctx x).isSome ∨ (rule.aboveMaximum? ctx x).isSome

/-- The rule can judge the number: one outside of the bounds can be written into the message, and an
integer that is asked to be whole fits into 64 bits. -/
structure Judges : Prop where
  writable : rule.Outside ctx x → x.isWritable
  fits : ¬ rule.Outside ctx x → rule.integer ctx →
    ∀ k : Int, x = .int k → (Binary64.ofInt? k).isSome

variable {rule ctx x}

theorem answers_outOfRange {words : String} {bound : Number} :
    Answers (outOfRange words bound x) ↔ x.isWritable := by
  unfold outOfRange Number.shown?
  split
  · rename_i h
    exact ⟨fun _ => h, fun _ => answers_ok _⟩
  · rename_i h
    exact ⟨fun ha => absurd ha (not_answers_error _), fun hw => absurd hw h⟩

theorem outOfRange_of_belowMinimum? {problem : Except Fault (DiagnosticCode × String)}
    (h : rule.belowMinimum? ctx x = some problem) :
    ∃ words bound, problem = outOfRange words bound x := by
  obtain ⟨b, -, h⟩ := Option.bind_eq_some_iff.mp h
  split at h <;> split at h <;> cases h <;> exact ⟨_, _, rfl⟩

theorem outOfRange_of_aboveMaximum? {problem : Except Fault (DiagnosticCode × String)}
    (h : rule.aboveMaximum? ctx x = some problem) :
    ∃ words bound, problem = outOfRange words bound x := by
  obtain ⟨b, -, h⟩ := Option.bind_eq_some_iff.mp h
  split at h <;> split at h <;> cases h <;> exact ⟨_, _, rfl⟩

theorem judges_of_outside (h : rule.Outside ctx x) : rule.Judges ctx x ↔ x.isWritable :=
  ⟨fun hj => hj.writable h, fun hw => ⟨fun _ => hw, fun hn => absurd h hn⟩⟩

/-- **Which numbers a rule can judge.** -/
theorem answers_violation? : Answers (rule.violation? ctx x) ↔ rule.Judges ctx x := by
  unfold violation?
  cases hlow : rule.belowMinimum? ctx x with
  | some problem =>
    obtain ⟨words, bound, rfl⟩ := outOfRange_of_belowMinimum? hlow
    have houtside : rule.Outside ctx x := Or.inl (by rw [hlow]; rfl)
    exact answers_bind_ok.trans (answers_outOfRange.trans (judges_of_outside houtside).symm)
  | none =>
    cases hhigh : rule.aboveMaximum? ctx x with
    | some problem =>
      obtain ⟨words, bound, rfl⟩ := outOfRange_of_aboveMaximum? hhigh
      have houtside : rule.Outside ctx x := Or.inr (by rw [hhigh]; rfl)
      exact answers_bind_ok.trans (answers_outOfRange.trans (judges_of_outside houtside).symm)
    | none =>
      have hinside : ¬ rule.Outside ctx x := by
        unfold Outside
        rw [hlow, hhigh]
        rintro (h | h) <;> cases h
      simp only
      split
      · rename_i hinteger
        cases x with
        | int k =>
          by_cases hfits : (Binary64.ofInt? k).isSome
          · have hwhole : (Number.int k).isWhole? = .ok true := if_pos hfits
            rw [hwhole]
            refine ⟨fun _ => ⟨fun h => absurd h hinside, fun _ _ j hj => ?_⟩, fun _ => answers_ok _⟩
            cases hj
            exact hfits
          · have hwhole : (Number.int k).isWhole? = .error .integerTooLarge := if_neg hfits
            rw [hwhole]
            refine ⟨fun h => absurd h (not_answers_error _), fun h => absurd ?_ hfits⟩
            exact h.fits hinside hinteger k rfl
        | float y =>
          have hwhole : (Number.float y).isWhole? = .ok y.isInteger := rfl
          rw [hwhole]
          refine ⟨fun _ => ⟨fun h => absurd h hinside, fun _ _ _ hj => nomatch hj⟩, fun _ => ?_⟩
          cases hy : y.isInteger with
          | true => exact answers_ok _
          | false => exact answers_ok _
      · rename_i hinteger
        exact ⟨fun _ => ⟨fun h => absurd h hinside, fun _ h => absurd h hinteger⟩,
          fun _ => answers_ok _⟩

end NumberRule

/-! ## Sweeps -/

theorem answers_requireTextKeys {pairs : List Pair} :
    Answers (requireTextKeys pairs) ↔ ∀ p ∈ pairs, p.key.isTextKey := by
  rw [← List.all_eq_true]
  unfold requireTextKeys
  split
  · rename_i h
    exact ⟨fun _ => h, fun _ => answers_ok _⟩
  · rename_i h
    exact ⟨fun ha => absurd ha (not_answers_error _), fun hw => absurd hw h⟩

namespace Site

variable {site : Site} {names : List (List Char)} {front : List Char}

/-- The sweep over a node below `front` comes to another node. -/
inductive Sweeps (names : List (List Char)) : List Char → Node → Node → Prop
  | here (front : List Char) (n : Node) : Sweeps names front n n
  | step {front : List Char} {pairs : List Pair} {start stop : Nat} {p : Pair} {n m : Node}
      (hp : p ∈ pairs) (hkey : ¬ (p.key.isScalar && names.contains (front ++ p.keyText.toList)))
      (hstep : names.any (leadsOn (front ++ p.keyText.toList))) (hn : p.value = some n)
      (hmap : n.isMap) (h : Sweeps names (front ++ p.keyText.toList ++ ['.']) n m) :
      Sweeps names front (.map pairs start stop) m

/-- All keys of a map can be written as text. -/
def WritesKeys (n : Node) : Prop := ∀ pairs ∈ n.pairs?, ∀ p ∈ pairs, p.key.isTextKey

theorem answers_sweepPair {p : Pair} :
    Answers (site.sweepPair names front p) ↔
      (¬ (p.key.isScalar && names.contains (front ++ p.keyText.toList)) →
        names.any (leadsOn (front ++ p.keyText.toList)) → ∀ n ∈ p.value, n.isMap →
        Answers (site.sweep names (front ++ p.keyText.toList ++ ['.']) n)) := by
  unfold sweepPair
  simp only
  split
  · rename_i hkey
    exact ⟨fun _ h => absurd hkey h, fun _ => answers_ok _⟩
  · rename_i hkey
    split
    · rename_i hstep
      split
      · rename_i hv
        rw [hv]
        constructor
        · rintro h - - n hn -
          cases hn
          exact h
        · exact fun h => h hkey hstep _ rfl rfl
      · rename_i hv
        refine ⟨fun _ _ _ n hn hmap => ?_, fun _ => answers_ok _⟩
        cases n with
        | map pairs start stop => exact absurd hn (hv pairs start stop)
        | _ => cases hmap
    · rename_i hstep
      exact ⟨fun _ _ h => absurd h hstep, fun _ => answers_ok _⟩

/-- **A sweep answers iff it can write all keys that it comes to.** -/
theorem answers_sweep {n : Node} :
    Answers (site.sweep names front n) ↔ ∀ m, Sweeps names front n m → WritesKeys m := by
  induction n using Node.height_induction generalizing front with
  | step n ih =>
    cases n with
    | map pairs start stop =>
      rw [sweep_map, answers_bind_of_forall fun _ _ => answers_map.trans answers_mapM,
        answers_requireTextKeys]
      constructor
      · rintro ⟨hkeys, hpairs⟩ m hm
        cases hm with
        | here =>
          intro ps hps
          cases hps
          exact hkeys
        | @step _ _ _ _ p n _ hp hkey hstep hn hmap h =>
          have hbelow := answers_sweepPair.mp (hpairs p hp) hkey hstep n hn hmap
          exact (ih n (Node.height_value_lt hp hn start stop)).mp hbelow m h
      · intro h
        refine ⟨h _ (.here front _) pairs rfl, fun p hp => answers_sweepPair.mpr ?_⟩
        intro hkey hstep n hn hmap
        refine (ih n (Node.height_value_lt hp hn start stop)).mpr fun m hm => ?_
        exact h m (.step hp hkey hstep hn hmap hm)
    | scalar scalar =>
      rw [sweep_scalar]
      refine ⟨fun _ m hm => ?_, fun _ => answers_ok _⟩
      cases hm
      exact fun _ h => nomatch h
    | seq items start stop =>
      rw [sweep_seq]
      refine ⟨fun _ m hm => ?_, fun _ => answers_ok _⟩
      cases hm
      exact fun _ h => nomatch h

end Site

/-! ## Single steps -/

/-- The number that a node holds. -/
def Node.number? : Node → Option Number
  | .scalar ⟨.number x, _, _, _, _⟩ => some x
  | _ => none

theorem Node.number?_eq_none {n : Node}
    (h : ∀ x text start stop style, n = .scalar ⟨.number x, text, start, stop, style⟩ → False) :
    n.number? = none := by
  unfold number?
  split
  · exact (h _ _ _ _ _ rfl).elim
  · rfl

/-- The rule looks at an item with a schema. -/
def ItemsOf.Assigns (rule : ItemsOf Schema) (items : List Node) (t : Schema) (m : Node) : Prop :=
  match rule with
  | .anything => False
  | .each s => t = s ∧ m ∈ items
  | .inOrder ss => (t, m) ∈ ss.zip items

theorem ItemsOf.Assigns.mem_items {rule : ItemsOf Schema} {items : List Node} {t : Schema}
    {m : Node} (h : rule.Assigns items t m) : m ∈ items := by
  cases rule with
  | anything => exact h.elim
  | each s => exact h.2
  | inOrder ss => exact (List.of_mem_zip h).2

theorem ItemsOf.Assigns.mem_schemas {rule : ItemsOf Schema} {items : List Node} {t : Schema}
    {m : Node} (h : rule.Assigns items t m) : t ∈ rule.schemas := by
  cases rule with
  | anything => exact h.elim
  | each s => exact List.mem_singleton.mpr h.1
  | inOrder ss => exact (List.of_mem_zip h).1

namespace Schema

variable {site : Site} {visit : Visit} {s t : Schema} {n m : Node}

/-- Looking at a node with a schema leads to a node inside of it and the schema for that. -/
inductive Descends (site : Site) : Schema → Node → Schema → Node → Prop
  | item {info : SchemaInfo} {rule : Context → ItemsOf Schema} {allowDuplicates : Context → Bool}
      {items : List Node} {start stop : Nat} {t : Schema} {m : Node}
      (h : (rule (.ofNode site (.seq items start stop))).Assigns items t m) :
      Descends site (.list info rule allowDuplicates) (.seq items start stop) t m
  | line {info : SchemaInfo} {triggers : Bool} {items : List Node} {start stop : Nat} {m : Node}
      (h : m ∈ items) : Descends site (.skillList info triggers) (.seq items start stop) anyString m
  | value {s : Schema} {pairs : List Pair} {start stop : Nat} {key : String} {p : Property}
      {pair : Pair} {m : Node}
      (he : (key, p) ∈ s.flatProperties (.ofNode site (.map pairs start stop)))
      (hp : pair ∈ propertyPairs (.ofNode site (.map pairs start stop)) key p pairs)
      (hm : pair.value = some m) :
      Descends site s (.map pairs start stop) (p.schema (.ofPair site pair)) m

theorem Descends.height_lt (h : Descends site s n t m) : m.height < n.height := by
  cases h with
  | item h => exact Node.height_item_lt h.mem_items _ _
  | line h => exact Node.height_item_lt h _ _
  | value he hp hm => exact height_value_of_mem_propertyPairs hp hm

/-- What the structure of the schema asks of the node: numbers can be judged, the keys of items that
are compared and the keys of a map can be written. -/
def Judges (site : Site) (s : Schema) (n : Node) : Prop :=
  match s with
  | number _ rule => ∀ x ∈ n.number?, rule.Judges (.ofNode site n) x
  | list _ _ allowDuplicates =>
    allowDuplicates (.ofNode site n) = false →
      ∀ items start stop, n = .seq items start stop → ∀ item ∈ items, item.hasTextKeys
  | object _ _ | map _ _ _ =>
    ∀ m, Site.Sweeps ((propertyNames (.ofNode site n) (s.flatProperties (.ofNode site n))).map
      String.toList) [] n m → Site.WritesKeys m
  | _ => True

theorem answers_checkNumber {rule : NumberRule} :
    Answers (s.checkNumber rule site n) ↔ ∀ x ∈ n.number?, rule.Judges (.ofNode site n) x := by
  unfold checkNumber
  split
  · rename_i x _ _ _ _
    constructor
    · intro h y hy
      cases hy
      obtain ⟨problem, hproblem, -⟩ := answers_bind.mp h
      exact NumberRule.answers_violation?.mp ⟨problem, hproblem⟩
    · intro h
      obtain ⟨problem, hproblem⟩ := NumberRule.answers_violation?.mpr (h x rfl)
      refine answers_bind.mpr ⟨problem, hproblem, ?_⟩
      cases problem with
      | none => exact answers_ok _
      | some problem => exact answers_ok _
  · rename_i hn
    rw [Node.number?_eq_none hn]
    exact iff_of_true (answers_ok _) nofun

theorem answers_checkItems {items : List Node} {rule : ItemsOf Schema} :
    Answers (checkItems visit site n items rule) ↔
      ∀ t m, rule.Assigns items t m → Answers (visit t m) := by
  cases rule with
  | anything => exact ⟨fun _ _ _ h => h.elim, fun _ => answers_ok _⟩
  | each s =>
    refine (answers_bind_ok.trans answers_mapM).trans ⟨?_, fun h m hm => h s m ⟨rfl, hm⟩⟩
    rintro h t m ⟨rfl, hm⟩
    exact h m hm
  | inOrder ss =>
    refine (answers_bind_ok.trans answers_mapM).trans ⟨fun h t m hm => h (t, m) hm, ?_⟩
    exact fun h e he => h e.1 e.2 he

theorem answers_checkRepeated {items : List Node} :
    Answers (checkRepeated site items) ↔ ∀ item ∈ items, item.hasTextKeys := by
  rw [← List.all_eq_true]
  unfold checkRepeated
  split
  · rename_i h
    exact ⟨fun _ => h, fun _ => answers_ok _⟩
  · rename_i h
    exact ⟨fun ha => absurd ha (not_answers_error _), fun hw => absurd hw h⟩

theorem answers_checkList {items : List Node} {start stop : Nat} {rule : ItemsOf Schema}
    {allowDuplicates : Bool} :
    Answers (checkList visit s rule allowDuplicates site (.seq items start stop)) ↔
      (allowDuplicates = false → ∀ item ∈ items, item.hasTextKeys) ∧
        ∀ t m, rule.Assigns items t m → Answers (visit t m) := by
  have hbind : Answers (checkList visit s rule allowDuplicates site (.seq items start stop)) ↔
      Answers (checkItems visit site (.seq items start stop) items rule) ∧
        (allowDuplicates = false → ∀ item ∈ items, item.hasTextKeys) := by
    refine answers_bind_of_forall fun r _ => ?_
    cases allowDuplicates with
    | true => exact ⟨fun _ h => (nomatch h), fun _ => answers_ok _⟩
    | false =>
      refine (answers_bind_ok.trans answers_checkRepeated).trans ?_
      exact ⟨fun h _ => h, fun h => h rfl⟩
  rw [hbind, answers_checkItems, and_comm]

theorem answers_checkPair {key : String} {p : Property} {pair : Pair} :
    Answers (checkPair visit site key p pair) ↔
      ∀ m ∈ pair.value, Answers (visit (p.schema (.ofPair site pair)) m) := by
  unfold checkPair
  split
  · rename_i hv
    rw [hv]
    exact ⟨fun _ _ h => (nomatch h), fun _ => answers_ok _⟩
  · rename_i v hv
    rw [hv]
    refine answers_bind_ok.trans ⟨?_, fun h => h v rfl⟩
    rintro h m hm
    cases hm
    exact h

theorem answers_checkProperty {pairs : List Pair} {key : String} {p : Property} :
    Answers (checkProperty visit site n pairs key p) ↔
      ∀ pair ∈ propertyPairs (.ofNode site n) key p pairs, ∀ m ∈ pair.value,
        Answers (visit (p.schema (.ofPair site pair)) m) := by
  unfold checkProperty
  simp only
  split
  · rename_i hempty
    rw [List.isEmpty_iff.mp hempty]
    exact ⟨fun _ _ h => (nomatch h), fun _ => answers_ok _⟩
  · refine answers_bind_ok.trans (answers_mapM.trans ?_)
    exact forall₂_congr fun pair _ => answers_checkPair

theorem answers_checkMap_map {pairs : List Pair} {start stop : Nat} :
    Answers (s.checkMap visit site (.map pairs start stop)) ↔
      (∀ m, Site.Sweeps ((propertyNames (.ofNode site (.map pairs start stop))
          (s.flatProperties (.ofNode site (.map pairs start stop)))).map String.toList) []
          (.map pairs start stop) m → Site.WritesKeys m) ∧
        ∀ e ∈ s.flatProperties (.ofNode site (.map pairs start stop)),
          ∀ pair ∈ propertyPairs (.ofNode site (.map pairs start stop)) e.1 e.2 pairs,
            ∀ m ∈ pair.value, Answers (visit (e.2.schema (.ofPair site pair)) m) := by
  have hbind : Answers (s.checkMap visit site (.map pairs start stop)) ↔
      Answers (requireTextKeys pairs) ∧
        Answers ((s.flatProperties (.ofNode site (.map pairs start stop))).mapM fun e =>
          checkProperty visit site (.map pairs start stop) pairs e.1 e.2) ∧
        Answers (site.sweep ((propertyNames (.ofNode site (.map pairs start stop))
          (s.flatProperties (.ofNode site (.map pairs start stop)))).map String.toList) []
          (.map pairs start stop)) := by
    refine answers_bind_of_forall fun _ _ => ?_
    exact answers_bind_of_forall fun _ _ => answers_bind_ok
  rw [hbind, answers_requireTextKeys, answers_mapM, Site.answers_sweep]
  constructor
  · rintro ⟨-, hproperties, hsweep⟩
    exact ⟨hsweep, fun e he => answers_checkProperty.mp (hproperties e he)⟩
  · rintro ⟨hsweep, hproperties⟩
    -- the keys of the map itself are those that the sweep begins with
    have hkeys := hsweep _ (.here [] _) pairs rfl
    exact ⟨hkeys, fun e he => answers_checkProperty.mpr (hproperties e he), hsweep⟩

/-- A node that is no map has nothing to sweep. -/
theorem writesKeys_of_sweeps {names : List (List Char)} {front : List Char}
    (hn : n.isMap = false) (h : Site.Sweeps names front n m) : Site.WritesKeys m := by
  cases h with
  | here =>
    intro pairs hpairs
    rw [Node.isMap, Option.mem_def.mp hpairs] at hn
    cases hn
  | step => cases hn

theorem answers_checkMap :
    Answers (s.checkMap visit site n) ↔
      (∀ m, Site.Sweeps ((propertyNames (.ofNode site n)
          (s.flatProperties (.ofNode site n))).map String.toList) [] n m → Site.WritesKeys m) ∧
        ∀ pairs start stop, n = .map pairs start stop →
          ∀ e ∈ s.flatProperties (.ofNode site n),
            ∀ pair ∈ propertyPairs (.ofNode site n) e.1 e.2 pairs,
              ∀ m ∈ pair.value, Answers (visit (e.2.schema (.ofPair site pair)) m) := by
  cases n with
  | map pairs start stop =>
    rw [answers_checkMap_map]
    refine and_congr_right fun _ => ⟨?_, fun h => h pairs start stop rfl⟩
    rintro h pairs start stop heq
    cases heq
    exact h
  | scalar scalar =>
    refine ⟨fun _ => ⟨fun m hm => writesKeys_of_sweeps rfl hm, ?_⟩, fun _ => answers_ok _⟩
    exact fun _ _ _ h => nomatch h
  | seq items start stop =>
    refine ⟨fun _ => ⟨fun m hm => writesKeys_of_sweeps rfl hm, ?_⟩, fun _ => answers_ok _⟩
    exact fun _ _ _ h => nomatch h

/-- Scalars and lists have no properties. -/
theorem not_descends_of_flatProperties {s : Schema} (hs : ∀ ctx, s.properties ctx = [])
    {pairs : List Pair} {start stop : Nat} {key : String} {p : Property}
    (he : (key, p) ∈ s.flatProperties (.ofNode site (.map pairs start stop))) : False := by
  unfold flatProperties at he
  rw [hs] at he
  cases he

theorem answers_structure_of_map {s : Schema}
    (hs : Answers (checkStructure visit s site n) ↔ Answers (s.checkMap visit site n))
    (hj : s.Judges site n ↔ ∀ m, Site.Sweeps ((propertyNames (.ofNode site n)
      (s.flatProperties (.ofNode site n))).map String.toList) [] n m → Site.WritesKeys m)
    (hd : ∀ t m, Descends site s n t m → ∃ pairs start stop key, ∃ p : Property, ∃ pair,
      n = .map pairs start stop ∧ (key, p) ∈ s.flatProperties (.ofNode site n) ∧
        pair ∈ propertyPairs (.ofNode site n) key p pairs ∧ pair.value = some m ∧
        t = p.schema (.ofPair site pair)) :
    Answers (checkStructure visit s site n) ↔
      s.Judges site n ∧ ∀ t m, Descends site s n t m → Answers (visit t m) := by
  rw [hs, answers_checkMap, hj]
  refine and_congr_right fun _ => ⟨?_, ?_⟩
  · rintro h t m hdescends
    obtain ⟨pairs, start, stop, key, p, pair, hn, he, hp, hm, rfl⟩ := hd t m hdescends
    exact h pairs start stop hn (key, p) he pair hp m hm
  · rintro h pairs start stop rfl e he pair hp m hm
    exact h _ m (.value he hp hm)

/-- A schema that descends nowhere from a node answers for it. -/
theorem answers_structure_of_end {s : Schema} (hs : ∀ ctx, s.properties ctx = [])
    (hmap : ∀ t m, Descends site s n t m → n.isMap)
    (hanswers : Answers (checkStructure visit s site n)) (hjudges : s.Judges site n) :
    Answers (checkStructure visit s site n) ↔
      s.Judges site n ∧ ∀ t m, Descends site s n t m → Answers (visit t m) := by
  refine iff_of_true hanswers ⟨hjudges, fun t m hd => ?_⟩
  have h := hmap t m hd
  cases hd with
  | item => cases h
  | line => cases h
  | value he => exact (not_descends_of_flatProperties hs he).elim

/-- **The structure of a schema answers for a node iff it can judge the node and the nodes that it
descends to are answered for.** -/
theorem answers_checkStructure :
    Answers (checkStructure visit s site n) ↔
      s.Judges site n ∧ ∀ t m, Descends site s n t m → Answers (visit t m) := by
  cases s with
  | number info rule =>
    refine answers_checkNumber.trans ⟨fun h => ⟨h, fun t m hd => ?_⟩, fun h => h.1⟩
    cases hd with
    | value he => exact (not_descends_of_flatProperties (fun _ => rfl) he).elim
  | list info rule allowDuplicates =>
    cases n with
    | seq items start stop =>
      refine (answers_checkList (s := .list info rule allowDuplicates)).trans
        (and_congr ⟨?_, ?_⟩ ⟨?_, ?_⟩)
      · rintro h hdup items start stop heq
        cases heq
        exact h hdup
      · exact fun h hdup => h hdup items start stop rfl
      · rintro h t m (h' | _ | _)
        exact h t m h'
      · exact fun h t m hassigns => h t m (.item hassigns)
    | _ =>
      refine answers_structure_of_end (fun _ => rfl) (fun t m hd => ?_) (answers_ok _)
        fun _ _ _ _ h => nomatch h
      cases hd <;> rfl
  | skillList info triggers =>
    cases n with
    | seq items start stop =>
      refine (answers_checkList (s := .skillList info triggers)).trans
        ⟨fun h => ⟨trivial, ?_⟩, fun h => ⟨fun hdup => (nomatch hdup), ?_⟩⟩
      · rintro t m (_ | h' | _)
        exact h.2 anyString m ⟨rfl, h'⟩
      · rintro t m ⟨rfl, hm⟩
        exact h.2 anyString m (.line hm)
    | _ =>
      refine answers_structure_of_end (fun _ => rfl) (fun t m hd => ?_) (answers_ok _) trivial
      cases hd <;> rfl
  | object info properties =>
    refine answers_structure_of_map Iff.rfl Iff.rfl fun t m hd => ?_
    cases hd with
    | value he hp hm => exact ⟨_, _, _, _, _, _, rfl, he, hp, hm, rfl⟩
  | map info value d =>
    refine answers_structure_of_map Iff.rfl Iff.rfl fun t m hd => ?_
    cases hd with
    | value he hp hm => exact ⟨_, _, _, _, _, _, rfl, he, hp, hm, rfl⟩
  | _ =>
    refine answers_structure_of_end (fun _ => rfl) (fun t m hd => ?_) (answers_ok _) trivial
    cases hd
    rfl

/-! ## Whole descents -/

/-- Looking at a node with a schema leads to a node inside of it, in any number of steps. -/
inductive Visits (site : Site) : Schema → Node → Schema → Node → Prop
  | here (s : Schema) (n : Node) : Visits site s n s n
  | next {s t u : Schema} {n m k : Node} (h : Descends site s n t m) (h' : Visits site t m u k) :
      Visits site s n u k

/-- What holds of all schemas inside of a schema holds of those that it descends with. -/
theorem Descends.all {P : Schema → Prop} (hs : AllParts P s) (h : Descends site s n t m) :
    All P t := by
  cases h with
  | item h => exact hs t ⟨_, h.mem_schemas⟩
  | line => exact hs _ rfl
  | value he => exact all_of_mem_flatProperties hs he _

theorem Visits.all {P : Schema → Prop} (hs : All P s) (h : Visits site s n t m) : All P t := by
  induction h with
  | here => exact hs
  | next hd _ ih => exact ih (hd.all hs.allParts)

/-- The node can be judged by the structure of the schema and by the checks that it brings along. -/
def Sound (site : Site) (s : Schema) (n : Node) : Prop :=
  s.Judges site n ∧ ∀ check ∈ s.info.localChecks (.ofNode site n), Answers (check site n)

theorem answers_checkWithin {levels : Nat} (h : n.height < levels) :
    Answers (checkWithin site levels s n) ↔ ∀ t m, Visits site s n t m → Sound site t m := by
  induction levels generalizing s n with
  | zero => exact absurd h (Nat.not_lt_zero _)
  | succ levels ih =>
    have hstep : Answers (checkWithin site (levels + 1) s n) ↔
        Answers (checkStructure (checkWithin site levels) s site n) ∧
          Answers (runChecks (s.info.localChecks (.ofNode site n)) site n) :=
      answers_bind_of_forall fun _ _ => answers_bind_ok
    rw [hstep, answers_checkStructure, answers_runChecks]
    constructor
    · rintro ⟨⟨hjudges, hbelow⟩, hchecks⟩ t m hv
      cases hv with
      | here => exact ⟨hjudges, hchecks⟩
      | next hd hv =>
        have hlt : _ < levels := Nat.lt_of_lt_of_le hd.height_lt (Nat.le_of_lt_succ h)
        exact (ih hlt).mp (hbelow _ _ hd) t m hv
    · intro hsound
      refine ⟨⟨(hsound s n (.here s n)).1, fun t m hd => ?_⟩, (hsound s n (.here s n)).2⟩
      have hlt : m.height < levels := Nat.lt_of_lt_of_le hd.height_lt (Nat.le_of_lt_succ h)
      exact (ih hlt).mpr fun u k hv => hsound u k (.next hd hv)

/-- **A check answers iff every visited node can be judged.** -/
theorem answers_check :
    Answers (s.check site n) ↔ ∀ t m, Visits site s n t m → Sound site t m :=
  answers_checkWithin (Nat.lt_succ_self _)

/-! ## References -/

/-- The checks of references that a schema brings along never end in a fault. -/
def ResolvesAlways (s : Schema) : Prop :=
  ∀ ctx, ∀ check ∈ s.info.referenceChecks ctx, ∀ site n, Answers (check site n)

/-- A visit that always answers for such schemas. -/
def AnsweringVisit (visit : Visit) : Prop := ∀ s n, All ResolvesAlways s → Answers (visit s n)

theorem answers_resolveItems (hv : AnsweringVisit visit) {rule : ItemsOf Schema}
    (hs : ∀ t ∈ rule.schemas, All ResolvesAlways t) : Answers (resolveItems visit rule n) := by
  cases n with
  | seq items start stop =>
    cases rule with
    | anything => exact answers_ok _
    | each t =>
      refine answers_bind_ok.mpr (answers_mapM.mpr fun item _ => hv t item ?_)
      exact hs t (by simp [ItemsOf.schemas])
    | inOrder ts =>
      refine answers_bind_ok.mpr (answers_mapM.mpr fun e he => hv e.1 e.2 ?_)
      exact hs e.1 (List.of_mem_zip he).1
  | _ => exact answers_ok _

theorem answers_resolveProperty (hv : AnsweringVisit visit) {found : List Pair} {p : Property}
    (hp : ∀ ctx, All ResolvesAlways (p.schema ctx)) :
    Answers (resolveProperty visit site found p) := by
  refine answers_bind_ok.mpr (answers_mapM.mpr fun pair _ => ?_)
  split
  · exact answers_ok _
  · exact hv _ _ (hp _)

theorem answers_resolveMap (hv : AnsweringVisit visit) (hs : AllParts ResolvesAlways s) :
    Answers (s.resolveMap visit site n) := by
  cases n with
  | map pairs start stop =>
    refine answers_bind_ok.mpr (answers_mapM.mpr fun e he => ?_)
    obtain ⟨⟨key, p⟩, hm, rfl⟩ := List.mem_map.mp he
    exact answers_resolveProperty hv (all_of_mem_flatProperties hs hm)
  | _ => exact answers_ok _

theorem answers_resolveStructure (hv : AnsweringVisit visit) (hs : AllParts ResolvesAlways s) :
    Answers (resolveStructure visit s site n) := by
  cases s with
  | list info rule allowDuplicates => exact answers_resolveItems hv fun t ht => hs t ⟨_, ht⟩
  | object info properties => exact answers_resolveMap hv hs
  | map info value describe => exact answers_resolveMap hv hs
  | _ => exact answers_ok _

theorem answeringVisit_resolveWithin (site : Site) (levels : Nat) :
    AnsweringVisit (resolveWithin site levels) := by
  induction levels with
  | zero => exact fun _ _ _ => answers_ok _
  | succ levels ih =>
    intro s n hs
    obtain ⟨r, hr⟩ : Answers (resolveStructure (resolveWithin site levels) s site n) :=
      answers_resolveStructure ih hs.allParts
    refine answers_bind.mpr ⟨r, hr, answers_bind_ok.mpr (answers_runChecks.mpr fun check hc => ?_)⟩
    exact hs.self _ check hc site n

/-- **References are resolved without a fault.** -/
theorem answers_resolve (hs : All ResolvesAlways s) : Answers (s.resolve site n) :=
  answeringVisit_resolveWithin site _ s n hs

end Schema

end PackLint
