import PackLint.Pack.Item
import PackLint.Proofs.Entries
import PackLint.Proofs.Schema.Copies
import PackLint.Proofs.Schema.Static

/-!
# Spellings

The properties of nested objects can be written in many ways: the names on the path to a property
may stand together in a dotted key or in nested maps, each may be the key or any alias, maps may be
shared or repeated, and pairs may come in any order. `Schema.Spells` relates the pairs of a map to
the assignment of values to properties that they write down.

What is looked up by names (`find_pairs`) and what is unexpected is the same in all spellings. A
check that a schema brings along sees the whole document, so it need not be: spellings are looked at
alike if the checks of the values look at nothing but copies of the values.

Results:
* `Schema.propertyPairs_of_spells`: the pairs of a spelling hold what is assigned, property by
  property.
* `Schema.sweep_of_spells`: nothing in a spelling is unexpected.
* `Schema.alike_spellings`: all spellings of an assignment are looked at alike, if the checks of the
  values do not look around.
* `Schema.unlike_spellings`: a check that looks around tells two spellings apart.
-/

namespace PackLint

namespace Schema

/-- Values, if they are there, for some properties under their flat keys. -/
abbrev Assignment := List (String × Option Node)

/-- The pairs, which stand behind the names `front`, write down an assignment of values. A pair
holds a property if its key completes a path to it, or it opens a map on the way to one. -/
inductive Spells (ctx : Context) (s : Schema) : List String → List Pair → Assignment → Prop
  | nil (front : List String) : Spells ctx s front [] []
  | property {front : List String} (ws : List String) {key : String} {scalar : Scalar}
      {value : Option Node} {comment : Option String} {pairs : List Pair} {as : Assignment}
      (hws : ws ≠ [])
      (htext : scalar.text = dotted ws) (hleads : Leads ctx s (front ++ ws) key)
      (h : Spells ctx s front pairs as) :
      Spells ctx s front (⟨.scalar scalar, value, comment⟩ :: pairs) ((key, value) :: as)
  | parent {front : List String} (ws : List String) {scalar : Scalar} {inner : List Pair}
      {start stop : Nat} {comment : Option String} {pairs : List Pair} {as bs : Assignment}
      (hws : ws ≠ []) (htext : scalar.text = dotted ws)
      (hopen : ∃ vs key, vs ≠ [] ∧ Leads ctx s (front ++ ws ++ vs) key)
      (hinner : Spells ctx s (front ++ ws) inner as) (h : Spells ctx s front pairs bs) :
      Spells ctx s front (⟨.scalar scalar, some (.map inner start stop), comment⟩ :: pairs)
        (as ++ bs)

/-- No name of a flattened property is a name of another or leads on to one. -/
def Separate (ctx : Context) (s : Schema) : Prop :=
  ∀ e ∈ s.flatProperties ctx, ∀ e' ∈ s.flatProperties ctx, e.1 ≠ e'.1 →
    ∀ n ∈ e.2.names e.1 ctx, ∀ n' ∈ e'.2.names e'.1 ctx,
      n ≠ n' ∧ leadsOn n.toList n'.toList = false

/-- Two assignments give copies of the same values to the same properties, in any order. -/
def SameAssignment (literal : Prop) (src src' : Source) (as as' : Assignment) : Prop :=
  ∃ bs : Assignment, as.Perm bs ∧
    List.Forall₂ (fun b a => b.1 = a.1 ∧ Option.Rel (Node.Copy literal src src') b.2 a.2) bs as'

variable {ctx : Context} {s : Schema} {front : List String} {pairs : List Pair} {as : Assignment}

/-! ## Separate paths -/

theorem flatProperties_of_isObject (h : s.isObject) :
    s.flatProperties ctx = nestedProperties ctx s := by
  cases s with
  | object info properties => simp only [flatProperties, nestedProperties, Schema.properties]
  | _ => cases h

theorem dotted_mem_names (hs : Static s) {ws : List String} {key : String}
    (h : Leads ctx s ws key) :
    ∃ p, (key, p) ∈ nestedProperties ctx s ∧ dotted ws ∈ p.names key ctx := by
  obtain ⟨p, hp⟩ := exists_of_leads (hs.keyed ctx) h
  exact ⟨p, hp, (mem_names_iff (hs.keyed ctx) hp _).mpr ⟨ws, h, rfl⟩⟩

/-- A path that begins another path is that path. -/
theorem Leads.eq_of_prefix (hs : Static s) (hobject : s.isObject) (hsep : Separate ctx s)
    {ws ws' : List String} {key key' : String} (h : Leads ctx s ws key) (h' : Leads ctx s ws' key')
    (hp : ws <+: ws') : ws = ws' ∧ key = key' := by
  by_cases hkey : key = key'
  · subst hkey
    exact ⟨hp.eq_of_length ((h.length_eq hs).trans (h'.length_eq hs).symm), rfl⟩
  · obtain ⟨p, hp, hn⟩ := dotted_mem_names hs h
    obtain ⟨p', hp', hn'⟩ := dotted_mem_names hs h'
    rw [← flatProperties_of_isObject hobject] at hp hp'
    obtain ⟨hne, hleads⟩ := hsep _ hp _ hp' hkey _ hn _ hn'
    obtain ⟨rest, rfl⟩ := ‹ws <+: ws'›
    by_cases hrest : rest = []
    · subst hrest
      exact absurd (congrArg dotted (List.append_nil ws).symm) hne
    · rw [dotted_append h.ne_nil hrest, leadsOn, String.toList_append,
        String.toList_append] at hleads
      have hprefix : (dotted ws).toList ++ ['.'] <+:
          (dotted ws).toList ++ ".".toList ++ (dotted rest).toList := List.prefix_append _ _
      rw [List.isPrefixOf_iff_prefix.mpr hprefix] at hleads
      cases hleads

/-! ## What a spelling holds -/

/-- The paths to the properties that a spelling assigns, behind `front`, with the pairs that hold
them. Every pair that is found under a name of a property is one of these. -/
structure Places (ctx : Context) (s : Schema) (front : List String) (pairs : List Pair)
    (as : Assignment) (places : List (List String × Pair)) : Prop where
  leads : List.Forall₂ (fun l a => l.1 ≠ [] ∧ Leads ctx s (front ++ l.1) a.1 ∧ l.2.value = a.2)
    places as
  found : ∀ ns key, ns ≠ [] → Leads ctx s (front ++ ns) key →
    (findPairs pairs (dotted ns)).Perm ((places.filter (·.1 = ns)).map (·.2))

/-- The places behind a path are those that have the rest of the path behind it. -/
theorem map_filter_behind (ws ns : List String) (places : List (List String × Pair)) :
    ((places.map fun l => (ws ++ l.1, l.2)).filter (·.1 = ns)).map (·.2) =
      if ws <+: ns then (places.filter (·.1 = ns.drop ws.length)).map (·.2) else [] := by
  rw [List.filter_map, List.map_map]
  by_cases hprefix : ws <+: ns
  · obtain ⟨rest, rfl⟩ := hprefix
    have hfilter : places.filter ((fun l => decide (l.1 = ws ++ rest)) ∘
        fun l => (ws ++ l.1, l.2)) = places.filter (·.1 = rest) :=
      List.filter_congr fun l _ => by simp
    rw [if_pos (List.prefix_append ws rest), List.drop_left, hfilter]
    rfl
  · have hfilter : places.filter ((fun l => decide (l.1 = ns)) ∘
        fun l => (ws ++ l.1, l.2)) = [] := by
      refine List.filter_eq_nil_iff.mpr fun l _ hl => hprefix ?_
      exact ⟨l.1, by simpa using hl⟩
    rw [if_neg hprefix, hfilter]
    rfl

theorem Spells.places (hs : Static s) (hobject : s.isObject) (hsep : Separate ctx s)
    (h : Spells ctx s front pairs as) : ∃ places, Places ctx s front pairs as places := by
  induction h with
  | nil front =>
    refine ⟨[], .nil, fun ns key _ _ => ?_⟩
    rw [findPairs_nil]
    exact .nil
  | @property front ws key scalar value comment pairs as hws htext hleads h ih =>
    obtain ⟨places, hplaces, hfound⟩ := ih
    refine ⟨(ws, ⟨.scalar scalar, value, comment⟩) :: places, .cons ⟨hws, hleads, rfl⟩ hplaces, ?_⟩
    intro ns key' hns hleads'
    have hwsfree : ∀ w ∈ ws, DotFree w := fun w hw =>
      hleads.dotFree hs w (List.mem_append_right front hw)
    have hnsfree : ∀ w ∈ ns, DotFree w := fun w hw =>
      hleads'.dotFree hs w (List.mem_append_right front hw)
    refine (findPairs_cons_perm _ _ _).trans ?_
    rw [findPairs_singleton (p := ⟨.scalar scalar, value, comment⟩) hwsfree hnsfree hws hns rfl
      htext]
    by_cases heq : ws = ns
    · subst heq
      rw [if_pos rfl, List.filter_cons_of_pos (by simp)]
      exact (hfound ws key' hns hleads').cons _
    · have hprefix : ¬ ws <+: ns := by
        intro hp
        have hpath := hleads.eq_of_prefix hs hobject hsep hleads'
          ((List.prefix_append_right_inj front).mpr hp)
        exact heq (List.append_cancel_left hpath.1)
      rw [if_neg heq, if_neg hprefix, List.filter_cons_of_neg (by simpa using heq)]
      exact hfound ns key' hns hleads'
  | @parent front ws scalar inner start stop comment pairs as bs hws htext hopen hinner h ihinner
    ih =>
    obtain ⟨places, hplaces, hfound⟩ := ihinner
    obtain ⟨others, hothers, hfound'⟩ := ih
    obtain ⟨vs, key₀, hvs, hleads⟩ := hopen
    refine ⟨places.map (fun l => (ws ++ l.1, l.2)) ++ others, List.rel_append ?_ hothers, ?_⟩
    · refine List.forall₂_map_left_iff.mpr (hplaces.imp fun l a hl => ⟨?_, ?_, hl.2.2⟩)
      · exact List.append_ne_nil_of_left_ne_nil hws _
      · rw [← List.append_assoc]
        exact hl.2.1
    · intro ns key hns hleads'
      have hwsfree : ∀ w ∈ ws, DotFree w := fun w hw =>
        hleads.dotFree hs w (List.mem_append_left _ (List.mem_append_right front hw))
      have hnsfree : ∀ w ∈ ns, DotFree w := fun w hw =>
        hleads'.dotFree hs w (List.mem_append_right front hw)
      rw [List.filter_append, List.map_append]
      refine (findPairs_cons_perm _ _ _).trans (.append ?_ (hfound' ns key hns hleads'))
      rw [findPairs_singleton (p := ⟨.scalar scalar, some (.map inner start stop), comment⟩) hwsfree
        hnsfree hws hns rfl htext, map_filter_behind]
      -- no property has the path of the map itself, since it is the way to another one
      have hne : ws ≠ ns := by
        rintro rfl
        have hnil := (hleads'.eq_of_prefix hs hobject hsep hleads (List.prefix_append _ vs)).1
        exact hvs (List.self_eq_append_right.mp hnil)
      rw [if_neg hne]
      by_cases hprefix : ws <+: ns
      · obtain ⟨rest, rfl⟩ := hprefix
        have hrest : rest ≠ [] := fun hnil => hne (by rw [hnil, List.append_nil])
        rw [if_pos (List.prefix_append ws rest), if_pos (List.prefix_append ws rest),
          List.drop_left]
        rw [← List.append_assoc] at hleads'
        exact hfound rest key hrest hleads'
      · rw [if_neg hprefix, if_neg hprefix]

/-- A property that a spelling assigns has one place, any other has none. -/
theorem filter_places (hs : Static s) (hobject : s.isObject) (hsep : Separate ctx s)
    {places : List (List String × Pair)} (key : String)
    (h : List.Forall₂ (fun l a => l.1 ≠ [] ∧ Leads ctx s l.1 a.1 ∧ l.2.value = a.2) places as)
    (hkeys : (as.map Prod.fst).Nodup) :
    (key ∉ as.map Prod.fst ∧ ∀ ws, Leads ctx s ws key → places.filter (·.1 = ws) = []) ∨
      ∃ l : List String × Pair, (key, l.2.value) ∈ as ∧ Leads ctx s l.1 key ∧
        ∀ ws, Leads ctx s ws key → places.filter (·.1 = ws) = if l.1 = ws then [l] else [] := by
  induction h with
  | nil => exact Or.inl ⟨List.not_mem_nil, fun _ _ => rfl⟩
  | @cons l a places as hl _ ih =>
    obtain ⟨-, hleads, hvalue⟩ := hl
    rw [List.map_cons, List.nodup_cons] at hkeys
    by_cases hkey : a.1 = key
    · subst hkey
      rcases ih hkeys.2 with ⟨-, hnone⟩ | ⟨l', hl', -, -⟩
      · refine Or.inr ⟨l, ?_, hleads, fun ws hws => ?_⟩
        · rw [hvalue]
          exact List.mem_cons_self
        · rw [List.filter_cons, hnone ws hws]
          simp only [decide_eq_true_eq]
      · exact absurd (List.mem_map_of_mem hl') hkeys.1
    · have hskip : ∀ ws, Leads ctx s ws key →
          (l :: places).filter (·.1 = ws) = places.filter (·.1 = ws) := by
        intro ws hws
        refine List.filter_cons_of_neg ?_
        rw [decide_eq_true_eq]
        rintro rfl
        exact hkey (hleads.eq_of_prefix hs hobject hsep hws (List.prefix_refl _)).2
      rcases ih hkeys.2 with ⟨hnone, hfilter⟩ | ⟨l', hl', hleads', hfilter⟩
      · refine Or.inl ⟨?_, fun ws hws => (hskip ws hws).trans (hfilter ws hws)⟩
        rw [List.map_cons, List.mem_cons, not_or]
        exact ⟨Ne.symm hkey, hnone⟩
      · refine Or.inr ⟨l', List.mem_cons_of_mem a hl', hleads', fun ws hws => ?_⟩
        exact (hskip ws hws).trans (hfilter ws hws)

theorem flatMap_eq_singleton {α β : Type} {l : List α} {f : α → List β} {a : α} {b : β}
    (hl : l.Nodup) (ha : a ∈ l) (hf : f a = [b]) (hne : ∀ x ∈ l, x ≠ a → f x = []) :
    l.flatMap f = [b] := by
  induction l with
  | nil => cases ha
  | cons x l ih =>
    obtain ⟨hx, hl⟩ := List.nodup_cons.mp hl
    rw [List.flatMap_cons]
    by_cases hxa : x = a
    · subst hxa
      have hrest : l.flatMap f = [] := List.flatMap_eq_nil_iff.mpr fun y hy =>
        hne y (List.mem_cons_of_mem x hy) fun h => hx (h ▸ hy)
      rw [hf, hrest, List.append_nil]
    · have ha : a ∈ l := List.mem_of_ne_of_mem (Ne.symm hxa) ha
      rw [hne x List.mem_cons_self hxa, List.nil_append]
      exact ih hl ha fun y hy => hne y (List.mem_cons_of_mem x hy)

/-- **The pairs of a spelling hold what is assigned.** -/
theorem propertyPairs_of_spells (hs : Static s) (hobject : s.isObject) (hsep : Separate ctx s)
    (h : Spells ctx s [] pairs as) (hkeys : (as.map Prod.fst).Nodup) {e : String × Property}
    (he : e ∈ nestedProperties ctx s) :
    (propertyPairs ctx e.1 e.2 pairs = [] ∧ e.1 ∉ as.map Prod.fst) ∨
      ∃ pair, propertyPairs ctx e.1 e.2 pairs = [pair] ∧ (e.1, pair.value) ∈ as := by
  obtain ⟨places, hplaces, hfound⟩ := h.places hs hobject hsep
  have hname : ∀ n ∈ e.2.names e.1 ctx, ∃ ws, Leads ctx s ws e.1 ∧ n = dotted ws ∧
      (findPairs pairs n).Perm ((places.filter (·.1 = ws)).map (·.2)) := by
    intro n hn
    obtain ⟨ws, hws, rfl⟩ := (mem_names_iff (hs.keyed ctx) he n).mp hn
    exact ⟨ws, hws, rfl, hfound ws e.1 hws.ne_nil hws⟩
  rcases filter_places hs hobject hsep e.1 hplaces hkeys with
    ⟨hnone, hfilter⟩ | ⟨l, hl, hleads, hfilter⟩
  · refine Or.inl ⟨List.flatMap_eq_nil_iff.mpr fun n hn => ?_, hnone⟩
    obtain ⟨ws, hws, -, hperm⟩ := hname n hn
    rw [hfilter ws hws] at hperm
    exact hperm.eq_nil
  · refine Or.inr ⟨l.2, flatMap_eq_singleton (nodup_eraseDups _)
      ((mem_names_iff (hs.keyed ctx) he _).mpr ⟨l.1, hleads, rfl⟩) ?_ fun n hn hne => ?_, hl⟩
    · have hperm := hfound l.1 e.1 hleads.ne_nil hleads
      rw [hfilter l.1 hleads, if_pos rfl] at hperm
      exact List.perm_singleton.mp hperm
    · obtain ⟨ws, hws, rfl, hperm⟩ := hname n hn
      rw [hfilter ws hws, if_neg fun h => hne (by rw [h])] at hperm
      exact hperm.eq_nil

/-! ## Nothing is unexpected -/

theorem Spells.isScalar (h : Spells ctx s front pairs as) : ∀ p ∈ pairs, p.key.isScalar := by
  induction h with
  | nil => exact fun _ hp => nomatch hp
  | property _ _ _ _ _ ih => exact List.forall_mem_cons.mpr ⟨rfl, ih⟩
  | parent _ _ _ _ _ _ _ ih => exact List.forall_mem_cons.mpr ⟨rfl, ih⟩

theorem Spells.requireTextKeys (h : Spells ctx s front pairs as) :
    requireTextKeys pairs = .ok () := by
  refine if_pos (List.all_eq_true.mpr fun p hp => ?_)
  rw [Node.isTextKey, h.isScalar p hp]
  rfl

/-- The text in front of the keys that stand behind some names. -/
def frontText (front : List String) : List Char :=
  if front = [] then [] else (dotted front).toList ++ ['.']

theorem frontText_append {ws : List String} (hws : ws ≠ []) :
    frontText front ++ (dotted ws).toList = (dotted (front ++ ws)).toList := by
  unfold frontText
  by_cases hfront : front = []
  · rw [if_pos hfront, hfront]
    rfl
  · rw [if_neg hfront, dotted_append hfront hws, String.toList_append, String.toList_append]
    rfl

theorem frontText_of_ne_nil (h : front ≠ []) : frontText front = (dotted front).toList ++ ['.'] :=
  if_neg h

theorem sweep_below_of_spells (front : List String) {site : Site} {names : List (List Char)}
    (hnames : ∀ ws key, Leads ctx s ws key → (dotted ws).toList ∈ names)
    (h : Spells ctx s front pairs as) (start stop : Nat) :
    site.sweep names (frontText front) (.map pairs start stop) = .ok .empty := by
  have hsweep : ∀ {front pairs as}, Spells ctx s front pairs as →
      site.sweepPairs names (frontText front) pairs = .ok .empty →
      ∀ start stop, site.sweep names (frontText front) (.map pairs start stop) = .ok .empty := by
    intro front pairs as h hpairs start stop
    rw [Site.sweep, h.requireTextKeys]
    exact hpairs
  suffices hpairs : site.sweepPairs names (frontText front) pairs = .ok .empty from
    hsweep h hpairs start stop
  have hcons : ∀ {front p ps}, site.sweepPair names (frontText front) p = .ok .empty →
      site.sweepPairs names (frontText front) ps = .ok .empty →
      site.sweepPairs names (frontText front) (p :: ps) = .ok .empty := by
    intro front p ps hp hps
    rw [Site.sweepPairs_cons, hp, hps]
    rfl
  induction h with
  | nil => rw [Site.sweepPairs]
  | @property front ws key scalar value comment pairs as hws htext hleads h ih =>
    refine hcons ?_ ih
    have hpath : frontText front ++ (Node.scalar scalar).keyText.toList ∈ names := by
      rw [Node.keyText, htext, frontText_append hws]
      exact hnames _ key hleads
    exact if_pos (by simpa [Node.isScalar, Node.scalar?] using hpath)
  | @parent front ws scalar inner start stop comment pairs as bs hws htext hopen hinner h ihinner
    ih =>
    refine hcons ?_ ih
    obtain ⟨vs, key, hvs, hleads⟩ := hopen
    have hne : front ++ ws ≠ [] := List.append_ne_nil_of_right_ne_nil front hws
    have hpath : frontText front ++ (Node.scalar scalar).keyText.toList ++ ['.'] =
        frontText (front ++ ws) := by
      rw [Node.keyText, htext, frontText_append hws, frontText_of_ne_nil hne]
    have hstep : names.any (leadsOn (frontText front ++ (Node.scalar scalar).keyText.toList)) := by
      refine List.any_eq_true.mpr ⟨_, hnames _ key hleads, ?_⟩
      rw [leadsOn, hpath, List.isPrefixOf_iff_prefix, ← frontText_append hvs]
      exact List.prefix_append _ _
    unfold Site.sweepPair
    simp only
    rw [if_pos hstep, hpath, hsweep hinner ihinner]
    split <;> rfl

theorem flatProperties_of_static (hs : Static s) (hobject : s.isObject) (ctx ctx' : Context) :
    s.flatProperties ctx = nestedProperties ctx' s :=
  (flatProperties_of_isObject hobject).trans (nestedProperties_eq_of_static hs ctx ctx')

/-- **Nothing in a spelling is unexpected.** -/
theorem sweep_of_spells (hs : Static s) (hobject : s.isObject) (h : Spells ctx s [] pairs as)
    (site : Site) (ctx' : Context) (start stop : Nat) :
    site.sweep ((propertyNames ctx' (s.flatProperties ctx')).map String.toList) []
      (.map pairs start stop) = .ok .empty := by
  refine sweep_below_of_spells [] (fun ws key hleads => ?_) h start stop
  obtain ⟨p, hp, hn⟩ := dotted_mem_names hs hleads
  rw [flatProperties_of_static hs hobject ctx' ctx]
  refine List.mem_map_of_mem (List.mem_flatMap.mpr ⟨(key, p), hp, ?_⟩)
  change dotted ws ∈ p.names key ctx'
  rw [names_eq ((static_of_mem_nestedProperties hs hp).aliases ctx' ctx)]
  exact hn

/-! ## The same assignment -/

section

variable {literal : Prop} {src src' : Source} {as' : Assignment}

theorem SameAssignment.keys_perm (h : SameAssignment literal src src' as as') :
    (as.map Prod.fst).Perm (as'.map Prod.fst) := by
  obtain ⟨bs, hperm, hrel⟩ := h
  have hkeys : bs.map Prod.fst = as'.map Prod.fst := by
    clear hperm
    induction hrel with
    | nil => rfl
    | cons hb _ ih => rw [List.map_cons, List.map_cons, hb.1, ih]
  exact hkeys ▸ hperm.map Prod.fst

/-- A property is given a copy of the same value. -/
theorem SameAssignment.value (h : SameAssignment literal src src' as as')
    (hkeys : (as.map Prod.fst).Nodup) {key : String} {v v' : Option Node} (hv : (key, v) ∈ as)
    (hv' : (key, v') ∈ as') :
    Option.Rel (Node.Copy literal src src') v v' := by
  have hkeys' := h.keys_perm.nodup hkeys
  obtain ⟨bs, hperm, hrel⟩ := h
  have hb := hperm.subset hv
  have hcopy : ∃ a ∈ as', a.1 = key ∧ Option.Rel (Node.Copy literal src src') v a.2 := by
    clear hperm hkeys' hv'
    induction hrel with
    | nil => cases hb
    | @cons b a _ _ hba _ ih =>
      rcases List.mem_cons.mp hb with rfl | hb
      · exact ⟨a, List.mem_cons_self, hba.1.symm, hba.2⟩
      · obtain ⟨a', ha', hrest⟩ := ih hb
        exact ⟨a', List.mem_cons_of_mem a ha', hrest⟩
  obtain ⟨a, ha, rfl, hrel⟩ := hcopy
  rwa [List.inj_on_of_nodup_map hkeys' ha hv' rfl] at hrel

end

/-! ## Looking at spellings -/

variable {literal : Prop} {site site' : Site} {visit visit' : Visit} {pairs' : List Pair}
  {as' : Assignment} {start stop start' stop' : Nat}

/-- The same properties are found in two spellings, with copies of the same values. -/
theorem valuesAlike_of_spells (start stop start' stop' : Nat) (hs : Static s)
    (hobject : s.isObject) (hsep : Separate ctx s)
    (h : Spells ctx s [] pairs as) (h' : Spells ctx s [] pairs' as')
    (hkeys : (as.map Prod.fst).Nodup)
    (hsame : SameAssignment literal site.source site'.source as as')
    (hv : ∀ m m' : Node, m.Copy literal site.source site'.source m' →
      m.height < (Node.map pairs start stop).height →
      m.height < (Node.map pairs' start' stop').height →
      VisitedAlike literal site site' visit visit' m m')
    {e : String × Property} (he : e ∈ nestedProperties ctx s) (ctx₁ ctx₂ : Context) :
    List.Forall₂ (ValuesAlike literal site site' visit visit') (propertyPairs ctx₁ e.1 e.2 pairs)
      (propertyPairs ctx₂ e.1 e.2 pairs') := by
  have hnames : ∀ ctx' pairs,
      propertyPairs ctx' e.1 e.2 pairs = propertyPairs ctx e.1 e.2 pairs := by
    intro ctx' pairs
    unfold propertyPairs
    rw [names_eq ((static_of_mem_nestedProperties hs he).aliases ctx' ctx)]
  have hkeys' := hsame.keys_perm.nodup hkeys
  rw [hnames ctx₁, hnames ctx₂]
  rcases propertyPairs_of_spells hs hobject hsep h hkeys he with
    ⟨hnone, hkey⟩ | ⟨pair, hpair, hmem⟩ <;>
  rcases propertyPairs_of_spells hs hobject hsep h' hkeys' he with
    ⟨hnone', hkey'⟩ | ⟨pair', hpair', hmem'⟩
  · rw [hnone, hnone']
    exact .nil
  · exact absurd (hsame.keys_perm.mem_iff.mpr (List.mem_map_of_mem hmem')) hkey
  · exact absurd (hsame.keys_perm.mem_iff.mp (List.mem_map_of_mem hmem)) hkey'
  · rw [hpair, hpair']
    refine .cons ?_ .nil
    refine optionRel_imp (hsame.value hkeys hmem hmem') fun m m' hm hm' hcopy => ?_
    refine hv m m' hcopy ?_ ?_
    · exact height_value_of_mem_propertyPairs (hpair ▸ List.mem_singleton_self pair) hm
    · rw [hcopy.height_eq]
      exact height_value_of_mem_propertyPairs (hpair' ▸ List.mem_singleton_self pair') hm'

/-- **All spellings of an assignment are looked at alike**, if the checks of the values treat
copies alike wherever they stand. The checks that the object itself brings along may do anything
with a map, so they have to agree about the two. -/
theorem alike_spellings {info : SchemaInfo} {properties : Context → List (String × Property)}
    (hs : Static (.object info properties)) (hsep : Separate ctx (.object info properties))
    (hleaves : ∀ e ∈ flatProperties (.object info properties) ctx, ∀ ctx',
      All (Uniform literal) (e.2.schema ctx'))
    (hsite : site.Alike site') (h : Spells ctx (.object info properties) [] pairs as)
    (h' : Spells ctx (.object info properties) [] pairs' as') (hkeys : (as.map Prod.fst).Nodup)
    (hsame : SameAssignment literal site.source site'.source as as')
    (hlocal : site.SameOutcome site'
      (runChecks (info.localChecks (.ofNode site (.map pairs start stop))) site
        (.map pairs start stop))
      (runChecks (info.localChecks (.ofNode site' (.map pairs' start' stop'))) site'
        (.map pairs' start' stop')))
    (hreferences : site.SameOutcome site'
      (runChecks (info.referenceChecks (.ofNode site (.map pairs start stop))) site
        (.map pairs start stop))
      (runChecks (info.referenceChecks (.ofNode site' (.map pairs' start' stop'))) site'
        (.map pairs' start' stop'))) :
    site.SameOutcome site' (check (.object info properties) site (.map pairs start stop))
        (check (.object info properties) site' (.map pairs' start' stop')) ∧
      site.SameOutcome site' (resolve (.object info properties) site (.map pairs start stop))
        (resolve (.object info properties) site' (.map pairs' start' stop')) := by
  have hflat := fun ctx' => flatProperties_of_static hs rfl ctx' ctx
  rw [hflat] at hleaves
  refine ⟨Site.SameOutcome.append ?_ hlocal, Site.SameOutcome.append ?_ hreferences⟩
  · refine alike_checkMap_of (h.requireTextKeys.trans h'.requireTextKeys.symm)
      ((hflat _).trans (hflat _).symm) (fun e he => ?_) ?_ .empty
    · rw [hflat] at he
      have hp := static_of_mem_nestedProperties hs he
      refine alike_checkProperty hsite hp.uniform (hleaves e he) (hp.required _ _) ?_
      refine valuesAlike_of_spells start stop start' stop' hs rfl hsep h h' hkeys hsame
        (fun m m' hm hlt hlt' => ?_) he _ _
      exact ⟨hm, fun t ht => alike_checkWithin hsite ht hm hlt hlt'⟩
    · rw [sweep_of_spells hs rfl h, sweep_of_spells hs rfl h']
      exact .ok .empty
  · refine alike_resolveMap_of ((hflat _).trans (hflat _).symm) fun e he => ?_
    rw [hflat] at he
    have hp := static_of_mem_nestedProperties hs he
    refine alike_resolveProperty hsite hp.uniform (hleaves e he) ?_
    refine valuesAlike_of_spells start stop start' stop' hs rfl hsep h h' hkeys hsame
      (fun m m' hm hlt hlt' => ?_) he _ _
    exact ⟨hm, fun t ht => alike_resolveWithin hsite ht hm hlt hlt'⟩

/-! ## A sample -/

/-- A string `B`, or `Y`, and a number `C`. -/
def innerSample : List (String × Property) :=
  [("B", { schema := fun _ => anyString, aliases := fun _ => some ["Y"] }),
    ("C", { schema := fun _ => .number {} {} })]

/-- The same nested under `A`, or `X`. -/
def outerSample : List (String × Property) :=
  [("A", { schema := fun _ => .object {} fun _ => innerSample, aliases := fun _ => some ["X"] })]

/-- A document with a text. -/
def sampleSite (text : String) : Site :=
  ⟨{}, {}, [], "file:///sample.yml", .ofString text, none⟩

/-- The scalar `text`, a plain string that starts at `start`. -/
def sampleScalar (text : String) (start : Nat) : Scalar :=
  .ofString text start (start + text.length)

theorem static_sample : Static (.object {} fun _ => outerSample) := by
  have hinner : Static (.object {} fun _ => innerSample) := by
    refine .object (fun _ => rfl) (by decide) ?_ ?_ ?_
    · exact List.forall_mem_cons.mpr
        ⟨⟨fun _ _ => rfl, fun _ _ => rfl, fun _ _ => rfl, fun _ _ => rfl⟩,
          List.forall_mem_singleton.mpr
            ⟨fun _ _ => rfl, fun _ _ => rfl, fun _ _ => rfl, fun _ _ => rfl⟩⟩
    · exact List.forall_mem_cons.mpr ⟨fun _ => (by decide : ∀ w ∈ ["B", "Y"], DotFree w),
        List.forall_mem_singleton.mpr fun _ => (by decide : ∀ w ∈ ["C"], DotFree w)⟩
    · exact List.forall_mem_cons.mpr ⟨fun _ => .other rfl,
        List.forall_mem_singleton.mpr fun _ => .other rfl⟩
  refine .object (fun _ => rfl) (by decide) ?_ ?_ ?_
  · exact List.forall_mem_singleton.mpr
      ⟨fun _ _ => rfl, fun _ _ => rfl, fun _ _ => rfl, fun _ _ => rfl⟩
  · exact List.forall_mem_singleton.mpr fun _ => (by decide : ∀ w ∈ ["A", "X"], DotFree w)
  · exact List.forall_mem_singleton.mpr fun _ => hinner

theorem uniform_const {α : Type} (a : α) (aliases : Option (List String)) :
    PropertyOf.Uniform (α := α) True { schema := fun _ => a, aliases := fun _ => aliases } :=
  ⟨steady_const _, steady_const _, steady_const _, steady_const _⟩

theorem uniform_sample (ctx : Context) :
    ∀ e ∈ flatProperties (.object {} fun _ => outerSample) ctx, ∀ ctx',
      All (Uniform True) (e.2.schema ctx') := by
  have hinfo : SchemaInfo.Uniform True {} := ⟨steady_const _, uniformChecks_nil, uniformChecks_nil⟩
  have hinner : All (Uniform True) (.object {} fun _ => innerSample) := by
    refine .intro ⟨hinfo, steady_const _, fun _ => ?_⟩ ?_
    · exact List.forall_mem_cons.mpr ⟨uniform_const _ _,
        List.forall_mem_singleton.mpr (uniform_const _ none)⟩
    · rintro t ⟨_, e, he, _, rfl⟩
      rcases List.mem_cons.mp he with rfl | he
      · exact .intro ⟨hinfo, steady_const _, steady_const _⟩ fun _ h => h.elim
      · rw [List.mem_singleton.mp he]
        refine .intro ⟨hinfo, ?_⟩ fun _ h => h.elim
        exact ⟨steady_const _, steady_const _, steady_const _, steady_const _, steady_const _⟩
  refine fun e he ctx' => all_of_mem_flatProperties ?_ he ctx'
  rintro t ⟨_, e, he, _, rfl⟩
  rw [List.mem_singleton.mp he]
  exact hinner

/-- The pairs of the document `X.C: one`, `A.Y: y`. -/
def dottedSample : List Pair :=
  [⟨.scalar (sampleScalar "X.C" 0), some (.scalar (sampleScalar "one" 5)), none⟩,
    ⟨.scalar (sampleScalar "A.Y" 9), some (.scalar (sampleScalar "y" 14)), none⟩]

/-- The pairs of the document with `B: y` and `C: one` below `A`. -/
def nestedSample : List Pair :=
  [⟨.scalar (sampleScalar "A" 0), some (.map
    [⟨.scalar (sampleScalar "B" 5), some (.scalar (sampleScalar "y" 8)), none⟩,
      ⟨.scalar (sampleScalar "C" 12), some (.scalar (sampleScalar "one" 15)), none⟩] 5 18), none⟩]

/-- What the pairs assign to the properties, by the places of the values. -/
def sampleAssignment (b c : Nat) : Assignment :=
  [("A" ++ "." ++ "B", some (.scalar (sampleScalar "y" b))),
    ("A" ++ "." ++ "C", some (.scalar (sampleScalar "one" c)))]

/-- The object is spelt with dotted keys and with nested maps, by different names and in another
order. -/
theorem alike_dotted_nested :
    (sampleSite "X.C: one\nA.Y: y").SameOutcome (sampleSite "A:\n  B: y\n  C: one")
        (check (.object {} fun _ => outerSample) (sampleSite "X.C: one\nA.Y: y")
          (.map dottedSample 0 15))
        (check (.object {} fun _ => outerSample) (sampleSite "A:\n  B: y\n  C: one")
          (.map nestedSample 0 18)) ∧
      (sampleSite "X.C: one\nA.Y: y").SameOutcome (sampleSite "A:\n  B: y\n  C: one")
        (resolve (.object {} fun _ => outerSample) (sampleSite "X.C: one\nA.Y: y")
          (.map dottedSample 0 15))
        (resolve (.object {} fun _ => outerSample) (sampleSite "A:\n  B: y\n  C: one")
          (.map nestedSample 0 18)) := by
  let ctx : Context := ⟨sampleSite "", none, none⟩
  have hseparate : Separate ctx (.object {} fun _ => outerSample) := by
    unfold Separate
    decide
  have hsite : (sampleSite "X.C: one\nA.Y: y").Alike (sampleSite "A:\n  B: y\n  C: one") :=
    ⟨rfl, rfl, rfl, rfl⟩
  have hb : ∀ w ∈ ["A", "X"], ∀ v ∈ ["B", "Y"],
      Leads ctx (.object {} fun _ => outerSample) [w, v] ("A" ++ "." ++ "B") := fun w hw v hv =>
    .nested (List.mem_singleton_self _) hw (.property List.mem_cons_self hv rfl)
  have hc : ∀ w ∈ ["A", "X"],
      Leads ctx (.object {} fun _ => outerSample) [w, "C"] ("A" ++ "." ++ "C") := fun w hw =>
    .nested (List.mem_singleton_self _) hw
      (.property (List.mem_cons_of_mem _ (List.mem_singleton_self _)) List.mem_cons_self rfl)
  have hdotted : Spells ctx (.object {} fun _ => outerSample) [] dottedSample
      (sampleAssignment 14 5).reverse :=
    .property ["X", "C"] (by simp) (by decide) (hc "X" (by simp))
      (.property ["A", "Y"] (by simp) (by decide) (hb "A" (by simp) "Y" (by simp)) (.nil []))
  have hnested : Spells ctx (.object {} fun _ => outerSample) [] nestedSample
      (sampleAssignment 8 15 ++ []) :=
    .parent ["A"] (by simp) rfl ⟨["B"], _, by simp, hb "A" (by simp) "B" (by simp)⟩
      (.property ["B"] (by simp) rfl (hb "A" (by simp) "B" (by simp))
        (.property ["C"] (by simp) rfl (hc "A" (by simp)) (.nil _))) (.nil [])
  have hsame : SameAssignment True (sampleSite "X.C: one\nA.Y: y").source
      (sampleSite "A:\n  B: y\n  C: one").source (sampleAssignment 14 5).reverse
      (sampleAssignment 8 15) := by
    refine ⟨sampleAssignment 14 5, List.reverse_perm _, .cons ⟨rfl, .some (.scalar ?_)⟩
      (.cons ⟨rfl, .some (.scalar ?_)⟩ .nil)⟩
    · exact ⟨rfl, rfl, fun _ => ⟨rfl, fun _ => rfl, fun _ => by decide⟩⟩
    · exact ⟨rfl, rfl, fun _ => ⟨rfl, fun _ => rfl, fun _ => by decide⟩⟩
  exact alike_spellings static_sample hseparate (uniform_sample ctx) hsite hdotted hnested
    (by decide) hsame (.ok .empty) (.ok .empty)

/-! ## A check that looks around -/

/-- An id and items below it. -/
def holderProperties : List (String × Property) :=
  [("Id", { schema := fun _ => anyString }), ("I", { schema := fun _ => Pack.itemSchema })]

/-- An object with such a holder under `A`. -/
def holderSample : Schema :=
  .object {} fun _ => [("A", { schema := fun _ => .object {} fun _ => holderProperties })]

/-- The map that starts at `start` with an item `x` in it, which has potion effects. -/
def effectsSample (start : Nat) : Node :=
  .map [⟨.scalar (sampleScalar "x" (start + 1)), some (.map
    [⟨.scalar (sampleScalar "PotionEffects" (start + 5)),
      some (.seq [] (start + 20) (start + 22)), none⟩] (start + 4) (start + 23)), none⟩]
    start (start + 24)

/-- The pairs of a document with `Id` and `I` in a map below `A`. -/
def holderBelow : List Pair :=
  [⟨.scalar (sampleScalar "A" 0), some (.map
    [⟨.scalar (sampleScalar "Id" 4), some (.scalar (sampleScalar "stick" 8)), none⟩,
      ⟨.scalar (sampleScalar "I" 15), some (effectsSample 18), none⟩] 3 43), none⟩]

/-- The pairs of a document with the keys `A.Id` and `A.I`. -/
def holderBehind : List Pair :=
  [⟨.scalar (sampleScalar "A.Id" 0), some (.scalar (sampleScalar "stick" 6)), none⟩,
    ⟨.scalar (sampleScalar "A.I" 12), some (effectsSample 17), none⟩]

/-- What the pairs assign to the properties, by the places of the values. -/
def holderAssignment (id items : Nat) : Assignment :=
  [("A" ++ "." ++ "Id", some (.scalar (sampleScalar "stick" id))),
    ("A" ++ "." ++ "I", some (effectsSample items))]

/-- A document with a text, of which the pairs are known. -/
def holderSite (text : String) (pairs : List Pair) (stop : Nat) : Site :=
  { sampleSite text with tree := some (.map pairs 0 stop) }

theorem static_holder : Static holderSample := by
  have hinner : Static (.object {} fun _ => holderProperties) := by
    refine .object (fun _ => rfl) (by decide) ?_ ?_ ?_
    · exact List.forall_mem_cons.mpr
        ⟨⟨fun _ _ => rfl, fun _ _ => rfl, fun _ _ => rfl, fun _ _ => rfl⟩,
          List.forall_mem_singleton.mpr
            ⟨fun _ _ => rfl, fun _ _ => rfl, fun _ _ => rfl, fun _ _ => rfl⟩⟩
    · exact List.forall_mem_cons.mpr ⟨fun _ => (by decide : ∀ w ∈ ["Id"], DotFree w),
        List.forall_mem_singleton.mpr fun _ => (by decide : ∀ w ∈ ["I"], DotFree w)⟩
    · exact List.forall_mem_cons.mpr ⟨fun _ => .other rfl,
        List.forall_mem_singleton.mpr fun _ => .other rfl⟩
  refine .object (fun _ => rfl) (by decide) ?_ ?_ ?_
  · exact List.forall_mem_singleton.mpr
      ⟨fun _ _ => rfl, fun _ _ => rfl, fun _ _ => rfl, fun _ _ => rfl⟩
  · exact List.forall_mem_singleton.mpr fun _ => (by decide : ∀ w ∈ ["A"], DotFree w)
  · exact List.forall_mem_singleton.mpr fun _ => hinner

/-- The check of potion effects looks for an id in the outermost map around them, which the item
stands in with one of two spellings only. -/
theorem unlike_spellings :
    let ctx : Context := ⟨sampleSite "", none, none⟩
    let site := holderSite
      "A: \x7bId: stick, I: \x7bx: \x7bPotionEffects: []\x7d\x7d\x7d" holderBelow 43
    let site' := holderSite
      "A.Id: stick\nA.I: \x7bx: \x7bPotionEffects: []\x7d\x7d" holderBehind 41
    Static holderSample ∧ Separate ctx holderSample ∧ site.Alike site' ∧
      Spells ctx holderSample [] holderBelow (holderAssignment 8 18) ∧
      Spells ctx holderSample [] holderBehind (holderAssignment 6 17) ∧
      SameAssignment True site.source site'.source (holderAssignment 8 18)
        (holderAssignment 6 17) ∧
      ((check holderSample site (.map holderBelow 0 43)).toOption.map fun r =>
        r.diagnostics.map (·.code)) = some [.invalidPotionEffects] ∧
      ((check holderSample site' (.map holderBehind 0 41)).toOption.map fun r =>
        r.diagnostics.map (·.code)) = some [] := by
  intro ctx site site'
  have hid : Leads ctx holderSample ["A", "Id"] ("A" ++ "." ++ "Id") :=
    .nested (List.mem_singleton_self _) List.mem_cons_self
      (.property List.mem_cons_self List.mem_cons_self rfl)
  have hitems : Leads ctx holderSample ["A", "I"] ("A" ++ "." ++ "I") :=
    .nested (List.mem_singleton_self _) List.mem_cons_self
      (.property (List.mem_cons_of_mem _ (List.mem_singleton_self _)) List.mem_cons_self rfl)
  have hbelow : Spells ctx holderSample [] holderBelow (holderAssignment 8 18 ++ []) :=
    .parent ["A"] (by simp) rfl ⟨["Id"], _, by simp, hid⟩
      (.property ["Id"] (by simp) rfl hid (.property ["I"] (by simp) rfl hitems (.nil _))) (.nil [])
  refine ⟨static_holder, ?_, ⟨rfl, rfl, rfl, rfl⟩, hbelow, ?_, ?_, by decide +kernel,
    by decide +kernel⟩
  · unfold Separate
    decide
  · exact .property ["A", "Id"] (by simp) (by decide) hid
      (.property ["A", "I"] (by simp) (by decide) hitems (.nil []))
  · have heffects : (effectsSample 18).Copy True site.source site'.source (effectsSample 17) := by
      refine .map _ _ _ _ (.cons (.intro _ (.scalar ?_) (.some (.map _ _ _ _ (.cons
        (.intro _ (.scalar ?_) (.some (.seq _ _ _ _ .nil))) .nil)))) .nil)
      · exact ⟨rfl, rfl, fun _ => ⟨rfl, fun _ => rfl, fun _ => by decide⟩⟩
      · exact ⟨rfl, rfl, fun _ => ⟨rfl, fun _ => rfl, fun _ => by decide⟩⟩
    refine ⟨_, .refl _, .cons ⟨rfl, .some (.scalar ?_)⟩ (.cons ⟨rfl, .some heffects⟩ .nil)⟩
    exact ⟨rfl, rfl, fun _ => ⟨rfl, fun _ => rfl, fun _ => by decide⟩⟩

end Schema

end PackLint
