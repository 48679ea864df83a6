import PackLint.Proofs.Schema.Alike
import PackLint.Proofs.Schema.Levels

/-!
# Copies are looked at alike

A uniform schema says the same of a node and of its copies, in other documents and at other places,
in the local checks as well as where references are resolved. Both look at a node and at what stands
below it, so that what is said of the parts carries over to the whole.

Results:
* `Schema.alike_checkMap_of`, `Schema.alike_resolveMap_of`: maps are looked at alike if their
  properties are.
* `Schema.alike_check`, `Schema.alike_resolve`: copies of a node are looked at alike.
-/

namespace PackLint

variable {literal : Prop} {site site' : Site} {n n' : Node}

namespace Schema

variable {s : Schema} {visit visit' : Visit}

/-! ## Scalars and lists -/

theorem alike_wrongType (hs : All (Uniform literal) s) (hsite : site.Alike site')
    (hn : n.Copy literal site.source site'.source n') :
    Report.Alike site.source site'.source (s.wrongType site n) (s.wrongType site' n') := by
  unfold wrongType
  rw [typeName_eq hs (Context.alike_ofNode hsite hn)]
  exact alike_problem _ _ _ _

theorem alike_checkBool (hs : All (Uniform literal) s) (hsite : site.Alike site')
    (hn : n.Copy literal site.source site'.source n') :
    Report.Alike site.source site'.source (s.checkBool site n) (s.checkBool site' n') := by
  cases hn with
  | @scalar scalar scalar' h =>
    obtain ⟨value, text, start, stop, style⟩ := scalar
    obtain ⟨value', text', start', stop', style'⟩ := scalar'
    obtain rfl : value = value' := h.value
    cases value with
    | bool => exact alike_highlight? _ _ _ _
    | _ => exact alike_problem_quoting _ _ _ _ _
  | seq start stop start' stop' h => exact alike_wrongType hs hsite (.seq start stop start' stop' h)
  | map start stop start' stop' h => exact alike_wrongType hs hsite (.map start stop start' stop' h)

theorem alike_checkNumber (hs : All (Uniform literal) s) {rule : NumberRule}
    (hrule : rule.Uniform literal) (hsite : site.Alike site')
    (hn : n.Copy literal site.source site'.source n') :
    site.SameOutcome site' (s.checkNumber rule site n) (s.checkNumber rule site' n') := by
  have hwrong : site.SameOutcome site' (.ok (s.wrongType site n)) (.ok (s.wrongType site' n')) :=
    .ok (alike_wrongType hs hsite hn)
  have hctx := Context.alike_ofNode hsite hn
  cases hn with
  | @scalar scalar scalar' h =>
    obtain ⟨value, text, start, stop, style⟩ := scalar
    obtain ⟨value', text', start', stop', style'⟩ := scalar'
    obtain rfl : value = value' := h.value
    cases value with
    | number x =>
      simp only [checkNumber]
      rw [violation?_steady hrule.steady hctx]
      cases rule.violation? _ x with
      | error fault => exact .error fault
      | ok problem =>
        cases problem with
        | none => exact .ok (alike_highlight? _ _ _ _)
        | some problem => exact .ok (alike_problem _ _ _ _)
    | _ => exact hwrong
  | _ => exact hwrong

theorem alike_checkString (hs : All (Uniform literal) s) {rule : StringRule}
    (hrule : rule.Uniform literal) (hsite : site.Alike site')
    (hn : n.Copy literal site.source site'.source n') :
    Report.Alike site.source site'.source (s.checkString rule site n)
      (s.checkString rule site' n') := by
  have hwrong := alike_wrongType hs hsite hn
  have hctx := Context.alike_ofNode hsite hn
  cases hn with
  | scalar h =>
    refine alike_stringCheck ?_
    rw [string_eq h]
    exact mismatch?_congr _ _ hsite.settings (hrule.matcher _ _ hctx) (hrule.caseSensitive _ _ hctx)
      (hs.self.1.name _ _ hctx) _
  | _ => exact hwrong

theorem alike_checkLength (n n' : Node) (expected actual : Nat) :
    Report.Alike site.source site'.source (checkLength site n expected actual)
      (checkLength site' n' expected actual) := by
  unfold checkLength
  split
  · exact .empty
  · exact alike_problem _ _ _ _

theorem alike_repeated {items items' : List Node}
    (h : List.Forall₂ (Node.Copy literal site.source site'.source) items items')
    (earlier : List Value) :
    List.Forall₂ (Report.Alike site.source site'.source) (repeated site earlier items)
      (repeated site' earlier items') := by
  induction h generalizing earlier with
  | nil => exact .nil
  | @cons m m' items items' hm _ ih =>
    simp only [repeated]
    rw [hm.toValue_eq]
    refine .cons ?_ (ih _)
    split <;> split
    · exact alike_problem_quoting _ _ _ _ _
    · exact .empty
    · exact alike_problem_quoting _ _ _ _ _
    · exact .empty

theorem alike_checkRepeated {items items' : List Node}
    (h : List.Forall₂ (Node.Copy literal site.source site'.source) items items') :
    site.SameOutcome site' (checkRepeated site items) (checkRepeated site' items') := by
  have hall : items.all (·.hasTextKeys) = items'.all (·.hasTextKeys) := by
    induction h with
    | nil => rfl
    | cons hm _ ih => rw [List.all_cons, List.all_cons, hm.hasTextKeys_eq, ih]
  unfold checkRepeated
  rw [hall]
  split
  · exact .ok (.mergeAll (alike_repeated h []))
  · exact .error _

/-! ## Visits -/

/-- A node and its copy are visited alike with every uniform schema. -/
structure VisitedAlike (literal : Prop) (site site' : Site) (visit visit' : Visit) (n n' : Node) :
    Prop where
  copy : n.Copy literal site.source site'.source n'
  visits : ∀ t, All (Uniform literal) t → site.SameOutcome site' (visit t n) (visit' t n')

/-- Copies of all nodes that are less high than `height` are visited alike. -/
def AlikeBelow (literal : Prop) (site site' : Site) (visit visit' : Visit) (height : Nat) : Prop :=
  ∀ m m' : Node, m.Copy literal site.source site'.source m' → m.height < height →
    VisitedAlike literal site site' visit visit' m m'

theorem AlikeBelow.items {items items' : List Node} {start stop : Nat}
    (hv : AlikeBelow literal site site' visit visit' (Node.seq items start stop).height)
    (h : List.Forall₂ (Node.Copy literal site.source site'.source) items items') :
    List.Forall₂ (VisitedAlike literal site site' visit visit') items items' := by
  have hmem := (List.forall₂_and_left (p := (· ∈ items)) _ _).mpr ⟨fun _ hm => hm, h⟩
  exact hmem.imp fun m m' hm => hv m m' hm.2 (Node.height_item_lt hm.1 start stop)

theorem alike_mapM_visit {items items' : List Node}
    (h : List.Forall₂ (VisitedAlike literal site site' visit visit') items items') {t : Schema}
    (ht : All (Uniform literal) t) :
    Except.Rel (List.Forall₂ (Report.Alike site.source site'.source)) (items.mapM (visit t))
      (items'.mapM (visit' t)) :=
  .mapM (h.imp fun _ _ hm => hm.visits t ht)

theorem alike_mapM_zip {items items' : List Node}
    (h : List.Forall₂ (VisitedAlike literal site site' visit visit') items items')
    {ts : List Schema} (hts : ∀ t ∈ ts, All (Uniform literal) t) :
    Except.Rel (List.Forall₂ (Report.Alike site.source site'.source))
      ((ts.zip items).mapM fun (t, m) => visit t m)
      ((ts.zip items').mapM fun (t, m) => visit' t m) := by
  refine .mapM ?_
  induction h generalizing ts with
  | nil =>
    rw [List.zip_nil_right]
    exact .nil
  | @cons m m' items items' hm _ ih =>
    cases ts with
    | nil => exact .nil
    | cons t ts =>
      refine .cons (hm.visits t (hts t List.mem_cons_self)) ?_
      exact ih fun u hu => hts u (List.mem_cons_of_mem t hu)

theorem alike_checkItems {items items' : List Node}
    (h : List.Forall₂ (VisitedAlike literal site site' visit visit') items items')
    {rule : ItemsOf Schema} (hrule : ∀ t ∈ rule.schemas, All (Uniform literal) t) (n n' : Node) :
    site.SameOutcome site' (checkItems visit site n items rule)
      (checkItems visit' site' n' items' rule) := by
  cases rule with
  | anything => exact .ok .empty
  | each t =>
    have ht := hrule t (List.mem_singleton_self t)
    exact (alike_mapM_visit h ht).bind fun _ _ hreports => .ok (.mergeAll hreports)
  | inOrder ts =>
    refine (alike_mapM_zip h hrule).bind fun _ _ hreports => .ok ?_
    rw [h.length_eq]
    exact (alike_checkLength _ _ _ _).merge (.mergeAll hreports)

theorem alike_checkList (hs : All (Uniform literal) s) (hsite : site.Alike site')
    (hn : n.Copy literal site.source site'.source n')
    (hv : AlikeBelow literal site site' visit visit' n.height) {rule : ItemsOf Schema}
    (hrule : ∀ t ∈ rule.schemas, All (Uniform literal) t) (allowDuplicates : Bool) :
    site.SameOutcome site' (checkList visit s rule allowDuplicates site n)
      (checkList visit' s rule allowDuplicates site' n') := by
  have hwrong : site.SameOutcome site' (.ok (s.wrongType site n)) (.ok (s.wrongType site' n')) :=
    .ok (alike_wrongType hs hsite hn)
  cases hn with
  | seq start stop start' stop' h =>
    refine (alike_checkItems (hv.items h) hrule _ _).bind fun r r' hr => ?_
    cases allowDuplicates with
    | true => exact .ok hr
    | false => exact (alike_checkRepeated h).bind fun _ _ hrepeated => .ok (hr.merge hrepeated)
  | _ => exact hwrong

/-! ## Properties -/

/-- The values of two pairs are visited alike, or both pairs have none. -/
def ValuesAlike (literal : Prop) (site site' : Site) (visit visit' : Visit) (p p' : Pair) : Prop :=
  Option.Rel (VisitedAlike literal site site' visit visit') p.value p'.value

theorem ValuesAlike.context {p p' : Pair} (h : ValuesAlike literal site site' visit visit' p p')
    (hsite : site.Alike site') : (Context.ofPair site p).Alike literal (.ofPair site' p') :=
  Context.alike_ofPair hsite (optionRel_imp h fun _ _ _ _ hv => hv.copy)

theorem alike_checkPair (hsite : site.Alike site') {p : Property} (hp : p.Uniform literal)
    (hschema : ∀ ctx, All (Uniform literal) (p.schema ctx)) {pair pair' : Pair}
    (h : ValuesAlike literal site site' visit visit' pair pair') (key : String) :
    site.SameOutcome site' (checkPair visit site key p pair)
      (checkPair visit' site' key p pair') := by
  have hctx := h.context hsite
  unfold checkPair
  simp only
  rw [← hp.schema _ _ hctx,
    hoverText_steady hp.steady ((hschema _).imp fun _ => Uniform.steady) hctx]
  unfold ValuesAlike at h
  generalize pair.value = v, pair'.value = v' at h
  cases h with
  | none => exact .ok (alike_problem _ _ _ _)
  | some h =>
    exact (h.visits _ (hschema _)).bind fun _ _ hr => .ok (.merge (.ofHover rfl) hr)

theorem alike_checkProperty (hsite : site.Alike site') {p : Property} (hp : p.Uniform literal)
    (hschema : ∀ ctx, All (Uniform literal) (p.schema ctx)) {key : String}
    {pairs pairs' : List Pair}
    (hrequired : p.required (.ofNode site n) = p.required (.ofNode site' n'))
    (hfound : List.Forall₂ (ValuesAlike literal site site' visit visit')
      (propertyPairs (.ofNode site n) key p pairs)
      (propertyPairs (.ofNode site' n') key p pairs')) :
    site.SameOutcome site' (checkProperty visit site n pairs key p)
      (checkProperty visit' site' n' pairs' key p) := by
  unfold checkProperty
  simp only
  generalize propertyPairs (.ofNode site n) key p pairs = found,
    propertyPairs (.ofNode site' n') key p pairs' = found' at hfound
  have hlength := hfound.length_eq
  by_cases hempty : found.isEmpty
  · have hempty' : found'.isEmpty := by
      rw [List.isEmpty_iff_length_eq_zero] at hempty ⊢
      omega
    rw [if_pos hempty, if_pos hempty']
    refine .ok ?_
    unfold missingProperty
    rw [hrequired]
    split
    · exact alike_problem _ _ _ _
    · exact .empty
  · have hempty' : ¬ found'.isEmpty := by
      rw [List.isEmpty_iff_length_eq_zero] at hempty ⊢
      omega
    rw [if_neg hempty, if_neg hempty', hlength]
    refine (Except.Rel.mapM (hfound.imp fun _ _ h => alike_checkPair hsite hp hschema h key)).bind
      fun _ _ hreports => .ok (.mergeAll (List.rel_append ?_ hreports))
    split
    · exact List.rel_map (fun _ _ _ => alike_problem _ _ _ _) hfound
    · exact .nil

theorem AlikeBelow.findPairs {pairs pairs' : List Pair} {start stop : Nat}
    (hv : AlikeBelow literal site site' visit visit' (Node.map pairs start stop).height)
    (h : List.Forall₂ (KeyValue.Copy literal site.source site'.source) pairs pairs')
    (name : String) :
    List.Forall₂ (ValuesAlike literal site site' visit visit') (findPairs pairs name)
      (findPairs pairs' name) := by
  have hmem := (List.forall₂_and_left (p := (· ∈ PackLint.findPairs pairs name)) _ _).mpr
    ⟨fun _ hp => hp, findPairs_copy h name⟩
  refine hmem.imp fun p p' hp => ?_
  refine optionRel_imp hp.2.value fun m m' hm _ hcopy => hv m m' hcopy ?_
  exact Nat.lt_succ_of_le (height_value_of_mem_findPairs hp.1 hm)

theorem AlikeBelow.propertyPairs {pairs pairs' : List Pair} {start stop : Nat}
    (hv : AlikeBelow literal site site' visit visit' (Node.map pairs start stop).height)
    (h : List.Forall₂ (KeyValue.Copy literal site.source site'.source) pairs pairs') {p : Property}
    {ctx ctx' : Context} (hp : p.aliases ctx = p.aliases ctx') (key : String) :
    List.Forall₂ (ValuesAlike literal site site' visit visit') (propertyPairs ctx key p pairs)
      (propertyPairs ctx' key p pairs') := by
  unfold Schema.propertyPairs
  rw [names_eq hp]
  refine List.rel_flatMap (R := Eq) (List.forall₂_same.mpr fun _ _ => rfl) fun name _ heq => ?_
  subst heq
  exact hv.findPairs h name

/-! ## Maps -/

/-- The check of a map says what is said of its properties, of its keys and at its entries. -/
theorem alike_checkMap_of {pairs pairs' : List Pair} {start stop start' stop' : Nat}
    (hkeys : requireTextKeys pairs = requireTextKeys pairs')
    (hflat : s.flatProperties (.ofNode site (.map pairs start stop)) =
      s.flatProperties (.ofNode site' (.map pairs' start' stop')))
    (hproperties : ∀ e ∈ s.flatProperties (.ofNode site (.map pairs start stop)),
      site.SameOutcome site' (checkProperty visit site (.map pairs start stop) pairs e.1 e.2)
        (checkProperty visit' site' (.map pairs' start' stop') pairs' e.1 e.2))
    (hsweep : site.SameOutcome site'
      (site.sweep ((propertyNames (.ofNode site (.map pairs start stop))
        (s.flatProperties (.ofNode site (.map pairs start stop)))).map String.toList) []
        (.map pairs start stop))
      (site'.sweep ((propertyNames (.ofNode site' (.map pairs' start' stop'))
        (s.flatProperties (.ofNode site' (.map pairs' start' stop')))).map String.toList) []
        (.map pairs' start' stop')))
    (hhovers : Report.Alike site.source site'.source
      (s.entryHovers site (.map pairs start stop) pairs)
      (s.entryHovers site' (.map pairs' start' stop') pairs')) :
    site.SameOutcome site' (s.checkMap visit site (.map pairs start stop))
      (s.checkMap visit' site' (.map pairs' start' stop')) := by
  unfold checkMap
  simp only
  rw [hkeys, ← hflat] at *
  cases requireTextKeys pairs' with
  | error fault => exact .error fault
  | ok _ =>
    have hmapM := Except.Rel.mapM (List.forall₂_same.mpr hproperties)
    refine hmapM.bind fun rs rs' hrs => hsweep.bind fun r r' hr => .ok ?_
    exact ((Report.Alike.mergeAll hrs).merge hr).merge hhovers

theorem alike_entryHovers (hs : All (Uniform literal) s) (hsite : site.Alike site')
    (hn : n.Copy literal site.source site'.source n') {pairs pairs' : List Pair}
    (h : List.Forall₂ (KeyValue.Copy literal site.source site'.source) pairs pairs') :
    Report.Alike site.source site'.source (s.entryHovers site n pairs)
      (s.entryHovers site' n' pairs') := by
  cases s with
  | map info value describe =>
    obtain ⟨-, hvalue, hdescribe⟩ := hs.self
    unfold entryHovers
    simp only
    rw [hvalue _ _ (Context.alike_ofNode hsite hn)]
    split
    · refine .mergeAll (List.rel_map (R := KeyValue.Copy literal site.source site'.source) ?_ ?_)
      · intro p p' hp
        refine .ofHover ?_
        have htype := typeName_eq (hs.part ⟨.ofNode site' n', rfl⟩)
          (Context.alike_ofPair hsite hp.value)
        unfold hoverText
        simp only
        rw [hp.keyText_eq, hdescribe site site' p p' hsite hp, htype]
        rfl
      · refine List.rel_filter (fun p p' hp => ?_) h
        beta_reduce
        rw [hp.keyText_eq]
    · exact .empty
  | _ => exact .empty

theorem alike_checkMap (hs : All (Uniform literal) s) (hsite : site.Alike site')
    (hn : n.Copy literal site.source site'.source n')
    (hv : AlikeBelow literal site site' visit visit' n.height) :
    site.SameOutcome site' (s.checkMap visit site n) (s.checkMap visit' site' n') := by
  have hctx := Context.alike_ofNode hsite hn
  have hwrong : site.SameOutcome site' (.ok (s.wrongType site n)) (.ok (s.wrongType site' n')) :=
    .ok (alike_wrongType hs hsite hn)
  have hcopy := hn
  cases hn with
  | map start stop start' stop' h =>
    have hflat := flatProperties_eq hs hctx
    refine alike_checkMap_of (requireTextKeys_eq h) hflat ?_ ?_ (alike_entryHovers hs hsite hcopy h)
    · intro e he
      have hp := uniform_of_mem_flatProperties hs he
      refine alike_checkProperty hsite hp (all_of_mem_flatProperties hs.allParts he)
        (hp.required _ _ hctx) ?_
      exact hv.propertyPairs h (hp.aliases _ _ hctx) e.1
    · rw [← hflat, propertyNames_eq fun e he =>
        (uniform_of_mem_flatProperties hs he).aliases _ _ hctx]
      exact Site.alike_sweep hsite _ _ hcopy
  | _ => exact hwrong

/-! ## Local checks -/

theorem alike_checkStructure (hs : All (Uniform literal) s) (hsite : site.Alike site')
    (hn : n.Copy literal site.source site'.source n')
    (hv : AlikeBelow literal site site' visit visit' n.height) :
    site.SameOutcome site' (checkStructure visit s site n) (checkStructure visit' s site' n') := by
  have hctx := Context.alike_ofNode hsite hn
  cases s with
  | anything info => exact .ok .empty
  | bool info => exact .ok (alike_checkBool hs hsite hn)
  | number info rule => exact alike_checkNumber hs hs.self.2 hsite hn
  | string info rule => exact .ok (alike_checkString hs hs.self.2 hsite hn)
  | list info items allowDuplicates =>
    obtain ⟨-, hitems, hduplicates⟩ := hs.self
    unfold checkStructure
    simp only
    rw [hitems _ _ hctx, hduplicates _ _ hctx]
    exact alike_checkList hs hsite hn hv (fun t ht => hs.part ⟨_, ht⟩) _
  | skillList info triggers =>
    refine alike_checkList hs hsite hn hv (fun t ht => ?_) _
    exact hs.part (List.mem_singleton.mp ht)
  | object info properties => exact alike_checkMap hs hsite hn hv
  | map info value describe => exact alike_checkMap hs hsite hn hv

/-- **A uniform schema checks copies of a node alike.** -/
theorem alike_check (hs : All (Uniform literal) s) (hsite : site.Alike site')
    (hn : n.Copy literal site.source site'.source n') :
    site.SameOutcome site' (s.check site n) (s.check site' n') := by
  induction n using Node.height_induction generalizing s n' with
  | step n ih =>
    rw [check_eq, check_eq]
    refine Site.SameOutcome.append ?_ (hs.self.1.localChecks site site' n n' hsite hn)
    exact alike_checkStructure hs hsite hn fun m m' hm hlt => ⟨hm, fun t ht => ih m hlt ht hm⟩

theorem alike_checkWithin (hsite : site.Alike site') {levels levels' : Nat}
    (hs : All (Uniform literal) s) (hn : n.Copy literal site.source site'.source n')
    (h : n.height < levels) (h' : n.height < levels') :
    site.SameOutcome site' (checkWithin site levels s n) (checkWithin site' levels' s n') := by
  rw [checkWithin_eq_check h, checkWithin_eq_check (hn.height_eq ▸ h')]
  exact alike_check hs hsite hn

/-! ## References -/

theorem alike_resolveProperty (hsite : site.Alike site') {p : Property} (hp : p.Uniform literal)
    (hschema : ∀ ctx, All (Uniform literal) (p.schema ctx)) {found found' : List Pair}
    (hfound : List.Forall₂ (ValuesAlike literal site site' visit visit') found found') :
    site.SameOutcome site' (resolveProperty visit site found p)
      (resolveProperty visit' site' found' p) := by
  refine (Except.Rel.mapM (hfound.imp fun pair pair' h => ?_)).bind
    fun _ _ hreports => .ok (.mergeAll hreports)
  rw [← hp.schema _ _ (h.context hsite)]
  unfold ValuesAlike at h
  generalize pair.value = v, pair'.value = v' at h
  cases h with
  | none => exact .ok .empty
  | some h => exact h.visits _ (hschema _)

/-- References in a map are those in its properties. -/
theorem alike_resolveMap_of {pairs pairs' : List Pair} {start stop start' stop' : Nat}
    (hflat : s.flatProperties (.ofNode site (.map pairs start stop)) =
      s.flatProperties (.ofNode site' (.map pairs' start' stop')))
    (hproperties : ∀ e ∈ s.flatProperties (.ofNode site (.map pairs start stop)),
      site.SameOutcome site'
        (resolveProperty visit site
          (propertyPairs (.ofNode site (.map pairs start stop)) e.1 e.2 pairs) e.2)
        (resolveProperty visit' site'
          (propertyPairs (.ofNode site' (.map pairs' start' stop')) e.1 e.2 pairs') e.2)) :
    site.SameOutcome site' (s.resolveMap visit site (.map pairs start stop))
      (s.resolveMap visit' site' (.map pairs' start' stop')) := by
  unfold resolveMap
  simp only
  rw [← hflat, List.mapM_map, List.mapM_map]
  have hmapM := Except.Rel.mapM (List.forall₂_same.mpr hproperties)
  exact hmapM.bind fun _ _ hreports => .ok (.merge (.mergeAll hreports) (.of_mute ⟨rfl, rfl, rfl⟩
    ⟨rfl, rfl, rfl⟩))

theorem alike_resolveMap (hs : All (Uniform literal) s) (hsite : site.Alike site')
    (hn : n.Copy literal site.source site'.source n')
    (hv : AlikeBelow literal site site' visit visit' n.height) :
    site.SameOutcome site' (s.resolveMap visit site n) (s.resolveMap visit' site' n') := by
  have hctx := Context.alike_ofNode hsite hn
  cases hn with
  | map start stop start' stop' h =>
    refine alike_resolveMap_of (flatProperties_eq hs hctx) fun e he => ?_
    have hp := uniform_of_mem_flatProperties hs he
    refine alike_resolveProperty hsite hp (all_of_mem_flatProperties hs.allParts he) ?_
    exact hv.propertyPairs h (hp.aliases _ _ hctx) e.1
  | _ => exact .ok (.of_mute ⟨rfl, rfl, rfl⟩ ⟨rfl, rfl, rfl⟩)

theorem alike_resolveItems (hn : n.Copy literal site.source site'.source n')
    (hv : AlikeBelow literal site site' visit visit' n.height) {rule : ItemsOf Schema}
    (hrule : ∀ t ∈ rule.schemas, All (Uniform literal) t) :
    site.SameOutcome site' (resolveItems visit rule n) (resolveItems visit' rule n') := by
  cases hn with
  | seq start stop start' stop' h =>
    cases rule with
    | anything => exact .ok .empty
    | each t =>
      have ht := hrule t (List.mem_singleton_self t)
      exact (alike_mapM_visit (hv.items h) ht).bind fun _ _ hreports => .ok (.mergeAll hreports)
    | inOrder ts =>
      exact (alike_mapM_zip (hv.items h) hrule).bind fun _ _ hreports => .ok (.mergeAll hreports)
  | _ => exact .ok .empty

theorem alike_skillLines (hliteral : literal) (hsite : site.Alike site')
    (hn : n.Copy literal site.source site'.source n')
    (supportsTriggers : Bool) :
    Report.Alike site.source site'.source (skillLines supportsTriggers site n)
      (skillLines supportsTriggers site' n') := by
  cases hn with
  | seq start stop start' stop' h =>
    refine .mergeAll (List.rel_map (R := Scalar.WrittenAlike site.source site'.source) ?_ ?_)
    · exact fun s s' hs => alike_skillLine hsite hs supportsTriggers
    · refine List.rel_filterMap (fun m m' hm => ?_) h
      cases hm with
      | scalar hs => exact .some (hs.written hliteral)
      | _ => exact .none
  | _ => exact .empty

theorem alike_resolveStructure (hs : All (Uniform literal) s) (hsite : site.Alike site')
    (hn : n.Copy literal site.source site'.source n')
    (hv : AlikeBelow literal site site' visit visit' n.height) :
    site.SameOutcome site' (resolveStructure visit s site n)
      (resolveStructure visit' s site' n') := by
  have hctx := Context.alike_ofNode hsite hn
  cases s with
  | string info rule =>
    refine .ok ?_
    cases hn with
    | scalar => exact .of_mute (mute_complete _ _ _) (mute_complete _ _ _)
    | _ => exact .empty
  | list info items allowDuplicates =>
    unfold resolveStructure
    simp only
    rw [hs.self.2.1 _ _ hctx]
    exact alike_resolveItems hn hv fun t ht => hs.part ⟨_, ht⟩
  | skillList info triggers => exact .ok (alike_skillLines hs.self.2 hsite hn triggers)
  | object info properties => exact alike_resolveMap hs hsite hn hv
  | map info value describe => exact alike_resolveMap hs hsite hn hv
  | _ => exact .ok .empty

/-- **A uniform schema resolves the references in copies of a node alike.** -/
theorem alike_resolve (hs : All (Uniform literal) s) (hsite : site.Alike site')
    (hn : n.Copy literal site.source site'.source n') :
    site.SameOutcome site' (s.resolve site n) (s.resolve site' n') := by
  induction n using Node.height_induction generalizing s n' with
  | step n ih =>
    rw [resolve_eq, resolve_eq]
    refine Site.SameOutcome.append ?_ (hs.self.1.referenceChecks site site' n n' hsite hn)
    exact alike_resolveStructure hs hsite hn fun m m' hm hlt => ⟨hm, fun t ht => ih m hlt ht hm⟩

theorem alike_resolveWithin (hsite : site.Alike site') {levels levels' : Nat}
    (hs : All (Uniform literal) s) (hn : n.Copy literal site.source site'.source n')
    (h : n.height < levels) (h' : n.height < levels') :
    site.SameOutcome site' (resolveWithin site levels s n) (resolveWithin site' levels' s n') := by
  rw [resolveWithin_eq_resolve h, resolveWithin_eq_resolve (hn.height_eq ▸ h')]
  exact alike_resolve hs hsite hn

end Schema

end PackLint
