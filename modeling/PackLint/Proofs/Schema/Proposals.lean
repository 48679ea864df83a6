import PackLint.Proofs.Schema.Recognition
import PackLint.Schema.Resolve

/-!
# Proposals of an editor

The full look at a map proposes (`_completions`) the properties that the map lacks, in each map of
the document that may hold them; an unexpected key comes with a suggestion. Where no two properties
share a name, the proposals are sound: a key that is proposed makes exactly one missing property be
there, and a suggestion is a name of a property below the path of its map.

A proposed key is nothing that the schema itself would report. If the map stands in the value of
another property, the schema of this value looks at the key as well and may know nothing of it. And
if the value that is added with the key holds a property itself, two properties are there instead of
one.

Results:
* `Schema.mem_labels_offered`: which labels are proposed in a map.
* `Schema.mem_proposals`: what is proposed, and for which map.
* `Site.sweep_edited`: a pair that has a name of a property is passed over by the sweep.
* `Schema.proposals_sound`: adding a proposed key and taking up a suggestion.
* `Schema.two_held_shadowed`, `Schema.unexpected_shadowed`: why the value that is added must not
  hold a property, and that the schema of another property may find the key unexpected.
-/

namespace PackLint

open Node

/-! ## Proposed keys -/

namespace Schema

variable {ctx : Context} {names : List (List Char)} {missing : List (String × Property)}
  {front : List Char} {items : List CompletionItem} {item : CompletionItem} {label : String}

/-- The item proposes the property under one of its names, which begins with the path of the map. -/
def ProposedAs (ctx : Context) (front : List Char) (item : CompletionItem)
    (e : String × Property) : Prop :=
  String.ofList (front ++ item.label.toList) ∈ e.2.names e.1 ctx

/-- The labels of items. -/
def labels (items : List CompletionItem) : List String := items.map (·.label)

theorem mem_labels_append (item : CompletionItem) :
    label ∈ labels (items ++ [item]) ↔ label ∈ labels items ∨ label = item.label := by
  rw [labels, List.map_append, List.mem_append, List.map_singleton, List.mem_singleton, labels]

/-- A property adds the ends of its names that are a single segment behind the path of the map. -/
theorem mem_labels_addProposals {e : String × Property} :
    label ∈ labels (addProposals ctx front items e) ↔ label ∈ labels items ∨
      DotFree label ∧ String.ofList (front ++ label.toList) ∈ e.2.names e.1 ctx := by
  obtain ⟨key, p⟩ := e
  unfold addProposals
  simp only
  generalize p.names key ctx = ns
  induction ns generalizing items with
  | nil => simp
  | cons name ns ih =>
    have hname : String.ofList (front ++ label.toList) = name ↔
        name.toList = front ++ label.toList := by
      rw [← String.toList_inj, String.toList_ofList, eq_comm]
    rw [List.foldl_cons, ih, List.mem_cons, hname, and_or_left, ← or_assoc]
    refine or_congr_left ?_
    by_cases hprefix : front <+: name.toList
    · obtain ⟨rest, hrest⟩ := hprefix
      have hlabel : name.toList = front ++ label.toList ↔ label = String.ofList rest := by
        rw [← hrest, List.append_cancel_left_eq, ← String.toList_inj, String.toList_ofList, eq_comm]
      rw [hlabel]
      simp only [← hrest, List.drop_left, List.isPrefixOf_iff_prefix.mpr (List.prefix_append _ _),
        Bool.not_true, Bool.false_or]
      split
      · rename_i hdot
        refine (or_iff_left ?_).symm
        rintro ⟨hfree, rfl⟩
        exact hfree (by simpa using hdot)
      · rename_i hdot
        have hfree : DotFree (String.ofList rest) := by simpa [DotFree] using hdot
        have hadded : (DotFree label ∧ label = String.ofList rest) ↔ label = String.ofList rest :=
          and_iff_right_of_imp fun h => h ▸ hfree
        rw [hadded]
        split
        · rename_i hthere
          obtain ⟨item, hitem, hsame⟩ := List.any_eq_true.mp hthere
          refine (or_iff_left_of_imp fun h => ?_).symm
          exact List.mem_map.mpr ⟨item, hitem, (of_decide_eq_true hsame).trans h.symm⟩
        · exact mem_labels_append _
    · have hnot : ¬ name.toList = front ++ label.toList := fun h =>
        hprefix ⟨label.toList, h.symm⟩
      have hskip : front.isPrefixOf name.toList = false :=
        Bool.eq_false_iff.mpr fun h => hprefix (List.isPrefixOf_iff_prefix.mp h)
      simp only [hskip, Bool.not_false, Bool.true_or, if_true, hnot, and_false, or_false]

theorem mem_labels_foldl_addProposals :
    label ∈ labels (missing.foldl (addProposals ctx front) items) ↔ label ∈ labels items ∨
      DotFree label ∧ ∃ e ∈ missing, String.ofList (front ++ label.toList) ∈ e.2.names e.1 ctx := by
  induction missing generalizing items with
  | nil => simp
  | cons e missing ih =>
    rw [List.foldl_cons, ih, mem_labels_addProposals, or_assoc, ← and_or_left,
      List.exists_mem_cons_iff]

/-- The completion stands in a map: in all of it if it is empty, else at one of its pairs. -/
def CompletesIn (site : Site) (c : Completion) : Node → Prop
  | .map [] start stop => c.range = site.source.range start stop
  | .map pairs _ _ =>
    ∃ q ∈ pairs, c.range = site.source.range q.start (stopAfterBlanks site q.stop)
  | _ => False

/-- The completion at a pair. -/
def pairCompletion (site : Site) (items : List CompletionItem) (q : Pair) : Completion where
  range := site.source.range q.start (stopAfterBlanks site q.stop)
  items := items
  condition := some (atFreeLineStart site q.value)

/-- The completions around pairs are the one at the first of them, those in the map that it holds,
and those around the others. -/
theorem pairCompletions_cons (ctx : Context) (names : List (List Char))
    (missing : List (String × Property)) (front : List Char) (items : List CompletionItem)
    (q : Pair) (ps : List Pair) : ∃ inside,
    pairCompletions ctx names missing front items (q :: ps) =
      pairCompletion ctx.site items q :: (inside ++
        pairCompletions ctx names missing front items ps) ∧
    ∀ c ∈ inside, ∃ n, q.value = some n ∧
      c ∈ mapCompletions ctx names missing (front ++ q.keyText.toList ++ ['.']) n := by
  obtain ⟨key, value, comment⟩ := q
  rcases value with _ | (scalar | ⟨entries, start, stop⟩ | ⟨inner, start, stop⟩) <;>
    simp only [pairCompletions]
  · exact ⟨[], rfl, nofun⟩
  · exact ⟨[], rfl, nofun⟩
  · exact ⟨[], rfl, nofun⟩
  · refine ⟨_, rfl, fun c hc => ⟨_, rfl, ?_⟩⟩
    split at hc
    · exact hc
    · cases hc

/-- A completion around pairs is one at a pair, or one in the map that a pair holds. -/
theorem mem_pairCompletions {ps : List Pair} {c : Completion}
    (h : c ∈ pairCompletions ctx names missing front items ps) : ∃ q ∈ ps,
      (c.range = ctx.site.source.range q.start (stopAfterBlanks ctx.site q.stop) ∧
        c.items = items) ∨
      ∃ n, q.value = some n ∧
        c ∈ mapCompletions ctx names missing (front ++ q.keyText.toList ++ ['.']) n := by
  induction ps with
  | nil =>
    rw [pairCompletions] at h
    cases h
  | cons q ps ih =>
    obtain ⟨inside, heq, hinside⟩ := pairCompletions_cons ctx names missing front items q ps
    rw [heq] at h
    rcases List.mem_cons.mp h with rfl | h
    · exact ⟨q, List.mem_cons_self, .inl ⟨rfl, rfl⟩⟩
    · rcases List.mem_append.mp h with h | h
      · exact ⟨q, List.mem_cons_self, .inr (hinside c h)⟩
      · obtain ⟨q', hq', h⟩ := ih h
        exact ⟨q', List.mem_cons_of_mem q hq', h⟩

/-- The completions of a map are those of the map or of a map inside of it; each proposes the
missing properties under their names below the path of its map. -/
theorem mem_mapCompletions {n : Node} {c : Completion}
    (h : c ∈ mapCompletions ctx names missing front n) :
    ∃ inner first last more, MapAt (.map inner first last) more n ∧
      CompletesIn ctx.site c (.map inner first last) ∧
      c.items = missing.foldl (addProposals ctx (front ++ more)) [] := by
  induction n using Node.height_induction generalizing front with
  | step n ih =>
    cases n with
    | scalar scalar =>
      simp only [mapCompletions] at h
      cases h
    | seq items start stop =>
      simp only [mapCompletions] at h
      cases h
    | map pairs start stop =>
      rw [mapCompletions] at h
      cases pairs with
      | nil =>
        rw [List.mem_singleton.mp h]
        exact ⟨_, _, _, _, .here rfl, rfl, by rw [List.append_nil]⟩
      | cons p ps =>
        obtain ⟨q, hq, ⟨hrange, hitems⟩ | ⟨n, hn, h⟩⟩ := mem_pairCompletions h
        · exact ⟨_, _, _, _, .here rfl, ⟨q, hq, hrange⟩, by rw [hitems, List.append_nil]⟩
        · obtain ⟨inner, first, last, more, hm, hc, hitems⟩ :=
            ih n (height_value_lt hq hn start stop) h
          exact ⟨inner, first, last, _, .within hq hn hm, hc, by simpa using hitems⟩

/-- The properties that no pair of a map holds. -/
def missingFrom (s : Schema) (site : Site) (n : Node) : List (String × Property) :=
  (s.flatProperties (.ofNode site n)).filter fun e => (heldIn site n e).isEmpty

/-- What is proposed in the map at a path in another one. -/
def offered (s : Schema) (site : Site) (n : Node) (front : List Char) : List CompletionItem :=
  (s.missingFrom site n).foldl (addProposals (.ofNode site n) front) []

/-- What the full look at a map proposes, apart from what it proposes in the values of the
properties. -/
def proposals (s : Schema) (site : Site) (n : Node) : List Completion :=
  let ctx := Context.ofNode site n
  mapCompletions ctx ((propertyNames ctx (s.flatProperties ctx)).map String.toList)
    (s.missingFrom site n) [] n

/-- The full look at a map makes its proposals behind what it says of the values. -/
theorem resolveMap_map (visit : Visit) (s : Schema) (site : Site) (pairs : List Pair)
    (start stop : Nat) :
    s.resolveMap visit site (.map pairs start stop) =
      let ctx := Context.ofNode site (.map pairs start stop)
      (s.flatProperties ctx).mapM (fun e =>
        resolveProperty visit site (propertyPairs ctx e.1 e.2 pairs) e.2) >>= fun reports =>
          .ok (.mergeAll reports ++
            { completions := s.proposals site (.map pairs start stop) }) := by
  unfold resolveMap proposals missingFrom heldIn
  simp only
  rw [List.mapM_map, List.filter_map, List.map_map]
  simp only [Function.comp_def, Prod.mk.eta, List.map_id']
  rfl

/-- **Which labels are offered in a map**: the single segments that complete its path to a name of a
missing property. -/
theorem mem_labels_offered {s : Schema} {site : Site} {n : Node} :
    label ∈ labels (s.offered site n front) ↔ DotFree label ∧
      ∃ e ∈ s.missingFrom site n,
        String.ofList (front ++ label.toList) ∈ e.2.names e.1 (.ofNode site n) :=
  mem_labels_foldl_addProposals.trans (or_iff_right List.not_mem_nil)

/-- Each item that is offered is a name of a missing property, cut at the path of the map. -/
theorem exists_of_mem_offered {s : Schema} {site : Site} {n : Node}
    (h : item ∈ s.offered site n front) :
    ∃ e ∈ s.flatProperties (.ofNode site n), heldIn site n e = [] ∧
      ProposedAs (.ofNode site n) front item e := by
  obtain ⟨-, e, he, hproposed⟩ := mem_labels_offered.mp (List.mem_map_of_mem h)
  obtain ⟨he, hmissing⟩ := List.mem_filter.mp he
  exact ⟨e, he, List.isEmpty_iff.mp hmissing, hproposed⟩

end Schema

/-! ## Suggestions -/

theorem closest?_mem {limit : Int} {text t : String} {candidates : List String}
    (h : closest? limit text candidates = some t) : t ∈ candidates := by
  unfold closest? at h
  simp only at h
  suffices ∀ best : Option String × Int, (candidates.foldl _ best).1 = some t →
      best.1 = some t ∨ t ∈ candidates from (this _ h).resolve_left nofun
  clear h
  induction candidates with
  | nil => exact fun best h => .inl h
  | cons candidate candidates ih =>
    intro best h
    rcases ih _ h with h | h
    · simp only at h
      split at h
      · exact .inr (List.mem_cons.mpr (.inl (Option.some.inj h).symm))
      · exact .inl h
    · exact .inr (List.mem_cons_of_mem _ h)

namespace Site

variable {site : Site} {names : List (List Char)} {front : List Char}

/-- The diagnostic reports the key of a pair as unexpected in the map at a path; if it suggests
another key, this would have a name of a property there. -/
structure ReportsUnexpected (site : Site) (names : List (List Char)) (front : List Char) (q : Pair)
    (suggestion : Option String) (d : Diagnostic) : Prop where
  range : d.range = site.nodeRange q.key
  message : d.message = "Unexpected property `" ++ q.keyText ++ "`." ++ suggestionText suggestion
  named : ∀ t ∈ suggestion, front ++ t.toList ∈ names

theorem reportsUnexpected_unexpectedKey {q : Pair} {d : Diagnostic}
    (hd : d ∈ (site.unexpectedKey names front q.key).diagnostics) :
    ∃ suggestion, site.ReportsUnexpected names front q suggestion d := by
  rw [List.mem_singleton.mp hd]
  refine ⟨_, rfl, rfl, fun t ht => ?_⟩
  obtain ⟨name, hname, rfl⟩ := List.mem_map.mp (closest?_mem ht)
  obtain ⟨hname, hfront⟩ := List.mem_filter.mp hname
  obtain ⟨rest, rfl⟩ := List.isPrefixOf_iff_prefix.mp hfront
  simpa using hname

/-- An unexpected key that the report on a pair tells of is the key of the pair, or one in the map
that the pair holds. -/
theorem exists_of_unexpected_pair {q : Pair} {r : Report} {d : Diagnostic}
    (h : site.sweepPair names front q = .ok r) (hd : d ∈ r.diagnostics)
    (hcode : d.code = .unexpectedProperty) :
    (∃ suggestion, site.ReportsUnexpected names front q suggestion d) ∨
      ∃ n, q.value = some n ∧ site.sweep names (front ++ q.keyText.toList ++ ['.']) n = .ok r := by
  unfold sweepPair at h
  simp only at h
  split at h
  · cases h
    cases hd
  · split at h
    · split at h
      · rename_i hv
        exact .inr ⟨_, hv, h⟩
      · cases h
        unfold brokenStep at hd
        split at hd <;> rw [List.mem_singleton.mp hd] at hcode <;> cases hcode
    · cases h
      exact .inl (reportsUnexpected_unexpectedKey hd)

/-- **A sweep suggests names of properties below the path of the map.** -/
theorem exists_of_unexpected {n : Node} {r : Report} {d : Diagnostic}
    (h : site.sweep names front n = .ok r) (hd : d ∈ r.diagnostics)
    (hcode : d.code = .unexpectedProperty) :
    ∃ inner start stop more q suggestion, MapAt (.map inner start stop) more n ∧ q ∈ inner ∧
      site.ReportsUnexpected names (front ++ more) q suggestion d := by
  refine sweep_induction
    (P := fun front n r => d ∈ r.diagnostics → ∃ inner start stop more q suggestion,
      MapAt (.map inner start stop) more n ∧ q ∈ inner ∧
        site.ReportsUnexpected names (front ++ more) q suggestion d)
    (fun _ _ _ hd => nomatch hd) (fun front pairs start stop rs hpairs hd => ?_) h hd
  obtain ⟨q, hq, r, hswept, hd⟩ := exists_pair_of_mem hpairs hd
  rcases exists_of_unexpected_pair hswept.report hd hcode with ⟨suggestion, hreports⟩ | ⟨n, hv, h⟩
  · rw [← List.append_nil front] at hreports
    exact ⟨pairs, start, stop, [], q, suggestion, .here rfl, hq, hreports⟩
  · obtain ⟨inner, first, last, more, p, suggestion, hm, hp, hreports⟩ :=
      hswept.value n hv r h hd
    refine ⟨inner, first, last, _, p, suggestion, .within hq hv hm, hp, ?_⟩
    simpa using hreports

end Site

namespace Schema

variable {s : Schema} {site : Site} {n : Node}

/-- Each completion stands in a map and has the items that are offered there. -/
theorem mem_proposals {c : Completion} (h : c ∈ s.proposals site n) :
    ∃ inner start stop front, MapAt (.map inner start stop) front n ∧
      CompletesIn site c (.map inner start stop) ∧ c.items = s.offered site n front := by
  have hfound := mem_mapCompletions h
  exact hfound

/-- A pair whose key is offered in its map is recognised as a missing property. -/
theorem exists_recognisedAs (hfixed : s.FixedNames) (hapart : s.NamesApart (.ofNode site n))
    {front : List Char} {item : CompletionItem} (hitem : item ∈ s.offered site n front)
    {before after : List Pair} {p : Pair} {n' : Node} (hp : p.key.isScalar)
    (hlabel : p.keyText = item.label)
    (hinside :
      HoldsNone (propertyNames (.ofNode site n) (s.flatProperties (.ofNode site n))) front p)
    (h : Edited (before ++ after) (before ++ p :: after) front n n') :
    ∃ e, s.RecognisedAs site n n' front p e := by
  obtain ⟨e, he, hmissing, hproposed⟩ := exists_of_mem_offered hitem
  have hname : keyPath front p ∈ e.2.names e.1 (.ofNode site n) := by
    unfold keyPath
    rw [hlabel]
    exact hproposed
  exact ⟨e, recognisedAs_of_mem hfixed hapart h hp hinside he hmissing hname⟩

/-- What an object itself reports as unexpected has been reported by its sweep. -/
theorem exists_sweep_of_unexpected (hmap : n.isMap) {r : Report} {d : Diagnostic}
    (h : s.ownCheck site n = .ok r) (hd : d ∈ r.diagnostics)
    (hcode : d.code = .unexpectedProperty) :
    ∃ r', site.sweep ((propertyNames (.ofNode site n)
        (s.flatProperties (.ofNode site n))).map String.toList) [] n = .ok r' ∧
      d ∈ r'.diagnostics := by
  have hrepetitions : ∀ e ∈ s.flatProperties (.ofNode site n),
      foundIn [.unexpectedProperty] (fun _ _ => .ok .empty) site n e = 0 := by
    intro e _
    rw [foundIn_silent (by decide)]
    unfold repetitions
    split
    · rw [map_list_sum, List.map_map]
      refine List.sum_eq_zero fun found hfound => ?_
      obtain ⟨key, -, rfl⟩ := List.mem_map.mp hfound
      exact reporting_eq_zero fun d hd => by
        rw [List.mem_singleton.mp hd]
        exact (by decide : DiagnosticCode.duplicateProperty ∉ [.unexpectedProperty])
    · exact map_zero _
  have hreported : reporting [.unexpectedProperty] (findings (s.ownCheck site n)) =
      reporting [.unexpectedProperty] (findings (site.sweep ((propertyNames (.ofNode site n)
        (s.flatProperties (.ofNode site n))).map String.toList) [] n)) := by
    unfold ownCheck
    rw [reporting_checkMap (by decide) hmap, List.map_congr_left hrepetitions, List.map_const',
      List.sum_replicate, nsmul_zero, zero_add]
  rw [h] at hreported
  cases hsweep : site.sweep ((propertyNames (.ofNode site n)
      (s.flatProperties (.ofNode site n))).map String.toList) [] n with
  | error fault =>
    rw [hsweep] at hreported
    cases hreported
  | ok r' =>
    rw [hsweep] at hreported
    have hfilter : Multiset.filter (·.code ∈ [DiagnosticCode.unexpectedProperty])
        (r.diagnostics : Multiset Diagnostic) =
          Multiset.filter (·.code ∈ [DiagnosticCode.unexpectedProperty]) r'.diagnostics :=
      WithTop.coe_injective hreported
    have hmem : d ∈ Multiset.filter (·.code ∈ [DiagnosticCode.unexpectedProperty])
        (r.diagnostics : Multiset Diagnostic) :=
      Multiset.mem_filter.mpr ⟨hd, List.mem_singleton.mpr hcode⟩
    rw [hfilter] at hmem
    exact ⟨r', rfl, Multiset.mem_coe.mp (Multiset.mem_filter.mp hmem).1⟩

/-- **Adding a proposed key and taking up a suggestion.** A completion offers its items in a map. A
pair with an item as key, whose value has no keys of properties itself, is recognised there as one
property that was missing. Where a key is reported as unexpected, the suggested key has the path of
a property instead. -/
theorem proposals_sound (hfixed : s.FixedNames) (hapart : s.NamesApart (.ofNode site n))
    (hmap : n.isMap) :
    (∀ c ∈ s.proposals site n, ∃ inner start stop front, MapAt (.map inner start stop) front n ∧
      CompletesIn site c (.map inner start stop) ∧ c.items = s.offered site n front) ∧
    (∀ front, ∀ item ∈ s.offered site n front, ∀ (before after : List Pair) (p : Pair) (n' : Node),
      p.key.isScalar → p.keyText = item.label →
      HoldsNone (propertyNames (.ofNode site n) (s.flatProperties (.ofNode site n))) front p →
      Edited (before ++ after) (before ++ p :: after) front n n' →
      ∃ e, s.RecognisedAs site n n' front p e) ∧
    ∀ r, s.ownCheck site n = .ok r → ∀ d ∈ r.diagnostics, d.code = .unexpectedProperty →
      ∃ inner start stop front q suggestion, MapAt (.map inner start stop) front n ∧ q ∈ inner ∧
        d.range = site.nodeRange q.key ∧
        d.message = "Unexpected property `" ++ q.keyText ++ "`." ++ suggestionText suggestion ∧
        ∀ t ∈ suggestion, ∀ (before after : List Pair) (q' : Pair) (n' : Node),
          inner = before ++ q :: after → q'.keyText = t →
          Edited inner (before ++ q' :: after) front n n' →
          ⟨keyPath front q', q'⟩ ∈ n'.occurrences ∧
            keyPath front q' ∈
              propertyNames (.ofNode site n') (s.flatProperties (.ofNode site n')) := by
  refine ⟨fun c hc => mem_proposals hc,
    fun front item hitem before after p n' hp hlabel hinside h =>
    exists_recognisedAs hfixed hapart hitem hp hlabel hinside h, fun r hr d hd hcode => ?_⟩
  obtain ⟨r', hsweep, hd⟩ := exists_sweep_of_unexpected hmap hr hd hcode
  obtain ⟨inner, start, stop, front, q, suggestion, hm, hq, hreports⟩ :=
    Site.exists_of_unexpected hsweep hd hcode
  refine ⟨inner, start, stop, front, q, suggestion, hm, hq, hreports.range, hreports.message, ?_⟩
  rintro t ht before after q' n' - rfl h
  refine ⟨?_, ?_⟩
  · have hplace := h.mem_occurrences (List.mem_append_right before List.mem_cons_self)
    exact hplace
  · obtain ⟨name, hname, heq⟩ := List.mem_map.mp (hreports.named _ ht)
    have hpath : name = keyPath front q' := by
      rw [keyPath, ← String.toList_inj, heq]
      simp
    rw [hfixed.flat _ (.ofNode site n),
      propertyNames_eq fun e he => hfixed.aliases _ e he (.ofNode site n') (.ofNode site n),
      ← hpath]
    exact hname

/-! ## Samples -/

/-- The pair `D: y` below `A`. -/
def unknownSample : Pair :=
  ⟨.scalar (sampleScalar "D" 5), some (.scalar (sampleScalar "y" 8)), none⟩

/-- The pair `C: one` behind it. -/
def addedSample : Pair :=
  ⟨.scalar (sampleScalar "C" 12), some (.scalar (sampleScalar "one" 15)), none⟩

/-- A map of some pairs under `A`. -/
def sampleBelow (pairs : List Pair) : Node :=
  .map [⟨.scalar (sampleScalar "A" 0), some (.map pairs 5 18), none⟩] 0 18

theorem edited_sampleBelow (inner inner' : List Pair) :
    Edited inner inner' "A.".toList (sampleBelow inner) (sampleBelow inner') :=
  @Edited.within _ _ [] _ _ (.scalar (sampleScalar "A" 0)) none [] [] 0 18 0 18 .here

/-- Below `A` the number `C` is offered, and a pair `C: one` is recognised as it. -/
theorem recognised_sample :
    let s := Schema.object {} fun _ => outerSample
    let site := sampleSite "A:\n  D: y\n  C: one"
    s.FixedNames ∧ s.NamesApart (.ofNode site (sampleBelow [unknownSample])) ∧
      (s.offered site (sampleBelow [unknownSample]) "A.".toList).map (·.label) = ["B", "Y", "C"] ∧
      ∃ e, s.RecognisedAs site (sampleBelow [unknownSample])
        (sampleBelow [unknownSample, addedSample]) "A.".toList addedSample e := by
  intro s site
  have hfixed : s.FixedNames := static_sample.fixedNames rfl
  have hapart : s.NamesApart (.ofNode site (sampleBelow [unknownSample])) := by
    unfold NamesApart
    decide
  have hlabels : (s.offered site (sampleBelow [unknownSample]) "A.".toList).map (·.label) =
      ["B", "Y", "C"] := by decide
  have hitem : ∃ item ∈ s.offered site (sampleBelow [unknownSample]) "A.".toList,
      item.label = "C" := by
    rw [← List.mem_map, hlabels]
    decide
  obtain ⟨item, hitem, hlabel⟩ := hitem
  have hinside : HoldsNone (propertyNames (.ofNode site (sampleBelow [unknownSample]))
      (s.flatProperties (.ofNode site (sampleBelow [unknownSample])))) "A.".toList addedSample := by
    intro o ho
    cases ho
  refine ⟨hfixed, hapart, hlabels, ?_⟩
  exact (proposals_sound hfixed hapart rfl).2.1 _ item hitem [unknownSample] [] addedSample _ rfl
    hlabel.symm hinside (edited_sampleBelow _ _)

/-- An object `A` without properties, and a string `B` nested under `X`, or `A`. -/
def shadowedSample : List (String × Property) :=
  [("A", { schema := fun _ => .object {} fun _ => [] }),
    ("X", { schema := fun _ => .object {} fun _ => [("B", { schema := fun _ => anyString })],
            aliases := fun _ => some ["A"] })]

/-- The pair `B: x` below `A`. -/
def shadowedPair : Pair :=
  ⟨.scalar (sampleScalar "B" 5), some (.scalar (sampleScalar "x" 8)), none⟩

/-- The pair `A` with `B: x` in its map. -/
def holdingPair : Pair :=
  ⟨.scalar (sampleScalar "A" 0), some (.map [shadowedPair] 5 9), none⟩

/-- **A proposed key with a value that holds a property makes two properties be there.** The key `A`
is offered in an empty map, and `B` in its value has the path of a name of the other property. -/
theorem two_held_shadowed :
    let s := Schema.object {} fun _ => shadowedSample
    let site := sampleSite "A:\n  B: x"
    let counts := fun n : Node => (s.flatProperties (.ofNode site n)).map fun e =>
      (e.1, (heldIn site n e).length)
    (s.offered site (.map [] 0 0) []).map (·.label) = ["A"] ∧
      ¬ HoldsNone ["A", "X.B", "A.B"] [] holdingPair ∧
      counts (.map [] 0 0) = [("A", 0), ("X.B", 0)] ∧
      counts (.map [holdingPair] 0 9) = [("A", 1), ("X.B", 1)] := by
  intro s site counts
  refine ⟨by decide, fun hnone => ?_, by decide, by decide⟩
  exact hnone ⟨"B", shadowedPair⟩ List.mem_cons_self (by decide)

theorem static_const {α : Type} (a : α) (aliases : Option (List String)) :
    PropertyOf.Static { schema := fun _ => a, aliases := fun _ => aliases } :=
  ⟨fun _ _ => rfl, fun _ _ => rfl, fun _ _ => rfl, fun _ _ => rfl⟩

/-- **A proposed key can be unexpected where its map is the value of another property.** In the map
of `A` the property `B` is offered, but the object `A` knows nothing of it. -/
theorem unexpected_shadowed :
    let s := Schema.object {} fun _ => shadowedSample
    let site := sampleSite "A:\n  B: x"
    s.FixedNames ∧ s.NamesApart (.ofNode site (sampleBelow [])) ∧
      (s.offered site (sampleBelow []) "A.".toList).map (·.label) = ["B"] ∧
      Edited [] [shadowedPair] "A.".toList (sampleBelow []) (sampleBelow [shadowedPair]) ∧
      (s.check site (sampleBelow [])).map (·.diagnostics) = .ok [] ∧
      (s.check site (sampleBelow [shadowedPair])).map (·.diagnostics) =
        .ok [{ range := site.nodeRange shadowedPair.key
               message := "Unexpected property `B`."
               code := .unexpectedProperty }] := by
  intro s site
  have hempty : Static (.object {} fun _ => []) :=
    .object (fun _ => rfl) .nil nofun nofun nofun
  have hinner : Static (.object {} fun _ => [("B", { schema := fun _ => anyString })]) := by
    refine .object (fun _ => rfl) (by decide) ?_ ?_ ?_
    · exact List.forall_mem_singleton.mpr (static_const _ none)
    · exact List.forall_mem_singleton.mpr fun _ => (by decide : ∀ w ∈ ["B"], DotFree w)
    · exact List.forall_mem_singleton.mpr fun _ => .other rfl
  have hstatic : Static s := by
    refine .object (fun _ => rfl) (by decide) ?_ ?_ ?_
    · exact List.forall_mem_cons.mpr
        ⟨static_const _ none, List.forall_mem_singleton.mpr (static_const _ _)⟩
    · exact List.forall_mem_cons.mpr ⟨fun _ => (by decide : ∀ w ∈ ["A"], DotFree w),
        List.forall_mem_singleton.mpr fun _ => (by decide : ∀ w ∈ ["X", "A"], DotFree w)⟩
    · exact List.forall_mem_cons.mpr
        ⟨fun _ => hempty, List.forall_mem_singleton.mpr fun _ => hinner⟩
  refine ⟨hstatic.fixedNames rfl, ?_, by decide, edited_sampleBelow _ _,
    by decide, by decide⟩
  unfold NamesApart
  decide

end Schema

end PackLint
