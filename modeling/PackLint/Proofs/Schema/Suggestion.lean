import PackLint.Proofs.Schema.Proposals
import Mathlib.Data.List.MinMax

/-!
# Which option is suggested

A text that is none of the options of a rule gets the nearest one as suggestion (`_mismatch`,
`closest`), unless all are too far. Where case counts this is the first of the nearest options.
Where it does not, the options are looked at by their lower-case texts and from the last one on, and
what is suggested is the first spelling of the nearest text found in this way: of options that are
equally near, and differ not only in case, the last one wins.

Results:
* `closest?_eq`: the candidate that is picked is the first of the nearest, if it is near enough.
* `suggestion?_lowerCase`: without case the nearest option from the end is suggested, in the
  spelling that is listed first.
* `mismatch?_options`: what the message on a text that is no option suggests.
-/

namespace PackLint

/-! ## The nearest candidate -/

section Nearest

variable {α β : Type} {f : β → Nat} {l : List β} {b : β}

theorem argmin_map (g : α → β) (l : List α) :
    (l.map g).argmin f = (l.argmin fun a => f (g a)).map g := by
  induction l using List.reverseRecOn with
  | nil => rfl
  | append_singleton l a ih =>
    rw [List.map_append, List.map_singleton, List.argmin_concat, List.argmin_concat, ih]
    cases l.argmin fun a => f (g a) with
    | none => rfl
    | some b =>
      simp only [Option.map_some]
      split <;> rfl

theorem exists_argmin_of_mem (h : b ∈ l) : ∃ x ∈ l.argmin f, x ∈ l ∧ f x ≤ f b := by
  cases hargmin : l.argmin f with
  | none => exact absurd (List.argmin_eq_none.mp hargmin) (List.ne_nil_of_mem h)
  | some x => exact ⟨x, rfl, List.argmin_mem hargmin, List.le_of_mem_argmin h hargmin⟩

theorem isSome_filter_argmin (limit : Int) :
    ((l.argmin f).filter fun x => f x ≤ limit).isSome ↔ ∃ x ∈ l, f x ≤ limit := by
  rw [Option.isSome_iff_exists]
  constructor
  · rintro ⟨x, hx⟩
    obtain ⟨hx, hle⟩ := Option.filter_eq_some_iff.mp hx
    exact ⟨x, List.argmin_mem hx, of_decide_eq_true hle⟩
  · rintro ⟨y, hy, hle⟩
    obtain ⟨x, hx, -, hxy⟩ := exists_argmin_of_mem (f := f) hy
    exact ⟨x, Option.filter_eq_some_iff.mpr ⟨hx, decide_eq_true (by omega)⟩⟩

/-- A candidate that has been there before changes nothing. -/
theorem argmin_concat_of_mem (h : b ∈ l) : (l ++ [b]).argmin f = l.argmin f := by
  obtain ⟨x, hx, -, hle⟩ := exists_argmin_of_mem (f := f) h
  rw [List.argmin_concat, Option.mem_def.mp hx]
  exact if_neg (Nat.not_lt.mpr hle)

end Nearest

/-- What is kept while candidates are read: the best one if it is near enough, with the distance
that a better one has to stay below. -/
def keptBest (limit : Int) (f : String → Nat) : Option String → Option String × Int
  | some c => if f c ≤ limit then (some c, f c) else (none, limit + 1)
  | none => (none, limit + 1)

theorem keptBest_of_le {limit : Int} {f : String → Nat} {c : String} (h : f c ≤ limit) :
    keptBest limit f (some c) = (some c, (f c : Int)) := if_pos h

theorem keptBest_of_not_le {limit : Int} {f : String → Nat} {c : String} (h : ¬ f c ≤ limit) :
    keptBest limit f (some c) = (none, limit + 1) := if_neg h

theorem keptBest_fst (limit : Int) (f : String → Nat) (best : Option String) :
    (keptBest limit f best).1 = best.filter fun c => f c ≤ limit := by
  cases best with
  | none => rfl
  | some c =>
    by_cases h : (f c : Int) ≤ limit
    · rw [keptBest_of_le h, Option.filter_some, if_pos (decide_eq_true h)]
    · rw [keptBest_of_not_le h, Option.filter_some, if_neg (by simpa using h)]

/-- One more candidate takes the place of the best one if it is nearer. -/
theorem keptBest_step (limit : Int) (f : String → Nat) (best : Option String) (c : String) :
    (if (f c : Int) < (keptBest limit f best).2 then (some c, (f c : Int))
      else keptBest limit f best) =
      keptBest limit f (best.elim (some c) fun b => if f c < f b then some c else some b) := by
  cases best with
  | none => exact if_congr Int.lt_add_one_iff rfl rfl
  | some b =>
    rw [Option.elim_some]
    by_cases hlt : f c < f b
    · rw [if_pos hlt]
      by_cases hb : (f b : Int) ≤ limit
      · rw [keptBest_of_le hb, if_pos (Int.ofNat_lt.mpr hlt), keptBest_of_le (by omega)]
      · rw [keptBest_of_not_le hb]
        exact if_congr Int.lt_add_one_iff rfl rfl
    · rw [if_neg hlt]
      by_cases hb : (f b : Int) ≤ limit
      · rw [keptBest_of_le hb, if_neg (mt Int.ofNat_lt.mp hlt)]
      · rw [keptBest_of_not_le hb, if_neg (by omega)]

/-- **The first of the nearest candidates is picked, if it is near enough.** -/
theorem closest?_eq (limit : Int) (text : String) (candidates : List String) :
    closest? limit text candidates =
      (candidates.argmin fun c => editDistance text.toList c.toList).filter
        fun c => editDistance text.toList c.toList ≤ limit := by
  generalize hf : (fun c : String => editDistance text.toList c.toList) = f
  have happly : ∀ c : String, editDistance text.toList c.toList = f c := fun c => hf ▸ rfl
  unfold closest?
  simp only [happly]
  rw [← keptBest_fst]
  congr 1
  induction candidates using List.reverseRecOn with
  | nil => rfl
  | append_singleton candidates c ih =>
    rw [List.foldl_append, ih, List.foldl_cons, List.foldl_nil, keptBest_step, List.argmin_concat]
    cases candidates.argmin f <;> rfl

/-! ## Options by their lower-case text -/

theorem Entries.map_fst_insert {β : Type} (key : String) (value : β) (entries : List (String × β)) :
    (insert key value entries).map Prod.fst =
      if key ∈ entries.map Prod.fst then entries.map Prod.fst
      else entries.map Prod.fst ++ [key] := by
  induction entries with
  | nil => rfl
  | cons e es ih =>
    unfold insert
    by_cases h : e.1 = key
    · rw [if_pos h, if_pos (by simp [h])]
      simp [h]
    · have hmem : key ∈ (e :: es).map Prod.fst ↔ key ∈ es.map Prod.fst := by simp [Ne.symm h]
      rw [if_neg h, List.map_cons, ih]
      simp only [hmem]
      split <;> rfl

/-- The nearest key stands where a key comes first. -/
theorem Entries.argmin_ofList {β : Type} (f : String → Nat) (entries : List (String × β)) :
    ((ofList entries).map Prod.fst).argmin f = (entries.map Prod.fst).argmin f := by
  induction entries using List.reverseRecOn with
  | nil => rfl
  | append_singleton entries e ih =>
    have hsnoc : ofList (entries ++ [e]) = insert e.1 e.2 (ofList entries) := by
      unfold ofList insertAll
      rw [List.foldl_append, List.foldl_cons, List.foldl_nil]
    rw [hsnoc, map_fst_insert, List.map_append, List.map_singleton]
    split
    · rename_i hmem
      obtain ⟨e', he', hkey⟩ := List.mem_map.mp hmem
      have hbefore : e.1 ∈ entries.map Prod.fst :=
        hkey ▸ List.mem_map_of_mem ((mem_insertAll he').resolve_left List.not_mem_nil)
      rw [argmin_concat_of_mem hbefore, ih]
    · rw [List.argmin_concat, List.argmin_concat, ih]

namespace StringRule

variable {site : Site} {options : List String} {text : String}

/-- A lower-case text means the option that is listed first with it. -/
theorem lookup_byLowerCase (key : String) (options : List String) :
    (byLowerCase options).lookup key = options.find? fun o => key = lowerText o := by
  induction options with
  | nil => rfl
  | cons o options ih =>
    have hcons : byLowerCase (o :: options) =
        Entries.insert (lowerText o) o (byLowerCase options) := by
      unfold byLowerCase Entries.ofList Entries.insertAll
      rw [List.reverse_cons, List.map_append, List.map_singleton, List.foldl_append,
        List.foldl_cons, List.foldl_nil]
    rw [hcons, Entries.lookup_insert, List.find?_cons, ih]
    by_cases h : key = lowerText o
    · rw [if_pos h, decide_eq_true h]
    · rw [if_neg h, decide_eq_false h]

/-- How far an option is from a text, the case of the letters left aside if it does not count. -/
def optionDistance : Bool → String → String → Nat
  | true, text, option => editDistance text.toList option.toList
  | false, text, option => editDistance (lowerText text).toList (lowerText option).toList

theorem optionDistance_congr {a b : String} (h : lowerText a = lowerText b) (text : String) :
    optionDistance false text a = optionDistance false text b := by
  simp only [optionDistance, h]

/-! ## Suggestions -/

/-- With case the first of the nearest options is suggested. -/
theorem suggestion?_caseSensitive (site : Site) (options : List String) (text : String) :
    suggestion? site true options text =
      (options.argmin (optionDistance true text)).filter
        fun o => optionDistance true text o ≤ site.settings.suggestionMaxDistance :=
  closest?_eq _ text options

/-- **Without case the nearest option from the end is suggested**, in the spelling that is listed
first. -/
theorem suggestion?_lowerCase (site : Site) (options : List String) (text : String) :
    suggestion? site false options text =
      ((options.reverse.argmin (optionDistance false text)).filter
        fun o => optionDistance false text o ≤ site.settings.suggestionMaxDistance).bind
        fun o => options.find? fun o' => lowerText o = lowerText o' := by
  have hkeys : ((byLowerCase options).map (·.1)).argmin
      (fun key => editDistance (lowerText text).toList key.toList) =
        (options.reverse.argmin (optionDistance false text)).map lowerText := by
    unfold byLowerCase
    rw [Entries.argmin_ofList, List.map_map]
    exact argmin_map lowerText options.reverse
  unfold suggestion? Site.suggestion?
  simp only [Bool.false_eq_true, if_false]
  rw [closest?_eq, hkeys]
  generalize options.reverse.argmin (optionDistance false text) = nearest
  have hfilter : (nearest.map lowerText).filter (fun key =>
      (editDistance (lowerText text).toList key.toList : Int) ≤
        site.settings.suggestionMaxDistance) =
      (nearest.filter fun o =>
        (optionDistance false text o : Int) ≤ site.settings.suggestionMaxDistance).map lowerText :=
    Option.filter_map ..
  rw [hfilter, Option.bind_map]
  exact congrArg _ (funext fun o => lookup_byLowerCase (lowerText o) options)

/-- The first spelling of the last of the nearest options is the first of the nearest options just
if these two have the same letters. -/
theorem eq_first_iff {first last t : String}
    (hfirst : first ∈ options.argmin (optionDistance false text))
    (ht : options.find? (fun o => lowerText last = lowerText o) = some t) :
    t = first ↔ lowerText first = lowerText last := by
  obtain ⟨hspelt, before, after, heq, hbefore⟩ := List.find?_eq_some_iff_append.mp ht
  have hspelt : lowerText last = lowerText t := of_decide_eq_true hspelt
  obtain ⟨hmem, hleast, hindex⟩ := List.mem_argmin_iff.mp hfirst
  refine ⟨fun h => h ▸ hspelt.symm, fun h => ?_⟩
  have hnot : ∀ o, lowerText last = lowerText o → o ∉ before := fun o ho hin => by
    simpa [ho] using hbefore o hin
  have ht : t ∈ options := List.mem_of_find?_eq_some ht
  have hle := hindex t ht (Nat.le_of_eq (optionDistance_congr (hspelt.symm.trans h.symm) text))
  rw [heq, List.idxOf_append_of_notMem (hnot first h.symm),
    List.idxOf_append_of_notMem (hnot t hspelt), List.idxOf_cons_self] at hle
  by_contra hne
  rw [List.idxOf_cons_ne _ hne] at hle
  omega

/-- **An option is suggested just if one is near enough.** -/
theorem isSome_suggestion? (site : Site) (caseSensitive : Bool) (options : List String)
    (text : String) :
    (suggestion? site caseSensitive options text).isSome ↔
      ∃ o ∈ options, optionDistance caseSensitive text o ≤ site.settings.suggestionMaxDistance := by
  cases caseSensitive with
  | true => rw [suggestion?_caseSensitive, isSome_filter_argmin]
  | false =>
    have hreverse := isSome_filter_argmin (f := optionDistance false text) (l := options.reverse)
      site.settings.suggestionMaxDistance
    simp only [List.mem_reverse] at hreverse
    rw [suggestion?_lowerCase, ← hreverse, Option.isSome_iff_exists, Option.isSome_iff_exists]
    constructor
    · rintro ⟨t, ht⟩
      obtain ⟨o, ho, -⟩ := Option.bind_eq_some_iff.mp ht
      exact ⟨o, ho⟩
    · rintro ⟨o, ho⟩
      have hmem := List.argmin_mem (Option.filter_eq_some_iff.mp ho).1
      have hfind : (options.find? fun o' => lowerText o = lowerText o').isSome :=
        List.find?_isSome.mpr ⟨o, List.mem_reverse.mp hmem, decide_eq_true rfl⟩
      obtain ⟨t, ht⟩ := Option.isSome_iff_exists.mp hfind
      exact ⟨t, Option.bind_eq_some_iff.mpr ⟨o, ho, ht⟩⟩

/-- **Which of the nearest options is suggested.** -/
theorem of_suggestion? {caseSensitive : Bool} {t : String}
    (h : suggestion? site caseSensitive options text = some t) :
    t ∈ options ∧
      (∀ o ∈ options, optionDistance caseSensitive text t ≤ optionDistance caseSensitive text o) ∧
      ∃ first ∈ options.argmin (optionDistance caseSensitive text),
        ∃ last ∈ options.reverse.argmin (optionDistance caseSensitive text),
          (caseSensitive = false →
            options.find? (fun o => lowerText last = lowerText o) = some t) ∧
          (t = first ↔ caseSensitive ∨ lowerText first = lowerText last) := by
  cases caseSensitive with
  | true =>
    rw [suggestion?_caseSensitive] at h
    have hfirst := (Option.filter_eq_some_iff.mp h).1
    have hmem := List.argmin_mem hfirst
    obtain ⟨last, hlast, -⟩ := exists_argmin_of_mem (f := optionDistance true text)
      (List.mem_reverse.mpr hmem)
    exact ⟨hmem, fun o ho => List.le_of_mem_argmin ho hfirst, t, hfirst, last, hlast, nofun,
      fun _ => .inl rfl, fun _ => rfl⟩
  | false =>
    rw [suggestion?_lowerCase] at h
    obtain ⟨last, hlast, ht⟩ := Option.bind_eq_some_iff.mp h
    have hlast := (Option.filter_eq_some_iff.mp hlast).1
    have hmem := List.mem_of_find?_eq_some ht
    have hspelt : lowerText last = lowerText t :=
      of_decide_eq_true (List.find?_some (p := fun o => decide (lowerText last = lowerText o)) ht)
    obtain ⟨first, hfirst, -⟩ := exists_argmin_of_mem (f := optionDistance false text) hmem
    refine ⟨hmem, fun o ho => ?_, first, hfirst, last, hlast, fun _ => ht, ?_⟩
    · rw [← optionDistance_congr hspelt]
      exact List.le_of_mem_argmin (List.mem_reverse.mpr ho) hlast
    · rw [eq_first_iff hfirst ht]
      exact ⟨.inr, fun h => h.resolve_left nofun⟩

/-! ## Messages -/

variable {rule : StringRule} {info : SchemaInfo} {ctx : Context} {os : List StringOption}
  {message : String}

theorem accepts_of_mem (hos : rule.matcher ctx = some (.options os)) {t : String}
    (ht : t ∈ os.map (·.text)) : rule.accepts info ctx t := by
  have hany : (os.map (·.text)).any (fun o => sameText (rule.caseSensitive ctx) o t) :=
    List.any_eq_true.mpr ⟨t, ht, by unfold sameText; split <;> exact decide_eq_true rfl⟩
  unfold accepts mismatch?
  simp only [hos, hany, if_true]
  rfl

/-- **What the message on a text that is no option suggests.** There is a suggestion just if some
option is near enough. It is an accepted option, and none is nearer. Where case counts it is the
first of the nearest options; where it does not, it is the first spelling of the last of them, and
so the first of them only if these two have the same letters. -/
theorem mismatch?_options (hos : rule.matcher ctx = some (.options os))
    (h : rule.mismatch? info ctx text = some message) :
    let options := os.map (·.text)
    let distance := optionDistance (rule.caseSensitive ctx) text
    ∃ suggestion : Option String,
      message = "Expected `" ++ info.display ctx (rule.description ctx) ++ "`, but got `" ++ text ++
          "`." ++ suggestionText suggestion ∧
        (suggestion.isSome ↔
          ∃ o ∈ options, distance o ≤ ctx.site.settings.suggestionMaxDistance) ∧
        ∀ t ∈ suggestion, rule.accepts info ctx t ∧
          t ∈ options ∧ (∀ o ∈ options, distance t ≤ distance o) ∧
            ∃ first ∈ options.argmin distance, ∃ last ∈ options.reverse.argmin distance,
              (rule.caseSensitive ctx = false →
                options.find? (fun o => lowerText last = lowerText o) = some t) ∧
              (t = first ↔ rule.caseSensitive ctx ∨ lowerText first = lowerText last) := by
  intro options distance
  unfold mismatch? at h
  simp only [hos] at h
  split at h
  · cases h
  · refine ⟨suggestion? ctx.site (rule.caseSensitive ctx) options text, (Option.some.inj h).symm,
      isSome_suggestion? ctx.site _ options text, fun t ht => ?_⟩
    have hsuggested := of_suggestion? ht
    exact ⟨accepts_of_mem hos hsuggested.1, hsuggested⟩

/-- Two options, each one letter away from `rat`. -/
def sampleOptions : List StringOption := [{ text := "cat" }, { text := "bat" }]

/-- The rule that asks for one of them, in any case. -/
def sampleRule : StringRule where
  matcher := fun _ => some (.options sampleOptions)

/-- A place in an empty document. -/
def sampleContext : Context := ⟨⟨{}, {}, [], "", .ofString "", none⟩, none, none⟩

theorem mismatch?_options_rat :
    sampleRule.matcher sampleContext = some (.options sampleOptions) ∧
      sampleRule.mismatch? {} sampleContext "rat" =
        some "Expected `string(cat | bat)`, but got `rat`. Did you mean `bat`?" ∧
      ∃ suggestion, "Expected `string(cat | bat)`, but got `rat`. Did you mean `bat`?" =
          "Expected `string(cat | bat)`, but got `rat`." ++ suggestionText suggestion ∧
        (suggestion.isSome ↔ ∃ o ∈ ["cat", "bat"], (optionDistance false "rat" o : Int) ≤ 3) ∧
        ∀ t ∈ suggestion, sampleRule.accepts {} sampleContext t ∧ t ∈ ["cat", "bat"] := by
  have hos : sampleRule.matcher sampleContext = some (.options sampleOptions) := rfl
  have hmessage : sampleRule.mismatch? {} sampleContext "rat" =
      some "Expected `string(cat | bat)`, but got `rat`. Did you mean `bat`?" := by decide
  obtain ⟨suggestion, htext, hsome, hsuggested⟩ := mismatch?_options hos hmessage
  exact ⟨hos, hmessage, suggestion, htext, hsome,
    fun t ht => ⟨(hsuggested t ht).1, (hsuggested t ht).2.1⟩⟩

/-- Although `cat` is the first of the two nearest options, `bat` is suggested. -/
theorem mismatch?_tie :
    sampleRule.mismatch? {} sampleContext "rat" =
        some "Expected `string(cat | bat)`, but got `rat`. Did you mean `bat`?" ∧
      "cat" ∈ (sampleOptions.map (·.text)).argmin (optionDistance false "rat") := by
  decide

end StringRule

end PackLint
