import PackLint.Proofs.SkillLine.Braces
import PackLint.Proofs.SkillLine.Visible

/-!
# Accounts of a skill line

What is read of a text accounts for it if each visible character of the text is in the span of just
one token, or else in a rest that is dropped: the text of a configuration behind the brace that
closes it. Such a rest is in no token, and no problem tells of it. Without brackets a configuration
on which nothing is reported accounts for its text, and so do targeters, triggers and conditions,
since the accounts of texts that follow one another add up.

Results:
* `Told.append`: two accounts of texts that follow one another add up.
* `LineConfig.told_parse`: a configuration accounts for its text.
* `Targeter.told_read`, `Trigger.told_read`, `Condition.told_read`: so does a clause.
-/

namespace PackLint

open SkillLine

/-! ## Coverage -/

/-- The offset is in the span of the token. -/
abbrev LineToken.Covers (o : Int) (t : LineToken) : Prop := t.start ≤ o ∧ o < t.stop

/-- The number of the tokens that cover the offset. -/
def coverage (ts : List LineToken) (o : Int) : Nat := ts.countP (·.Covers o)

theorem coverage_append (ts us : List LineToken) (o : Int) :
    coverage (ts ++ us) o = coverage ts o + coverage us o :=
  List.countP_append

theorem coverage_eq_zero {ts : List LineToken} {o : Int} (h : ∀ t ∈ ts, ¬ t.Covers o) :
    coverage ts o = 0 :=
  List.countP_eq_zero.mpr fun t ht hcovers => h t ht (of_decide_eq_true hcovers)

/-- Of tokens in order, one covers an offset if any does. -/
theorem LineToken.InOrder.coverage_eq_one {lo hi o : Int} {ts : List LineToken}
    (h : InOrder lo hi ts) {t : LineToken} (ht : t ∈ ts) (hcovers : t.Covers o) :
    coverage ts o = 1 := by
  induction ts generalizing lo with
  | nil => cases ht
  | cons u ts ih =>
    obtain ⟨hlo, hle, hts⟩ := h
    rw [coverage, List.countP_cons]
    rcases List.mem_cons.mp ht with rfl | ht
    · have hrest : coverage ts o = 0 := coverage_eq_zero fun t' ht' hcovers' => by
        have hbounds := hts.bounds ht'
        have hstop := hcovers.2
        have hstart := hcovers'.1
        omega
      rw [← coverage, hrest, if_pos (decide_eq_true hcovers)]
    · have hu : ¬ u.Covers o := by
        rintro ⟨-, hstop⟩
        have hbounds := hts.bounds ht
        have hstart := hcovers.1
        omega
      rw [← coverage, ih hts ht, if_neg (by simpa using hu)]

/-- The last of some tokens in order ends last. -/
theorem LineToken.InOrder.stop_le_last {lo hi : Int} {ts : List LineToken} {t : LineToken}
    (h : InOrder lo hi (ts ++ [t])) {u : LineToken} (hu : u ∈ ts ++ [t]) : u.stop ≤ t.stop := by
  rcases List.mem_append.mp hu with hu | hu
  · have hfront := (List.pairwise_append.mp h.pairwise).2.2 u hu t List.mem_cons_self
    have hle := (h.bounds (List.mem_append_right ts List.mem_cons_self)).2.1
    omega
  · exact Int.le_of_eq (congrArg stop (List.mem_singleton.mp hu))

/-- The rest of the text of a configuration, behind the brace that closes it. -/
def LineConfig.rest? (c : LineConfig) : Option (Int × Int) :=
  c.closeBrace.map fun t => (t.stop, c.pos c.source.length)

/-- The offset is in one of the rests. -/
abbrev Dropped (rs : List (Int × Int)) (o : Int) : Prop := ∃ r ∈ rs, r.1 ≤ o ∧ o < r.2

/-- What is read of the text from index `lo` to `hi`, the tokens `ts` with the rests `rs`, accounts
for the characters there: each that is visible is covered once, or dropped. -/
structure Told (text : List Char) (offset : Int) (lo hi : Nat) (ts : List LineToken)
    (rs : List (Int × Int)) : Prop where
  tokens : ∀ t ∈ ts, sourceOffset text offset lo ≤ t.start ∧ t.stop ≤ sourceOffset text offset hi
  rests : ∀ r ∈ rs, sourceOffset text offset lo ≤ r.1 ∧ r.2 ≤ sourceOffset text offset hi
  once : ∀ i, Visible text i → lo ≤ i → i < hi →
    coverage ts (sourceOffset text offset i) =
      if Dropped rs (sourceOffset text offset i) then 0 else 1

namespace Told

variable {text : List Char} {offset : Int} {lo mid hi i k : Nat} {ts us : List LineToken}
  {rs qs : List (Int × Int)}

/-- A visible character outside of the text that was read is left alone. -/
theorem outside (h : Told text offset lo hi ts rs) (hi' : Visible text i) (hout : i < lo ∨ hi ≤ i) :
    coverage ts (sourceOffset text offset i) = 0 ∧ ¬ Dropped rs (sourceOffset text offset i) := by
  have hapart : sourceOffset text offset i < sourceOffset text offset lo ∨
      sourceOffset text offset hi ≤ sourceOffset text offset i :=
    hout.imp (sourceOffset_lt hi'.boundary offset) (sourceOffset_mono text offset)
  constructor
  · refine coverage_eq_zero fun t ht hcovers => ?_
    have hbounds := h.tokens t ht
    have hstart := hcovers.1
    have hstop := hcovers.2
    omega
  · rintro ⟨r, hr, hstart, hstop⟩
    have hbounds := h.rests r hr
    omega

theorem nil (text : List Char) (offset : Int) (i : Nat) : Told text offset i i [] [] where
  tokens _ h := nomatch h
  rests _ h := nomatch h
  once _ _ hlo hhi := absurd hhi (Nat.not_lt.mpr hlo)

/-- A token accounts for its span. -/
theorem token {t : LineToken} (hstart : t.start = sourceOffset text offset i)
    (hstop : t.stop = sourceOffset text offset k) : Told text offset i k [t] [] where
  tokens u hu := by
    rw [List.mem_singleton.mp hu, hstart, hstop]
    exact ⟨Int.le_refl _, Int.le_refl _⟩
  rests _ h := nomatch h
  once j hj hlo hhi := by
    have hcovers : t.Covers (sourceOffset text offset j) := by
      rw [LineToken.Covers, hstart, hstop]
      exact hj.covers offset hlo hhi
    rw [if_neg (by rintro ⟨r, hr, -⟩; cases hr), coverage, List.countP_singleton,
      if_pos (decide_eq_true hcovers)]

/-- Two accounts of texts that follow one another. -/
theorem append (h : Told text offset lo mid ts rs) (h' : Told text offset mid hi us qs)
    (hlo : lo ≤ mid) (hhi : mid ≤ hi) : Told text offset lo hi (ts ++ us) (rs ++ qs) := by
  have hfront := sourceOffset_mono text offset hlo
  have hback := sourceOffset_mono text offset hhi
  refine ⟨List.forall_mem_append.mpr ⟨fun t ht => ?_, fun t ht => ?_⟩,
    List.forall_mem_append.mpr ⟨fun r hr => ?_, fun r hr => ?_⟩, fun i hi' hi₁ hi₂ => ?_⟩
  · exact (h.tokens t ht).imp_right (Int.le_trans · hback)
  · exact (h'.tokens t ht).imp_left (Int.le_trans hfront)
  · exact (h.rests r hr).imp_right (Int.le_trans · hback)
  · exact (h'.rests r hr).imp_left (Int.le_trans hfront)
  · simp only [coverage_append, Dropped, List.mem_append, or_and_right, exists_or]
    -- a character is in one of the two texts, and the account of the other leaves it alone
    rcases Nat.lt_or_ge i mid with hlt | hge
    · obtain ⟨hnone, hkept⟩ := h'.outside hi' (.inl hlt)
      rw [h.once i hi' hi₁ hlt, hnone, Nat.add_zero]
      exact if_congr (or_iff_left hkept).symm rfl rfl
    · obtain ⟨hnone, hkept⟩ := h.outside hi' (.inr hge)
      rw [h'.once i hi' hge hi₂, hnone, Nat.zero_add]
      exact if_congr (or_iff_right hkept).symm rfl rfl

/-- An account covers more of the text if nothing is visible there. -/
theorem widen (h : Told text offset mid hi ts rs) (hlo : lo ≤ mid) (hhi : hi ≤ k)
    (hgap : ∀ i, Visible text i → lo ≤ i → i < k → mid ≤ i ∧ i < hi) :
    Told text offset lo k ts rs := by
  have hfront := sourceOffset_mono text offset hlo
  have hback := sourceOffset_mono text offset hhi
  refine ⟨fun t ht => ?_, fun r hr => ?_, fun i hi' hi₁ hi₂ => ?_⟩
  · exact (h.tokens t ht).imp (Int.le_trans hfront) (Int.le_trans · hback)
  · exact (h.rests r hr).imp (Int.le_trans hfront) (Int.le_trans · hback)
  · obtain ⟨hmid, hlt⟩ := hgap i hi' hi₁ hi₂
    exact h.once i hi' hmid hlt

/-- An account of a piece between boundaries is one of the text there. -/
theorem slice (hi : Boundary text i) (hk : Boundary text k) (hik : i ≤ k)
    (h : Told ((text.take k).drop i) (sourceOffset text offset i) 0 (k - i) ts rs) :
    Told text offset i k ts rs := by
  have hzero := sourceOffset_zero ((text.take k).drop i) (sourceOffset text offset i)
  have hstop := sourceOffset_slice hi hk offset (n := k - i) (Nat.le_of_eq (Nat.add_sub_of_le hik))
  rw [Nat.add_sub_of_le hik] at hstop
  refine ⟨fun t ht => ?_, fun r hr => ?_, fun j hj hlo hhi => ?_⟩
  · have hbounds := h.tokens t ht
    omega
  · have hbounds := h.rests r hr
    omega
  · have honce := h.once (j - i) (hj.slice hi hk hlo hhi) (Nat.zero_le _) (by omega)
    rwa [sourceOffset_slice hi hk offset (by omega), Nat.add_sub_of_le hlo] at honce

/-- The order of the tokens and of the rests does not matter. -/
theorem perm (h : Told text offset lo hi ts rs) (hts : ts.Perm us) (hrs : ∀ r, r ∈ qs ↔ r ∈ rs) :
    Told text offset lo hi us qs where
  tokens t ht := h.tokens t (hts.mem_iff.mpr ht)
  rests r hr := h.rests r ((hrs r).mp hr)
  once i hi' hlo hhi := by
    rw [coverage, ← hts.countP_eq, ← coverage, h.once i hi' hlo hhi]
    simp only [Dropped, hrs]

end Told

/-! ## Configurations -/

namespace LineConfig

variable {src : Source} {c : LineConfig} {text : List Char} {offset : Int} {i : Nat}

/-- The tokens of a configuration, in order. -/
def tokens (c : LineConfig) : List LineToken := c.main.toList ++ c.blockTokens

/-- A piece of a body has no equals sign, or its entry covers all that is visible in it. -/
theorem covers_reading {p : Piece} (hp : p.Fits c.source) (h : Visible c.source i)
    (hlo : p.start ≤ i) (hhi : i < p.stop) :
    (∃ t, c.reading p = .unequal t) ∨
      ∃ e ∈ (c.reading p).held?, ∃ t ∈ e.tokens, t.Covers (c.pos i) := by
  obtain ⟨hstart, hstop, -, -, -⟩ := boundary_trimSpan hp.start hp.stop hp.ordered
  obtain ⟨hfront, hback⟩ := visible_trimSpan hp.start hp.stop h hlo hhi
  unfold reading
  generalize trimSpan c.source p.start p.stop = span at hstart hstop hfront hback ⊢
  obtain ⟨start, stop⟩ := span
  simp only at hstart hstop hfront hback ⊢
  rw [if_neg (by omega)]
  cases hequals : ((c.source.take stop).drop start).findIdx? (· = '=') with
  | none => exact .inl ⟨_, rfl⟩
  | some n =>
    obtain ⟨-, heq⟩ := getElem?_of_span (getElem?_of_findIdx? hequals)
    obtain ⟨hb, hb'⟩ := boundary_of_outer outer_equals heq
    refine .inr ⟨_, rfl, ?_⟩
    rcases Nat.lt_trichotomy i (start + n) with hlt | rfl | hgt
    · obtain ⟨hkey, hkey'⟩ := visible_trimSpan hstart hb h hfront hlt
      exact ⟨_, List.mem_cons_self, h.covers _ hkey hkey'⟩
    · exact ⟨_, List.mem_cons_of_mem _ List.mem_cons_self,
        h.covers _ (Nat.le_refl _) (Nat.lt_succ_self _)⟩
    · obtain ⟨hvalue, hvalue'⟩ := visible_trimSpan hb' hstop h hgt hback
      exact ⟨_, List.mem_cons_of_mem _ (List.mem_cons_of_mem _ List.mem_cons_self),
        h.covers _ hvalue hvalue'⟩

/-- A piece without an equals sign is reported. -/
theorem Reading.problems_ne_nil {keys : List String} {rs : List Reading} {t : LineToken}
    (h : .unequal t ∈ rs) : problems src keys rs ≠ [] := by
  induction rs generalizing keys with
  | nil => cases h
  | cons r rs ih =>
    rcases List.mem_cons.mp h with rfl | h
    · exact List.cons_ne_nil _ _
    · rw [problems_cons]
      exact fun hnil => ih h (List.append_eq_nil_iff.mp hnil).2

theorem mem_tokens {t : LineToken} :
    t ∈ c.tokens ↔ (t ∈ c.main ∨ t ∈ c.openBrace ∨ ∃ e ∈ c.entries, t ∈ e.tokens) ∨
      t ∈ c.closeBrace := by
  simp [tokens, blockTokens, or_assoc]

/-- Where no piece of a body is reported, their entries cover all that is visible in them. -/
theorem covers_pieces {ps : List Piece} (hps : ∀ p ∈ ps, p.Fits c.source)
    (hsilent : (ps.foldl (addPiece src) c).report.diagnostics = []) (h : Visible c.source i)
    {p : Piece} (hp : p ∈ ps) (hlo : p.start ≤ i) (hhi : i < p.stop) :
    ∃ t ∈ (ps.foldl (addPiece src) c).tokens, t.Covers (c.pos i) := by
  rw [foldl_addPiece] at hsilent ⊢
  have hproblems : Reading.problems src c.keys (ps.map c.reading) = [] :=
    (List.append_eq_nil_iff.mp hsilent).2
  rcases covers_reading (hps p hp) h hlo hhi with ⟨t, hunequal⟩ | ⟨e, he, t, ht, hcovers⟩
  · exact absurd hproblems (Reading.problems_ne_nil (List.mem_map.mpr ⟨p, hp, hunequal⟩))
  · refine ⟨t, mem_tokens.mpr (.inl (.inr (.inr ⟨e, ?_, ht⟩))), hcovers⟩
    exact List.mem_append_right _ (List.mem_filterMap.mpr ⟨_, List.mem_map_of_mem hp, he⟩)

/-- Reading the pieces of a body keeps the tokens in front of them and the closing brace. -/
theorem frame_foldl_addPiece (src : Source) (c : LineConfig) (ps : List Piece) :
    c.tokens ⊆ (ps.foldl (addPiece src) c).tokens ∧
      (ps.foldl (addPiece src) c).closeBrace = c.closeBrace := by
  rw [foldl_addPiece]
  refine ⟨fun t ht => mem_tokens.mpr ?_, rfl⟩
  rcases mem_tokens.mp ht with (hmain | hopen | ⟨e, he, ht⟩) | hclose
  · exact .inl (.inl hmain)
  · exact .inl (.inr (.inl hopen))
  · exact .inl (.inr (.inr ⟨e, List.mem_append_left _ he, ht⟩))
  · exact .inr hclose

/-- A configuration whose name ends at a brace `o` and whose body ends at `stop`, where the text
ends or the closing brace is: what is visible is in a token, or behind the closing brace. -/
theorem covers_block {o stop : Nat} (ho : c.source[o]? = some '{') (hstop : Boundary c.source stop)
    (hle : o + 1 ≤ stop) (hmain : c.main = some (c.token 0 o))
    (hopen : c.openBrace = some (c.mark o "\x7b"))
    (hclose : stop = c.source.length ∨ c.closeBrace = some (c.mark stop "\x7d")) {c' : LineConfig}
    (hc' : (piecesFrom (o + 1) (o + 1) 0 ((c.source.take stop).drop (o + 1))).foldl
      (addPiece src) c = c') (hsilent : c'.report.diagnostics = []) (h : Visible c.source i) :
    (∃ t ∈ c'.tokens, t.Covers (c.pos i)) ∨ ∃ t ∈ c'.closeBrace, t.stop ≤ c.pos i := by
  subst hc'
  obtain ⟨-, hbody⟩ := boundary_of_outer outer_brace.1 ho
  have hprefix : (c.source.take stop).drop (o + 1) <+: c.source.drop (o + 1) := by
    rw [List.drop_take]
    exact List.take_prefix _ _
  have hlength : o + 1 + ((c.source.take stop).drop (o + 1)).length = stop := by
    rw [List.length_drop, List.length_take_of_le hstop.le_length, Nat.add_sub_of_le hle]
  generalize hps : piecesFrom (o + 1) (o + 1) 0 ((c.source.take stop).drop (o + 1)) = ps at *
  obtain ⟨hkept, hbrace⟩ := frame_foldl_addPiece src c ps
  rcases Nat.lt_trichotomy i o with hlt | rfl | hgt
  · refine .inl ⟨c.token 0 o, ?_, h.covers _ (Nat.zero_le i) hlt⟩
    exact hkept (mem_tokens.mpr (.inl (.inl hmain)))
  · refine .inl ⟨c.mark i "\x7b", ?_, h.covers _ (Nat.le_refl i) (Nat.lt_succ_self i)⟩
    exact hkept (mem_tokens.mpr (.inl (.inr (.inl hopen))))
  · rcases Nat.lt_or_ge i stop with hlt | hge
    · obtain ⟨p, hp, hlo, hhi⟩ : ∃ p ∈ ps, p.start ≤ i ∧ i < p.stop :=
        hps ▸ exists_piece hprefix hgt (by rwa [hlength]) h
      have hfits : ∀ p ∈ ps, p.Fits c.source :=
        hps ▸ fits_piecesFrom hprefix hbody (Nat.le_refl _) (by rwa [hlength])
      exact .inl (covers_pieces hfits hsilent h hp hlo hhi)
    · rcases hclose with rfl | hclose
      · exact absurd h.lt_length (Nat.not_lt.mpr hge)
      · rw [hclose] at hbrace
        rcases Nat.eq_or_lt_of_le hge with rfl | hgt
        · refine .inl ⟨c.mark stop "\x7d", ?_, h.covers _ (Nat.le_refl _) (Nat.lt_succ_self _)⟩
          exact mem_tokens.mpr (.inr hbrace)
        · exact .inr ⟨_, hbrace, c.pos_mono hgt⟩

theorem covers_readBlock {text : List Char} {c : LineConfig}
    (hc : readBlock src { source := text, offset } = c) (hbalanced : Balanced text)
    (hsilent : c.report.diagnostics = []) (h : Visible text i) :
    (∃ t ∈ c.tokens, t.Covers (sourceOffset text offset i)) ∨
      ∃ t ∈ c.closeBrace, t.stop ≤ sourceOffset text offset i := by
  unfold readBlock at hc
  simp only [if_pos hbalanced] at hc
  cases ho : text.findIdx? (· = '{') with
  | none =>
    simp only [ho] at hc
    refine .inl ⟨.covering text offset 0 text.length, mem_tokens.mpr (.inl (.inl ?_)),
      h.covers offset (Nat.zero_le i) h.lt_length⟩
    rw [← hc]
    rfl
  | some o =>
    have hbrace := getElem?_of_findIdx? ho
    obtain ⟨-, hbody⟩ := boundary_of_outer outer_brace.1 hbrace
    simp only [ho] at hc
    cases hk : lastIdx? '}' text with
    | none =>
      simp only [hk, Option.getD_none, Option.map_none] at hc
      exact covers_block hbrace (boundary_length text) hbody.le_length rfl rfl (.inl rfl) hc
        hsilent h
    | some k =>
      have hclose := getElem?_of_lastIdx? hk
      by_cases hok : o < k
      · simp only [hk, if_pos hok, Option.getD_some, Option.map_some] at hc
        exact covers_block hbrace (boundary_of_outer outer_brace.2 hclose).1 hok rfl rfl (.inr rfl)
          hc hsilent h
      · simp only [hk, if_neg hok, Option.getD_none, Option.map_none] at hc
        exact covers_block hbrace (boundary_length text) hbody.le_length rfl rfl (.inl rfl) hc
          hsilent h

/-- Reading a text without brackets and without a problem: what is visible is in a token or behind
the closing brace. -/
theorem covers_read {text : List Char} {c : LineConfig} (hc : parse src text offset = c)
    (hbrackets : '[' ∉ text ∧ ']' ∉ text) (hsilent : c.report.diagnostics = [])
    (h : Visible text i) :
    (∃ t ∈ c.tokens, t.Covers (sourceOffset text offset i)) ∨
      ∃ t ∈ c.closeBrace, t.stop ≤ sourceOffset text offset i := by
  have hbalanced : Balanced text := by
    have hmismatches : (parse src text offset).report.mismatches = _ := mismatches_parse text offset
    rw [hc, Report.mismatches, hsilent, List.countP_nil] at hmismatches
    by_contra hne
    rw [if_neg hne] at hmismatches
    cases hmismatches
  unfold parse read at hc
  simp only at hc
  split at hc
  · exact covers_readBlock hc hbalanced hsilent h
  · split at hc
    · rename_i hbracket
      rw [Bool.or_eq_true, List.contains_iff_mem, List.contains_iff_mem] at hbracket
      exact absurd hbracket (not_or.mpr hbrackets)
    · refine .inl ⟨.covering text offset 0 text.length, mem_tokens.mpr (.inl (.inl ?_)),
        h.covers offset (Nat.zero_le i) h.lt_length⟩
      rw [← hc]
      rfl

theorem frame_parse (src : Source) (text : List Char) (offset : Int) :
    (parse src text offset).source = text ∧ (parse src text offset).offset = offset := by
  unfold parse read readBlock readBracket
  simp only
  split
  · generalize hc : (if text.count '{' = text.count '}' then _ else _ : LineConfig) = c
    have hframe : c.source = text ∧ c.offset = offset := by
      rw [← hc]
      split <;> exact ⟨rfl, rfl⟩
    split
    · exact hframe
    · rw [foldl_addPiece]
      exact hframe
  · split
    · split
      · split <;> exact ⟨rfl, rfl⟩
      · exact ⟨rfl, rfl⟩
    · exact ⟨rfl, rfl⟩

/-- **A configuration accounts for its text.** -/
theorem told_parse (hbrackets : '[' ∉ text ∧ ']' ∉ text)
    (hsilent : (parse src text offset).report.diagnostics = []) :
    Told text offset 0 text.length (parse src text offset).tokens
      (parse src text offset).rest?.toList := by
  have hneat : LineToken.InOrder _ _ (parse src text offset).tokens :=
    (neat_parse text offset).tokens
  obtain ⟨hsource, hoffset⟩ := frame_parse src text offset
  have hcovers := fun {i} (h : Visible text i) => covers_read (c := parse src text offset) rfl
    hbrackets hsilent h
  generalize parse src text offset = c at *
  have hrest : ∀ {r : Int × Int}, r ∈ c.rest?.toList ↔
      ∃ t ∈ c.closeBrace, (t.stop, sourceOffset text offset text.length) = r := by
    intro r
    rw [Option.mem_toList, rest?, pos, hsource, hoffset]
    exact Option.map_eq_some_iff
  refine ⟨fun t ht => ?_, fun r hr => ?_, fun i hi hlo hhi => ?_⟩
  · rw [sourceOffset_zero]
    obtain ⟨hlo, -, hhi⟩ := hneat.bounds ht
    exact ⟨hlo, hhi⟩
  · obtain ⟨t, ht, rfl⟩ := hrest.mp hr
    obtain ⟨hlo, hle, -⟩ := hneat.bounds (mem_tokens.mpr (.inr ht))
    rw [sourceOffset_zero]
    exact ⟨Int.le_trans hlo hle, Int.le_refl _⟩
  · have hfront := sourceOffset_lt hi.boundary offset hhi
    by_cases hbehind : ∃ t ∈ c.closeBrace, t.stop ≤ sourceOffset text offset i
    · -- the closing brace is the last token, so no token reaches behind it
      obtain ⟨t, ht, hstop⟩ := hbehind
      rw [if_pos ⟨_, hrest.mpr ⟨t, ht, rfl⟩, hstop, hfront⟩]
      refine coverage_eq_zero fun u hu hcovers => ?_
      have hlast : c.tokens = (c.main.toList ++ (c.openBrace.toList ++
          c.entries.flatMap ConfigEntry.tokens)) ++ [t] := by
        rw [tokens, blockTokens, ht, Option.toList_some, List.append_assoc c.main.toList]
      have hle : u.stop ≤ t.stop := (hlast ▸ hneat).stop_le_last (hlast ▸ hu)
      have hlt := hcovers.2
      omega
    · obtain ⟨t, ht, hcovered⟩ := (hcovers hi).resolve_right hbehind
      rw [hneat.coverage_eq_one ht hcovered, if_neg]
      rintro ⟨r, hr, hstop, -⟩
      obtain ⟨t, ht, rfl⟩ := hrest.mp hr
      exact hbehind ⟨t, ht, hstop⟩

/-- The configuration behind a boundary accounts for the rest of the text. -/
theorem told_drop (hi : Boundary text i) (hbrackets : '[' ∉ text ∧ ']' ∉ text)
    (hsilent : (parse src (text.drop i) (sourceOffset text offset i)).report.diagnostics = []) :
    Told text offset i text.length (parse src (text.drop i) (sourceOffset text offset i)).tokens
      (parse src (text.drop i) (sourceOffset text offset i)).rest?.toList := by
  have hrest : '[' ∉ text.drop i ∧ ']' ∉ text.drop i :=
    hbrackets.imp (mt List.mem_of_mem_drop) (mt List.mem_of_mem_drop)
  have htold := told_parse hrest hsilent
  refine .slice hi (boundary_length text) hi.le_length ?_
  rwa [List.take_length, ← List.length_drop]

end LineConfig

/-! ## Clauses -/

variable {src : Source} {text : List Char} {offset : Int}

/-- The mark that a clause starts with. -/
theorem told_mark (text : List Char) (offset : Int) (value : String) :
    Told text offset 0 1 [⟨value, offset, sourceOffset text offset 1⟩] [] :=
  .token (sourceOffset_zero text offset).symm rfl

/-- The tokens of a targeter. -/
def Targeter.tokens (t : Targeter) : List LineToken := t.mark :: t.config.tokens

theorem Targeter.tokens_withHighlights (src : Source) (t : Targeter) :
    (t.withHighlights src).tokens = t.tokens := rfl

theorem Targeter.rest?_withHighlights (src : Source) (t : Targeter) :
    (t.withHighlights src).config.rest? = t.config.rest? := rfl

/-- A targeter accounts for its text. -/
theorem Targeter.told_read (hhead : text.head? = some '@') (hbrackets : '[' ∉ text ∧ ']' ∉ text)
    (hsilent : ((Targeter.parse src text offset).withHighlights src).report.diagnostics = []) :
    Told text offset 0 text.length ((Targeter.parse src text offset).withHighlights src).tokens
      ((Targeter.parse src text offset).withHighlights src).config.rest?.toList := by
  have hb := boundary_mark (by decide : Outer '@') hhead
  rw [Targeter.diagnostics_read] at hsilent
  rw [Targeter.tokens_withHighlights, Targeter.rest?_withHighlights]
  have hconfig := LineConfig.told_drop hb hbrackets hsilent
  exact (told_mark text offset "@").append hconfig (Nat.zero_le 1) hb.le_length

/-- The tokens of a trigger. -/
def Trigger.tokens (t : Trigger) : List LineToken :=
  [t.tilde, t.name] ++ t.colon.toList ++ t.argument.toList

/-- A trigger accounts for its text. -/
theorem Trigger.told_read (src : Source) (hhead : text.head? = some '~') :
    Told text offset 0 text.length ((Trigger.parse text offset).withHighlights src).tokens [] := by
  have hlength : 1 ≤ text.length := (boundary_mark (by decide : Outer '~') hhead).le_length
  have hcovering : ∀ i k, Told text offset i k [LineToken.covering text offset i k] [] :=
    fun i k => .token rfl rfl
  unfold Trigger.parse
  simp only
  cases hcolon : text.findIdx? (· = ':') with
  | none => exact (hcovering 0 1).append (hcovering 1 text.length) (Nat.zero_le 1) hlength
  | some i =>
    obtain ⟨hlt, -⟩ := List.findIdx?_eq_some_iff_getElem.mp hcolon
    have hpos : 1 ≤ i := LineConfig.findIdx?_pos hcolon hhead (by decide)
    have hname := (hcovering 0 1).append (hcovering 1 i) (Nat.zero_le 1) hpos
    have hmark := hname.append (hcovering i (i + 1)) (Nat.zero_le i) (Nat.le_succ i)
    exact hmark.append (hcovering (i + 1) text.length) (Nat.zero_le _) hlt

/-- The tokens of a condition. -/
def Condition.tokens (c : Condition) : List LineToken :=
  [c.question] ++ c.tilde.toList ++ c.negation.toList ++ c.config.tokens

/-- The mark of a condition accounts for its character, if it is there. -/
theorem Condition.told_markAt? (text : List Char) (offset : Int) (i : Nat) (x : Char) :
    Told text offset i (if (markAt? text offset i x).isSome then i + 1 else i)
      (markAt? text offset i x).toList [] := by
  unfold markAt?
  split
  · exact .token rfl rfl
  · exact .nil text offset i

theorem Condition.tokens_withHighlights (src : Source) (c : Condition) :
    (c.withHighlights src).tokens = c.tokens := rfl

theorem Condition.rest?_withHighlights (src : Source) (c : Condition) :
    (c.withHighlights src).config.rest? = c.config.rest? := rfl

/-- A condition accounts for its text. -/
theorem Condition.told_read (hhead : text.head? = some '?') (hbrackets : '[' ∉ text ∧ ']' ∉ text)
    (hsilent : ((Condition.parse src text offset).withHighlights src).report.diagnostics = []) :
    Told text offset 0 text.length ((Condition.parse src text offset).withHighlights src).tokens
      ((Condition.parse src text offset).withHighlights src).config.rest?.toList := by
  have hb := boundary_mark (by decide : Outer '?') hhead
  obtain ⟨-, htilde⟩ := inOrder_markAt? offset hb (by decide : Outer '~')
  obtain ⟨-, hnegation⟩ := inOrder_markAt? offset htilde (by decide : Outer '!')
  have hnext : ∀ i x, i ≤ if (markAt? text offset i x).isSome then i + 1 else i := by
    intro i x
    split
    · exact Nat.le_succ i
    · exact Nat.le_refl i
  rw [Condition.diagnostics_read] at hsilent
  rw [Condition.tokens_withHighlights, Condition.rest?_withHighlights]
  have hconfig := LineConfig.told_drop hnegation hbrackets hsilent
  have hmarks := ((told_mark text offset "?").append (told_markAt? text offset 1 '~')
    (Nat.zero_le 1) (hnext 1 '~')).append (told_markAt? text offset _ '!') (Nat.zero_le _)
    (hnext _ '!')
  exact hmarks.append hconfig (Nat.zero_le _) hnegation.le_length

end PackLint
