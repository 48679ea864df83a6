import PackLint.SkillLine.Config

/-!
# What the pieces of a body say

The pieces of a body are read one after the other, and what a piece says depends on its own span
only. The pieces in front decide nothing but whether its key is a repeated one. So the entries of a
configuration are those of the single pieces, in order, and what is reported about the pieces can be
told from what each of them says.

Results:
* `LineConfig.addPiece_eq`: reading a piece adds what the piece says.
* `LineConfig.foldl_addPiece`: the entries and the problems of all pieces.
-/

namespace PackLint

/-- A report of some problems. -/
def Report.ofDiagnostics (ds : List Diagnostic) : Report := { diagnostics := ds }

theorem Report.ofDiagnostics_append (ds es : List Diagnostic) :
    ofDiagnostics (ds ++ es) = (ofDiagnostics ds).merge (ofDiagnostics es) := by
  simp only [ofDiagnostics, merge, List.append_nil, ComponentTable.append]

namespace LineConfig

/-! ## Single pieces -/

/-- What a piece of a body says. -/
inductive Reading where
  /-- Nothing: the piece has blanks only. -/
  | blank
  /-- The piece has no equals sign. -/
  | unequal (piece : LineToken)
  /-- The piece is an entry. -/
  | entry (piece : LineToken) (e : ConfigEntry)

namespace Reading

/-- The entry that a piece holds. -/
def held? : Reading → Option ConfigEntry
  | blank => none
  | unequal _ => none
  | entry _ e => some e

/-- The piece that a reading tells of. -/
def piece? : Reading → Option LineToken
  | blank => none
  | unequal piece => some piece
  | entry piece _ => some piece

/-- The problem of a piece without an equals sign. -/
def missingEquals (src : Source) (piece : LineToken) : Diagnostic where
  range := src.range piece.start piece.stop
  message := "Expected `key=value`, but got `" ++ piece.value ++ "`."
  code := .missingEquals

/-- The problem of an entry whose key is there already. -/
def duplicateKey (src : Source) (piece : LineToken) (e : ConfigEntry) : Diagnostic where
  range := src.range piece.start piece.stop
  message := "Duplicate key: " ++ e.key.value
  code := .duplicateKey

/-- The problems of pieces that stand behind entries with the keys `keys`. -/
def problems (src : Source) (keys : List String) : List Reading → List Diagnostic
  | [] => []
  | blank :: rs => problems src keys rs
  | unequal piece :: rs => missingEquals src piece :: problems src keys rs
  | entry piece e :: rs =>
    (if e.key.value ∈ keys then [duplicateKey src piece e] else []) ++
      problems src (keys ++ [e.key.value]) rs

end Reading

variable (src : Source) (c : LineConfig)

/-- What a piece of the body says. -/
def reading (p : Piece) : Reading :=
  let (start, stop) := trimSpan c.source p.start p.stop
  if start = stop then .blank
  else
    match ((c.source.take stop).drop start).findIdx? (· = '=') with
    | none => .unequal (c.token start stop)
    | some i =>
      let (keyStart, keyStop) := trimSpan c.source start (start + i)
      let (valueStart, valueStop) := trimSpan c.source (start + i + 1) stop
      let key := c.token keyStart keyStop
      .entry (c.token start stop)
        { key := { key with value := lowerText key.value }
          equals := c.mark (start + i) "="
          value := c.token valueStart valueStop
          semicolon := if p.terminated then some (c.mark p.stop ";") else none }

/-- What pieces say depends on the text and its offset only. -/
theorem reading_congr {c c' : LineConfig} (hsource : c.source = c'.source)
    (hoffset : c.offset = c'.offset) : c.reading = c'.reading := by
  funext p
  unfold reading token mark pos
  rw [hsource, hoffset]

/-- The configuration with more entries and problems. -/
def taking (entries : List ConfigEntry) (ds : List Diagnostic) : LineConfig :=
  { c with entries := c.entries ++ entries, report := c.report.merge (.ofDiagnostics ds) }

theorem taking_nil : c.taking [] [] = c := by
  have hreport : c.report.merge (.ofDiagnostics []) = c.report := c.report.merge_empty
  simp only [taking, List.append_nil, hreport]

theorem taking_taking (es fs : List ConfigEntry) (ds gs : List Diagnostic) :
    (c.taking es ds).taking fs gs = c.taking (es ++ fs) (ds ++ gs) := by
  simp only [taking, List.append_assoc, Report.ofDiagnostics_append, Report.merge_assoc]

/-! ## All pieces -/

/-- The keys of the entries. -/
def keys : List String := c.entries.map (·.key.value)

/-- **Reading a piece adds what the piece says.** -/
theorem addPiece_eq (p : Piece) :
    c.addPiece src p =
      c.taking (c.reading p).held?.toList (Reading.problems src c.keys [c.reading p]) := by
  unfold addPiece reading
  generalize trimSpan c.source p.start p.stop = span
  obtain ⟨start, stop⟩ := span
  simp only
  by_cases hblank : start = stop
  · rw [if_pos hblank, if_pos hblank]
    exact (c.taking_nil).symm
  · rw [if_neg hblank, if_neg hblank]
    cases ((c.source.take stop).drop start).findIdx? (· = '=') with
    | none =>
      simp only [Reading.held?, Reading.problems, Option.toList_none, taking, List.append_nil]
      rfl
    | some i =>
      simp only [Reading.held?, Reading.problems, Option.toList_some, List.append_nil]
      generalize lowerText _ = key
      by_cases hrepeated : key ∈ c.keys
      · have hany : c.entries.any (fun e => e.key.value = key) = true := by
          simpa [keys] using hrepeated
        rw [if_pos hrepeated, if_pos hany]
        rfl
      · have hany : ¬ c.entries.any (fun e => e.key.value = key) = true := by
          simpa [keys] using hrepeated
        rw [if_neg hrepeated, if_neg hany]
        exact congrArg (LineConfig.mk _ _ _ _ _ _) c.report.merge_empty.symm

theorem reading_taking (es : List ConfigEntry) (ds : List Diagnostic) :
    (c.taking es ds).reading = c.reading :=
  reading_congr rfl rfl

theorem keys_taking (es : List ConfigEntry) (ds : List Diagnostic) :
    (c.taking es ds).keys = c.keys ++ es.map (·.key.value) := by
  simp only [keys, taking, List.map_append]

/-- The problems of the first piece, and those of the others behind its entry. -/
theorem Reading.problems_cons (src : Source) (keys : List String) (r : Reading)
    (rs : List Reading) :
    problems src keys (r :: rs) =
      problems src keys [r] ++ problems src (keys ++ r.held?.toList.map (·.key.value)) rs := by
  cases r with
  | blank => simp only [problems, held?, Option.toList_none, List.map_nil, List.append_nil,
      List.nil_append]
  | unequal piece => simp only [problems, held?, Option.toList_none, List.map_nil,
      List.append_nil, List.singleton_append]
  | entry piece e => simp only [problems, held?, Option.toList_some, List.map_cons, List.map_nil,
      List.append_nil]

/-- Every problem is one of a piece. -/
theorem Reading.of_mem_problems {src : Source} {keys : List String} {rs : List Reading}
    {d : Diagnostic} (h : d ∈ problems src keys rs) :
    ∃ r ∈ rs, ∃ piece ∈ r.piece?, d.range = src.range piece.start piece.stop ∧
      (d.code = .missingEquals ∨ d.code = .duplicateKey) := by
  induction rs generalizing keys with
  | nil => cases h
  | cons r rs ih =>
    have hrest : ∀ {keys' : List String}, d ∈ problems src keys' rs →
        ∃ r' ∈ r :: rs, ∃ piece ∈ r'.piece?, d.range = src.range piece.start piece.stop ∧
          (d.code = .missingEquals ∨ d.code = .duplicateKey) := by
      intro keys' h
      obtain ⟨r', hr', hd⟩ := ih h
      exact ⟨r', List.mem_cons_of_mem r hr', hd⟩
    cases r with
    | blank => exact hrest h
    | unequal piece =>
      rcases List.mem_cons.mp h with rfl | h
      · exact ⟨_, List.mem_cons_self, piece, rfl, rfl, Or.inl rfl⟩
      · exact hrest h
    | entry piece e =>
      rcases List.mem_append.mp h with h | h
      · split at h
        · rw [List.mem_singleton.mp h]
          exact ⟨_, List.mem_cons_self, piece, rfl, rfl, Or.inr rfl⟩
        · cases h
      · exact hrest h

/-- **The entries of the body are those of its pieces, in order, and every problem is that of a
piece behind the keys in front of it.** -/
theorem foldl_addPiece (ps : List Piece) :
    ps.foldl (addPiece src) c =
      c.taking ((ps.map c.reading).filterMap Reading.held?)
        (Reading.problems src c.keys (ps.map c.reading)) := by
  induction ps generalizing c with
  | nil => exact (c.taking_nil).symm
  | cons p ps ih =>
    rw [List.foldl_cons, addPiece_eq, ih, reading_taking, keys_taking, taking_taking,
      List.map_cons, Reading.problems_cons src c.keys _ (ps.map c.reading)]
    cases hentry : (c.reading p).held? with
    | none => rw [List.filterMap_cons_none hentry, Option.toList_none, List.nil_append]
    | some e => rw [List.filterMap_cons_some hentry, Option.toList_some, List.singleton_append]

end LineConfig

end PackLint
