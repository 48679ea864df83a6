import PackLint.Schema.Context
import Mathlib.Data.List.Forall2

/-!
# Reports that say the same

Two documents with the same contents at different places are told the same at these places. Reports
are alike if they have the same diagnostics, hovers and links in the same order, wherever these
stand. A message may quote what stands at its range, which need not be laid out the same.

Results:
* `Report.Alike.merge`, `Report.Alike.mergeAll`: alike reports are merged to alike reports.
* `Except.Rel.bind`, `Except.Rel.mapM`: related computations go on to related outcomes.
-/

namespace PackLint

/-! ## Outcomes -/

/-- Two computations end in the same fault, or both yield something. -/
inductive Except.Rel {ε α β : Type} (R : α → β → Prop) : Except ε α → Except ε β → Prop
  | error (e : ε) : Rel R (.error e) (.error e)
  | ok {a : α} {b : β} (h : R a b) : Rel R (.ok a) (.ok b)

namespace Except.Rel

variable {ε α β γ δ : Type} {R : α → β → Prop} {S : γ → δ → Prop}

theorem refl {R : α → α → Prop} (h : ∀ a, R a a) (x : Except ε α) : Rel R x x := by
  cases x with
  | error e => exact .error e
  | ok a => exact .ok (h a)

theorem eq {x y : Except ε α} (h : Rel (· = ·) x y) : x = y := by
  cases h with
  | error _ => rfl
  | ok h => exact congrArg Except.ok h

theorem of_ok {a : α} {y : Except ε β} (h : Rel R (.ok a) y) : ∃ b, y = .ok b ∧ R a b := by
  cases h with
  | ok h => exact ⟨_, rfl, h⟩

theorem bind {x : Except ε α} {y : Except ε β} {f : α → Except ε γ} {g : β → Except ε δ}
    (hx : Rel R x y) (hf : ∀ a b, R a b → Rel S (f a) (g b)) : Rel S (x >>= f) (y >>= g) := by
  cases hx with
  | error e => exact .error e
  | ok h => exact hf _ _ h

theorem map {x : Except ε α} {y : Except ε β} {f : α → γ} {g : β → δ}
    (hx : Rel R x y) (hf : ∀ a b, R a b → S (f a) (g b)) : Rel S (x.map f) (y.map g) := by
  cases hx with
  | error e => exact .error e
  | ok h => exact .ok (hf _ _ h)

theorem mapM {f : α → Except ε γ} {g : β → Except ε δ} {l : List α} {l' : List β}
    (h : List.Forall₂ (fun a b => Rel S (f a) (g b)) l l') :
    Rel (List.Forall₂ S) (l.mapM f) (l'.mapM g) := by
  induction h with
  | nil => exact .ok .nil
  | cons hab _ ih =>
    rw [List.mapM_cons, List.mapM_cons]
    exact hab.bind fun c d hcd => ih.bind fun cs ds hcds => .ok (.cons hcd hcds)

end Except.Rel

/-! ## Reports -/

/-- `text` is what the source has at a range. -/
def Source.Shows (src : Source) (r : Range) (text : String) : Prop :=
  ∃ start stop : Nat, r = src.range start stop ∧ text = src.sliceText start stop

variable {src src' : Source}

/-- The same problem is found at two places. Its message may quote what stands there. -/
structure Diagnostic.Alike (src src' : Source) (d d' : Diagnostic) : Prop where
  code : d.code = d'.code
  severity : d.severity = d'.severity
  message : d.message = d'.message ∨ ∃ front back text text',
    src.Shows d.range text ∧ src'.Shows d'.range text' ∧
      d.message = front ++ text ++ back ∧ d'.message = front ++ text' ++ back

/-- Two links lead from documents of the same uri to the same declaration. -/
structure Link.Alike (l l' : Link) : Prop where
  fromUri : l.fromUri = l'.fromUri
  toUri : l.toUri = l'.toUri
  toSelectionRange : l.toSelectionRange = l'.toSelectionRange
  toRange : l.toRange = l'.toRange

/-- Two reports say the same, wherever they say it. -/
structure Report.Alike (src src' : Source) (r r' : Report) : Prop where
  diagnostics : List.Forall₂ (Diagnostic.Alike src src') r.diagnostics r'.diagnostics
  hovers : List.Forall₂ (fun h h' => h.contents = h'.contents) r.hovers r'.hovers
  links : List.Forall₂ Link.Alike r.links r'.links

namespace Report

/-- The report has highlights, completions and components at most. -/
structure Mute (r : Report) : Prop where
  diagnostics : r.diagnostics = []
  hovers : r.hovers = []
  links : r.links = []

theorem Mute.merge {r s : Report} (hr : r.Mute) (hs : s.Mute) : (r.merge s).Mute :=
  ⟨List.append_eq_nil_iff.mpr ⟨hr.diagnostics, hs.diagnostics⟩,
    List.append_eq_nil_iff.mpr ⟨hr.hovers, hs.hovers⟩,
    List.append_eq_nil_iff.mpr ⟨hr.links, hs.links⟩⟩

theorem mute_empty : Mute .empty := ⟨rfl, rfl, rfl⟩

theorem mute_ofHighlight (h : Highlight) : Mute (.ofHighlight h) := ⟨rfl, rfl, rfl⟩

theorem mute_mergeAll {rs : List Report} (h : ∀ r ∈ rs, r.Mute) : Mute (.mergeAll rs) := by
  induction rs with
  | nil => exact mute_empty
  | cons r rs ih =>
    rw [mergeAll_cons]
    exact (h r List.mem_cons_self).merge (ih fun s hs => h s (List.mem_cons_of_mem r hs))

end Report

namespace Report.Alike

theorem empty : Alike src src' .empty .empty := ⟨.nil, .nil, .nil⟩

theorem merge {r r' s s' : Report} (hr : Alike src src' r r') (hs : Alike src src' s s') :
    Alike src src' (r.merge s) (r'.merge s') :=
  ⟨List.rel_append hr.diagnostics hs.diagnostics, List.rel_append hr.hovers hs.hovers,
    List.rel_append hr.links hs.links⟩

theorem mergeAll {rs rs' : List Report} (h : List.Forall₂ (Alike src src') rs rs') :
    Alike src src' (.mergeAll rs) (.mergeAll rs') := by
  induction h with
  | nil => exact empty
  | cons hr _ ih =>
    rw [Report.mergeAll_cons, Report.mergeAll_cons]
    exact hr.merge ih

theorem ofHover {h h' : Hover} (hc : h.contents = h'.contents) :
    Alike src src' (.ofHover h) (.ofHover h') :=
  ⟨.nil, .cons hc .nil, .nil⟩

theorem of_mute {r r' : Report} (hr : r.Mute) (hr' : r'.Mute) : Alike src src' r r' := by
  refine ⟨?_, ?_, ?_⟩
  · rw [hr.diagnostics, hr'.diagnostics]
    exact .nil
  · rw [hr.hovers, hr'.hovers]
    exact .nil
  · rw [hr.links, hr'.links]
    exact .nil

end Report.Alike

/-! ## Sites -/

/-- Two sites differ at most in the document that is looked at. -/
structure Site.Alike (site site' : Site) : Prop where
  settings : site.settings = site'.settings
  data : site.data = site'.data
  registry : site.registry = site'.registry
  uri : site.uri = site'.uri

/-- Two looks at documents end in the same fault or with reports that say the same. -/
abbrev Site.SameOutcome (site site' : Site) : Except Fault Report → Except Fault Report → Prop :=
  Except.Rel (Report.Alike site.source site'.source)

/-- One look after the other. -/
theorem Site.SameOutcome.append {site site' : Site} {x x' y y' : Except Fault Report}
    (hx : site.SameOutcome site' x x') (hy : site.SameOutcome site' y y') :
    site.SameOutcome site' (do let r ← x; return r ++ (← y)) (do let r ← x'; return r ++ (← y')) :=
  hx.bind fun _ _ hr => hy.bind fun _ _ hs => .ok (hr.merge hs)

variable {site site' : Site}

/-- The same is said of two nodes. -/
theorem alike_problem (n n' : Node) (code : DiagnosticCode) (message : String) :
    Report.Alike site.source site'.source (site.problem n code message)
      (site'.problem n' code message) :=
  ⟨.cons ⟨rfl, rfl, Or.inl rfl⟩ .nil, .nil, .nil⟩

/-- The same is said of two nodes but for a quotation. -/
theorem alike_problem_quoting (n n' : Node) (code : DiagnosticCode) (front back : String) :
    Report.Alike site.source site'.source
      (site.problem n code (front ++ site.nodeText n ++ back))
      (site'.problem n' code (front ++ site'.nodeText n' ++ back)) :=
  ⟨.cons ⟨rfl, rfl, Or.inr ⟨front, back, site.nodeText n, site'.nodeText n',
    ⟨n.start, n.stop, rfl, rfl⟩, ⟨n'.start, n'.stop, rfl, rfl⟩, rfl, rfl⟩⟩ .nil, .nil, .nil⟩

theorem mute_highlight? (n : Node) (color : Option TextClass) : (site.highlight? n color).Mute := by
  cases color with
  | none => exact Report.mute_empty
  | some color => exact Report.mute_ofHighlight _

theorem alike_highlight? (n n' : Node) (color color' : Option TextClass) :
    Report.Alike site.source site'.source (site.highlight? n color) (site'.highlight? n' color') :=
  .of_mute (mute_highlight? n color) (mute_highlight? n' color')

end PackLint
