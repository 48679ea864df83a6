import PackLint.Proofs.SkillLine.Reading
import Mathlib.Data.List.DropRight

/-!
# Reading a block directly

The body of a block can be read from the line itself, without escaping anything: a character counts
as a mark only where no quotation is open. The body is cut at the semicolons that are marks and
stand in no inner brace or bracket, the blanks around each stretch are left out, and a stretch is
split at its first equals sign that is a mark. This is what `LineConfig.parse` is compared with.

Results:
* `Stretch.trimmed_text`: the blanks around a stretch, and what is left of it.
* `SkillLine.eq_of_splitEquals`: what stands on both sides of the equals sign.
-/

namespace PackLint

/-! ## Quotations -/

namespace SkillLine

/-- The quotation that is open behind a text, given the one open before it. -/
def quoteOver (quote : Option Char) (cs : List Char) : Option Char :=
  cs.foldl quoteAfter quote

theorem quoteOver_append (quote : Option Char) (cs ds : List Char) :
    quoteOver quote (cs ++ ds) = quoteOver (quoteOver quote cs) ds :=
  List.foldl_append

theorem isQuote_of_quoteAfter {quote : Option Char} (hquote : ∀ q ∈ quote, isQuote q) (c : Char) :
    ∀ q ∈ quoteAfter quote c, isQuote q := by
  intro q hq
  unfold quoteAfter at hq
  split at hq
  · split at hq
    · cases hq
    · exact hquote q hq
  · split at hq
    · rename_i hc
      cases hq
      exact hc
    · cases hq

theorem isQuote_of_quoteOver {quote : Option Char} (hquote : ∀ q ∈ quote, isQuote q)
    (cs : List Char) : ∀ q ∈ quoteOver quote cs, isQuote q := by
  induction cs generalizing quote with
  | nil => exact hquote
  | cons c cs ih => exact ih (isQuote_of_quoteAfter hquote c)

theorem not_isQuote_of_isBlank {c : Char} (hc : isBlank c) : isQuote c = false := by
  rw [Bool.eq_false_iff]
  intro hquote
  rcases (by simpa [isQuote] using hquote : c = '"' ∨ c = '\'') with rfl | rfl
  · exact absurd hc (by decide)
  · exact absurd hc (by decide)

/-- A blank opens and closes no quotation. -/
theorem quoteAfter_blank {quote : Option Char} (hquote : ∀ q ∈ quote, isQuote q) {c : Char}
    (hc : isBlank c) : quoteAfter quote c = quote := by
  have hplain := not_isQuote_of_isBlank hc
  unfold quoteAfter
  split
  · rename_i q
    rw [if_neg]
    rintro rfl
    rw [hquote c rfl] at hplain
    cases hplain
  · rw [if_neg (by rw [hplain]; exact Bool.false_ne_true)]

theorem quoteOver_blanks {quote : Option Char} (hquote : ∀ q ∈ quote, isQuote q) {cs : List Char}
    (hcs : ∀ c ∈ cs, isBlank c) : quoteOver quote cs = quote := by
  induction cs with
  | nil => rfl
  | cons c cs ih =>
    obtain ⟨hc, hcs⟩ := List.forall_mem_cons.mp hcs
    change quoteOver (quoteAfter quote c) cs = quote
    rw [quoteAfter_blank hquote hc, ih hcs]

/-! ## Marks -/

/-- The text in front of the first equals sign outside of quotes, and the text behind it. -/
def splitEquals (quote : Option Char) : List Char → Option (List Char × List Char)
  | [] => none
  | c :: cs =>
    if quote = none ∧ c = '=' then some ([], cs)
    else (splitEquals (quoteAfter quote c) cs).map fun p => (c :: p.1, p.2)

/-- What stands on both sides of the equals sign, at which no quotation is open. -/
theorem eq_of_splitEquals {quote : Option Char} {cs key value : List Char}
    (h : splitEquals quote cs = some (key, value)) :
    cs = key ++ '=' :: value ∧ quoteOver quote key = none := by
  induction cs generalizing quote key with
  | nil => cases h
  | cons c cs ih =>
    unfold splitEquals at h
    split at h
    · rename_i hmark
      cases h
      exact ⟨by rw [hmark.2, List.nil_append], hmark.1⟩
    · obtain ⟨p, hp, heq⟩ := Option.map_eq_some_iff.mp h
      cases heq
      obtain ⟨hcs, hover⟩ := ih hp
      exact ⟨by rw [hcs, List.cons_append], hover⟩

/-- The number of open braces and brackets behind a character; those in quotes do not count. -/
def depthAfter (quote : Option Char) (depth : Int) (c : Char) : Int :=
  if quote.isSome then depth
  else if c = '{' ∨ c = '[' then depth + 1
  else if c = '}' ∨ c = ']' then depth - 1
  else depth

end SkillLine

/-! ## Stretches -/

/-- A stretch of the line and the offset it starts at. -/
structure Stretch where
  start : Int
  text : List Char

namespace Stretch

open SkillLine LineConfig

variable (s : Stretch)

/-- The offset behind the stretch. -/
def stop : Int := s.start + s.text.length

/-- The stretch as a token. -/
def token : LineToken := ⟨String.ofList s.text, s.start, s.stop⟩

/-- The stretch without the blanks at both ends. -/
def trimmed : Stretch := ⟨s.start + (s.text.takeWhile isBlank).length, trim s.text⟩

/-- The blanks around a text, and what is left of it. -/
theorem trimmed_text (text : List Char) :
    ∃ trail, text = text.takeWhile isBlank ++ trim text ++ trail ∧ (∀ c ∈ trail, isBlank c) ∧
      ∀ hne : trim text ≠ [], ¬ isBlank ((trim text).getLast hne) := by
  refine ⟨(text.dropWhile isBlank).rtakeWhile isBlank, ?_, ?_, ?_⟩
  · rw [List.append_assoc]
    change text = _ ++ (List.rdropWhile isBlank (text.dropWhile isBlank) ++ _)
    rw [List.rdropWhile_append_rtakeWhile, List.takeWhile_append_dropWhile]
  · intro c hc
    exact List.mem_rtakeWhile_imp hc
  · intro hne
    exact List.rdropWhile_last_not isBlank (text.dropWhile isBlank) hne

/-- What a stretch between semicolons says. -/
def reading (terminated : Bool) : Reading :=
  let t := s.trimmed
  if t.text = [] then .blank
  else
    match splitEquals none t.text with
    | none => .unequal t.token
    | some (keyText, valueText) =>
      let key := (Stretch.mk t.start keyText).trimmed.token
      let equals := t.start + keyText.length
      .entry t.token
        { key := { key with value := lowerText key.value }
          equals := ⟨"=", equals, equals + 1⟩
          value := (Stretch.mk (equals + 1) valueText).trimmed.token
          semicolon := if terminated then some ⟨";", s.stop, s.stop + 1⟩ else none }

end Stretch

namespace SkillLine

open LineConfig

/-- The stretches between the semicolons outside of quotes, braces and brackets, each with whether a
semicolon ends it; the current stretch starts at the offset `start` with the characters `run`. -/
def cutFrom (start : Int) (run : List Char) (quote : Option Char) (depth : Int) :
    List Char → List (Stretch × Bool)
  | [] => [(⟨start, run⟩, false)]
  | c :: cs =>
    if quote = none ∧ c = ';' ∧ depth = 0 then
      (⟨start, run⟩, true) :: cutFrom (start + run.length + 1) [] none 0 cs
    else cutFrom start (run ++ [c]) (quoteAfter quote c) (depthAfter quote depth c) cs

/-- What the stretches of a body at the offset `start` say. -/
def readBody (start : Int) (body : List Char) : List Reading :=
  (cutFrom start [] none 0 body).map fun p => p.1.reading p.2

end SkillLine

end PackLint
