import PackLint.Text.Glob
import Mathlib.Logic.Basic

/-!
# Globs of stars and plain texts

A glob that is made of plain texts with a star in front of each matches a text that holds the plain
texts in order and ends with the last of them: `Glob.Spread`.

Results:
* `Glob.itemsFrom_starred`: the elements of such a glob.
* `Glob.globMatches_starred`: which texts such a glob matches.
-/

namespace PackLint

theorem mem_suffixes {cs suffix : List Char} : suffix ∈ suffixes cs ↔ suffix <:+ cs := by
  induction cs with
  | nil => simp [suffixes]
  | cons c cs ih => rw [suffixes, List.mem_cons, ih, List.suffix_cons_iff]

namespace Glob

/-- A text in which every character stands for itself. -/
def Plain (piece : List Char) : Prop := ∀ c ∈ piece, c ≠ '*' ∧ c ≠ '?' ∧ c ≠ '['

instance : DecidablePred Plain := List.decidableBAll _

/-- The glob of plain texts with a star in front of each. -/
def starred (pieces : List (List Char)) : List Char := pieces.flatMap ('*' :: ·)

/-- The elements of the glob of plain texts with a star in front of each. -/
def starredItems (pieces : List (List Char)) : List GlobItem :=
  pieces.flatMap fun piece => .anything :: piece.map .exactly

/-- The text is made of the pieces in order, with any text in front of each. -/
def Spread : List (List Char) → List Char → Prop
  | [], text => text = []
  | piece :: pieces, text => ∃ front rest, text = front ++ piece ++ rest ∧ Spread pieces rest

variable {piece rest text : List Char} {pieces : List (List Char)} {ps : List GlobItem}

theorem spread_singleton : Spread [piece] text ↔ piece <:+ text := by
  constructor
  · rintro ⟨front, _, rfl, rfl⟩
    exact ⟨front, (List.append_nil _).symm⟩
  · rintro ⟨front, rfl⟩
    exact ⟨front, [], (List.append_nil _).symm, rfl⟩

theorem spread_pair {stop : List Char} :
    Spread [piece, stop] text ↔ ∃ front rest, text = front ++ piece ++ rest ∧ stop <:+ rest :=
  exists₂_congr fun _ _ => and_congr_right' spread_singleton

/-! ## The elements of a glob -/

theorem itemsFrom_plain (h : Plain piece) (rest : List Char) :
    itemsFrom 0 (piece ++ rest) = piece.map .exactly ++ itemsFrom 0 rest := by
  induction piece with
  | nil => rfl
  | cons c piece ih =>
    obtain ⟨⟨hstar, hmark, hbracket⟩, hpiece⟩ := List.forall_mem_cons.mp h
    rw [List.cons_append, itemsFrom, if_neg hstar, if_neg hmark, if_neg hbracket, ih hpiece]
    rfl

/-- **The elements of a glob of plain texts** with a star in front of each. -/
theorem itemsFrom_starred (h : ∀ piece ∈ pieces, Plain piece) :
    itemsFrom 0 (starred pieces) = starredItems pieces := by
  induction pieces with
  | nil => rfl
  | cons piece pieces ih =>
    obtain ⟨hpiece, hpieces⟩ := List.forall_mem_cons.mp h
    have hcons : itemsFrom 0 (starred (piece :: pieces)) =
        .anything :: itemsFrom 0 (piece ++ starred pieces) := rfl
    rw [hcons, itemsFrom_plain hpiece, ih hpieces]
    rfl

/-! ## Matching -/

theorem matchItems_anything :
    matchItems (.anything :: ps) text ↔
      ∃ front rest, text = front ++ rest ∧ matchItems ps rest := by
  rw [matchItems, List.any_eq_true]
  constructor
  · rintro ⟨rest, hrest, hmatch⟩
    obtain ⟨front, rfl⟩ := mem_suffixes.mp hrest
    exact ⟨front, rest, rfl, hmatch⟩
  · rintro ⟨front, rest, rfl, hmatch⟩
    exact ⟨rest, mem_suffixes.mpr (List.suffix_append _ _), hmatch⟩

theorem matchItems_exactly :
    matchItems (piece.map .exactly ++ ps) text ↔
      ∃ rest, text = piece ++ rest ∧ matchItems ps rest := by
  induction piece generalizing text with
  | nil => simp
  | cons d piece ih =>
    cases text with
    | nil => simp [matchItems]
    | cons c text =>
      rw [List.map_cons, List.cons_append, matchItems, Bool.and_eq_true, ih, decide_eq_true_iff]
      simp [and_assoc]

theorem matchItems_starredItems : matchItems (starredItems pieces) text ↔ Spread pieces text := by
  induction pieces generalizing text with
  | nil => simp [starredItems, matchItems, Spread]
  | cons piece pieces ih =>
    have hcons : starredItems (piece :: pieces) =
        .anything :: (piece.map .exactly ++ starredItems pieces) := rfl
    rw [hcons, matchItems_anything, Spread]
    simp only [matchItems_exactly, ih]
    constructor
    · rintro ⟨front, _, rfl, rest, rfl, hrest⟩
      exact ⟨front, rest, (List.append_assoc ..).symm, hrest⟩
    · rintro ⟨front, rest, rfl, hrest⟩
      exact ⟨front, piece ++ rest, List.append_assoc .., rest, rfl, hrest⟩

/-- **Which texts a glob of plain texts matches**, with a star in front of each. -/
theorem globMatches_starred {glob : String} (hglob : glob.toList = starred pieces)
    (h : ∀ piece ∈ pieces, Plain piece) : globMatches glob text ↔ Spread pieces text := by
  rw [globMatches, items, hglob, itemsFrom_starred h, matchItems_starredItems]

end Glob

end PackLint
