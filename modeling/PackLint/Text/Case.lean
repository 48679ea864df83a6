import PackLint.Text.CaseTable

/-!
# Letter case

`lower` and `upper` follow the full case mappings of the Unicode standard, the final form of the
Greek sigma included. On ASCII they are the mappings of `Char`.
-/

namespace PackLint

/-- A capital sigma is final when a letter comes before it and none after it, characters that case
rules look through left aside. `before` runs backwards from the sigma. -/
def isFinalSigma (before after : List Char) : Bool :=
  let ignorable := CharRange.anyContains caseIgnorableRanges
  let startsCased (cs : List Char) :=
    ((cs.dropWhile ignorable).head?.map (CharRange.anyContains casedRanges)).getD false
  startsCased before && !startsCased after

/-- The lower case of one character, the capital sigma aside. -/
def lowerChar (c : Char) : List Char :=
  if c.toNat < 128 then [c.toLower]
  else if c = 'İ' then ['i', '\u0307']
  else
    match CaseRun.shift? lowerRuns c.toNat with
    | some d => [Char.ofNat (c.toNat + d).toNat]
    | none => [c]

/-- The lower case of a text of which `before` has been read, backwards. -/
def lowerAfter (before : List Char) : List Char → List Char
  | [] => []
  | c :: cs =>
    (if c = 'Σ' then [if isFinalSigma before cs then 'ς' else 'σ'] else lowerChar c) ++
      lowerAfter (c :: before) cs

/-- The lower case of a text. -/
def lower (cs : List Char) : List Char :=
  lowerAfter [] cs

/-- The upper case of one character. -/
def upperChar (c : Char) : List Char :=
  if c.toNat < 128 then [c.toUpper]
  else
    match upperExpansions.lookup c.toNat with
    | some ns => ns.map Char.ofNat
    | none =>
      match CaseRun.shift? upperRuns c.toNat with
      | some d => [Char.ofNat (c.toNat + d).toNat]
      | none => [c]

/-- The upper case of a text. -/
def upper (cs : List Char) : List Char :=
  cs.flatMap upperChar

/-- The lower case of a string. -/
def lowerText (s : String) : String :=
  String.ofList (lower s.toList)

/-- The upper case of a string. -/
def upperText (s : String) : String :=
  String.ofList (upper s.toList)

end PackLint
