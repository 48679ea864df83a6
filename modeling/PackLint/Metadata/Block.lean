import PackLint.Text.Lines

/-!
# The metadata block

A document may start with lines marked `##`. `metadataBlock` is the text of those lines with the
mark blanked out, so that offsets into it are offsets into the document: `metadata_source`.
-/

namespace PackLint

/-- Whether a line belongs to the metadata. -/
def isMetadataLine : List Char → Bool
  | '#' :: '#' :: _ => true
  | _ => false

/-- The metadata lines that a text starts with, the marks replaced by spaces (`metadata_source`). -/
def metadataBlock (text : List Char) : List Char :=
  ((linesOf text).takeWhile isMetadataLine).flatMap fun line =>
    ' ' :: ' ' :: line.drop 2 ++ ['\n']

end PackLint
