import PackLint.Text.Blank
import PackLint.Text.Lines

/-!
# Documentation

The documentation of a key is the last run of comment lines above it, without their marks, and
links to the pages of the wiki: `parse_documentation`, `md_link_wiki` and `md_see_also`.
-/

namespace PackLint

/-- The address under which the pages of the wiki stand. -/
def wikiAddress : String := "https://git.lumine.io/mythiccraft/MythicMobs/-/wikis"

/-- A trimmed comment line without its mark and one space behind it. -/
def commentText : List Char → List Char
  | '#' :: ' ' :: cs => cs
  | _ :: cs => cs
  | [] => []

/-- The comment lines that end a comment, read so far, and one more line. -/
def addCommentLine (run : List (List Char)) (line : List Char) : List (List Char) :=
  let line := trim line
  if line.head? = some '#' then run ++ [commentText line] else []

/-- The text of the comment lines at the end of a comment (`parse_documentation`). -/
def documentationText (comment : String) : String :=
  String.ofList (joinWith '\n' ((linesOf comment.toList).foldl addCommentLine []))

/-- A link to a page of the wiki (`md_link_wiki`). -/
def wikiLink (page : String) : String :=
  let title := String.ofList (page.toList.map fun c => if c = '-' then ' ' else c)
  "[Wiki: " ++ title ++ "](" ++ wikiAddress ++ "/" ++ page ++ ")"

/-- A section with links to pages of the wiki (`md_see_also`). -/
def seeAlso (pages : List String) : String :=
  "\n\n## See Also\n\n" ++ "\n\n".intercalate (pages.map fun p => "* " ++ wikiLink p)

end PackLint
