/-!
# Settings

What a user may set: the limits on documents, how far a suggestion may lie from a misspelt name,
and how much is logged. Model of `Settings`; the limits are the arguments of `TrackedLoader`.
-/

namespace PackLint

/-- The limits on what is read: characters of a document, nodes of a tree, and levels below its
root. -/
structure Limits where
  maxDocumentSize : Int := 5000000
  maxNodeCount : Int := 50000
  maxDepth : Int := 64

/-- The settings. -/
structure Settings extends Limits where
  logLevel : String := "INFO"
  suggestionMaxDistance : Int := 3

end PackLint
