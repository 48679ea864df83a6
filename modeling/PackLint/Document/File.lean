import PackLint.Document

/-!
# Documents in files

A file is read as UTF-8 with line feeds for all line breaks. Its document has the uri of its path,
with dots resolved, and is bound by that path: `MythicDoc.from_file_path`.
-/

namespace PackLint

namespace FilePath

/-- Whether a byte stands for itself in a uri. -/
def isPlainByte (b : UInt8) : Bool :=
  let c := Char.ofNat b.toNat
  b < 128 && (c.isAlphanum || ['_', '.', '-', '~', '/'].contains c)

/-- A byte of a path in a uri. -/
def uriByte (b : UInt8) : List Char :=
  if isPlainByte b then [Char.ofNat b.toNat]
  else '%' :: (hexDigits 2 b.toNat).map Char.toUpper

/-- The uri of an absolute path. -/
def uri (path : String) : String :=
  "file://" ++ String.ofList (path.toUTF8.toList.flatMap uriByte)

/-- The segments of a path after one more, which may be a dot or two; `segments` are those so far,
the last first. -/
def addSegment (segments : List (List Char)) (segment : List Char) : List (List Char) :=
  if segment.isEmpty ∨ segment = ['.'] then segments
  else if segment = ['.', '.'] then segments.drop 1
  else segment :: segments

/-- The absolute path of a path from the root, without dots and doubled slashes. -/
def resolved (path : String) : String :=
  let segments := (cutAt '/' path.toList).foldl addSegment []
  String.ofList ('/' :: joinWith '/' segments.reverse)

end FilePath

/-- The document in the file at `path`, which is taken from the root and holds `bytes` if it
exists (`from_file_path`). -/
def Document.ofFile (path : String) (bytes : Option ByteArray) : Except Fault Document :=
  match bytes with
  | none => .error .noFile
  | some bytes =>
    match String.fromUTF8? bytes with
    | none => .error .notUtf8
    | some text =>
      let path := FilePath.resolved path
      .ok {
        uri := FilePath.uri path
        source := .ofList (unifyBreaks text.toList)
        binding := (FileKind.ofPath? path).map .kind }

end PackLint
