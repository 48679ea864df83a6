import PackLint.Text.Blank
import PackLint.Text.Lines
import PackLint.Entries

/-!
# Files of variables

A file of variables has lines `NAME=value`, perhaps with `export` in front. A value may stand in
quotes and then run over several lines; a backslash escapes a quote in it, and between double
quotes also stands for control characters. A `#` behind a blank starts a comment, and so does one
at the start of a line. A line with a name alone names a variable that has no value. A line of any
other form is skipped.

In a value, the name of a variable in braces behind a dollar sign stands for the value of the
variable, which an earlier line or the environment gives; a default may follow the name behind `:-`.

Such a file is the `env_file` of `Settings`.
-/

namespace PackLint.VariableFile

/-! ## Pieces of a line -/

/-- Whether a character is blank but does not end the line. -/
def isInlineBlank (c : Char) : Bool := isBlank c && c ≠ '\n'

/-- Whether a character may stand in a name. -/
def isNameChar (c : Char) : Bool := !isBlank c && c ≠ '=' && c ≠ '#'

/-- The text behind the next line feed. -/
def nextLine (cs : List Char) : List Char := (cs.dropWhile (· ≠ '\n')).drop 1

/-- The text behind the word `export` and blanks, if it starts so. -/
def skipExport (cs : List Char) : List Char :=
  match cs with
  | 'e' :: 'x' :: 'p' :: 'o' :: 'r' :: 't' :: c :: r =>
    if isInlineBlank c then r.dropWhile isInlineBlank else cs
  | _ => cs

/-- The name at the start of a text, perhaps in single quotes, and the text behind it. -/
def name? (cs : List Char) : Option (List Char × List Char) :=
  match cs with
  | '\'' :: r =>
    let name := r.takeWhile (· ≠ '\'')
    match r.dropWhile (· ≠ '\'') with
    | _ :: rest => if name.isEmpty then none else some (name, rest)
    | [] => none
  | _ =>
    let name := cs.takeWhile isNameChar
    if name.isEmpty then none else some (name, cs.dropWhile isNameChar)

/-- The text up to the closing quote, escapes left as they are, and the text behind the quote. No
character behind a backslash closes. -/
def quoted? (quote : Char) : List Char → Option (List Char × List Char)
  | [] => none
  | [c] => if c = quote then some ([], []) else none
  | c :: d :: cs =>
    if c = quote then some ([], d :: cs)
    else if c = '\\' then (quoted? quote cs).map fun (text, rest) => (c :: d :: text, rest)
    else (quoted? quote (d :: cs)).map fun (text, rest) => (c :: text, rest)

/-- What a backslash and a character stand for in quotes, if anything but themselves. -/
def escape? (quote c : Char) : Option Char :=
  if c = '\\' ∨ c = '\'' then some c
  else if quote = '\'' then none
  else
    [('"', '"'), ('a', '\x07'), ('b', '\x08'), ('f', '\x0c'), ('n', '\n'), ('r', '\r'), ('t', '\t'),
      ('v', '\x0b')].lookup c

/-- The text in quotes with its escapes replaced. -/
def unescaped (quote : Char) : List Char → List Char
  | [] => []
  | [c] => [c]
  | c :: d :: cs =>
    match if c = '\\' then escape? quote d else none with
    | some e => e :: unescaped quote cs
    | none => c :: unescaped quote (d :: cs)

/-- A line up to a comment, which starts at a `#` behind a blank, and the blanks before it. -/
def upToComment : List Char → List Char
  | [] => []
  | c :: cs =>
    if isBlank c ∧ ((c :: cs).dropWhile isBlank).head? = some '#' then [] else c :: upToComment cs

/-- The value behind an equals sign and the text behind it. -/
def value? (cs : List Char) : Option (List Char × List Char) :=
  match cs.dropWhile isInlineBlank with
  | '\'' :: r => (quoted? '\'' r).map fun (text, rest) => (unescaped '\'' text, rest)
  | '"' :: r => (quoted? '"' r).map fun (text, rest) => (unescaped '"' text, rest)
  | _ => some (trim (upToComment (cs.takeWhile (· ≠ '\n'))), cs.dropWhile (· ≠ '\n'))

/-- The text behind the end of the line, before which only blanks and a comment may stand. -/
def lineEnd? (cs : List Char) : Option (List Char) :=
  let cs := cs.dropWhile isInlineBlank
  let cs := if cs.head? = some '#' then cs.dropWhile (· ≠ '\n') else cs
  match cs with
  | [] => some []
  | c :: r => if c = '\n' then some r else none

/-- A line that has been read: the variable that it names with its value, if it gives one, and the
text behind the line. -/
structure Line where
  entry : Option (String × Option (List Char))
  rest : List Char

/-- A line that ends behind a variable, or is skipped if something else stands there. -/
def Line.ending (name : List Char) (value : Option (List Char)) (cs : List Char) : Line :=
  match lineEnd? cs with
  | some rest => ⟨some (String.ofList name, value), rest⟩
  | none => ⟨none, nextLine cs⟩

/-- The line at the start of a text. A line that has no such form is skipped from where it goes
wrong, so that a value in quotes before is not read again. -/
def Line.read (cs : List Char) : Line :=
  let cs := skipExport cs
  match name? cs with
  | none => ⟨none, nextLine cs⟩
  | some (name, rest) =>
    match rest.dropWhile isInlineBlank with
    | '=' :: r =>
      match value? r with
      | some (value, rest) => Line.ending name (some value) rest
      | none => ⟨none, nextLine r⟩
    | rest => Line.ending name none rest

/-! ## Variables in values -/

/-- The value of a reference `{name}` or `{name:-default}` behind a dollar sign, and the text
behind it. -/
def reference? (known : List (String × Option String)) (cs : List Char) :
    Option (List Char × List Char) :=
  match cs with
  | '{' :: r =>
    let name := r.takeWhile fun c => c ≠ '}' && c ≠ ':'
    let value := (known.lookup (String.ofList name)).map (·.getD "")
    match r.dropWhile fun c => c ≠ '}' && c ≠ ':' with
    | '}' :: rest => some (((value.map String.toList).getD []), rest)
    | ':' :: '-' :: d =>
      match d.dropWhile (· ≠ '}') with
      | _ :: rest => some ((value.map String.toList).getD (d.takeWhile (· ≠ '}')), rest)
      | [] => none
    | _ => none
  | _ => none

/-- A value whose first `skip` characters have been read, with its references replaced. -/
def expanded (known : List (String × Option String)) (skip : Nat) : List Char → List Char
  | [] => []
  | c :: cs =>
    match skip with
    | n + 1 => expanded known n cs
    | 0 =>
      match if c = '$' then reference? known cs else none with
      | some (text, rest) => text ++ expanded known (cs.length - rest.length) cs
      | none => c :: expanded known 0 cs

/-! ## The file -/

/-- The variables set in `lines` lines of a text, added to those that are found before. -/
def variablesFrom (environment : List (String × Option String)) :
    Nat → List Char → List (String × Option String) → List (String × Option String)
  | 0, _, found => found
  | lines + 1, cs, found =>
    match cs.dropWhile isBlank with
    | [] => found
    | c :: r =>
      let line := Line.read (c :: r)
      match line.entry with
      | some (name, value) =>
        let value := value.map fun v => String.ofList (expanded (found ++ environment) 0 v)
        variablesFrom environment lines line.rest (Entries.insert name value found)
      | none => variablesFrom environment lines line.rest found

/-- The text without the byte order mark that it may start with. -/
def dropByteOrderMark (cs : List Char) : List Char :=
  match cs with
  | '\uFEFF' :: r => r
  | _ => cs

/-- The variables that a file names in an environment, each once with its last value, if that line
gives one. -/
def assigned (environment : List (String × String)) (text : String) :
    List (String × Option String) :=
  let cs := unifyBreaks (dropByteOrderMark text.toList)
  variablesFrom (environment.map fun (name, value) => (name, some value)) (linesOf cs).length cs []

end PackLint.VariableFile
