import PackLint.Pack.Skill
import PackLint.Pack.Mob
import PackLint.Pack.Item
import PackLint.Text.Glob

/-!
# Kinds of files

A pack has files of skills, of mobs and of items. The kind of a file shows in the folder it lies in,
or is told by an id. Model of `PathMapping`, `find_schema` and `match_schema_id`; what they return
is the schema of a kind.
-/

namespace PackLint

/-- The kinds of files. -/
inductive FileKind where
  | skill
  | mob
  | item
deriving DecidableEq, Inhabited

namespace FileKind

/-- Every kind, in the order in which folders are tried. -/
def all : List FileKind := [skill, mob, item]

/-- The id of a kind. -/
def id : FileKind → String
  | skill => "mythic_skill"
  | mob => "mythic_mob"
  | item => "mythic_item"

/-- The ids of all kinds. -/
def ids : List String := all.map id

/-- The schema of the files of a kind. -/
def schema : FileKind → Schema
  | skill => Pack.skillSchema
  | mob => Pack.mobSchema
  | item => Pack.itemSchema

/-- The folder that holds the files of a kind. -/
def folder : FileKind → String
  | skill => "Skills"
  | mob => "Mobs"
  | item => "Items"

/-- The ends of the names of files. -/
def extensions : List String := ["yml", "yaml"]

/-- The globs of the paths of files of a kind: below the folder of the server or of a pack
(`_patterns`). -/
def globs (kind : FileKind) : List String :=
  extensions.flatMap fun e =>
    ["*/MythicMobs/" ++ kind.folder ++ "/*." ++ e,
     "*/MythicMobs/Packs/*/" ++ kind.folder ++ "/*." ++ e]

end FileKind

/-- Kinds of files with the globs of their paths. The first that matches counts. -/
abbrev PathMap := List (FileKind × List String)

namespace PathMap

/-- The globs of every kind (`PATH_MAP_DEFAULT`). -/
def standard : PathMap := FileKind.all.map fun kind => (kind, kind.globs)

/-- A path with slashes for backslashes. -/
def normalized (path : String) : List Char :=
  path.toList.map fun c => if c = '\\' then '/' else c

/-- The first kind that a path matches (`find_schema`). -/
def kindOf? (map : PathMap) (path : String) : Option FileKind :=
  let path := normalized path
  (map.find? fun entry => entry.2.any fun glob => globMatches glob path).map (·.1)

end PathMap

namespace FileKind

/-- The kind of a file by its path or uri. -/
def ofPath? (path : String) : Option FileKind := PathMap.standard.kindOf? path

/-- The kind with an id, case aside. -/
def ofId? (id : String) : Option FileKind :=
  all.find? fun kind => lowerText kind.id = lowerText id

/-- The kind with an id, which must be there (`match_schema_id`). -/
def ofId (id : String) : Except Fault FileKind :=
  match ofId? id with
  | some kind => .ok kind
  | none => .error (.unknownFileKind id ids)

end FileKind

end PackLint
