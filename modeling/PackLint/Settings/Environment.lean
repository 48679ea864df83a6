import PackLint.Settings
import PackLint.Settings.VariableFile
import PackLint.Field
import PackLint.Text.Case
import PackLint.Entries

/-!
# Settings from the environment

A setting may be given directly, by a variable of the environment, or in a file of variables, in
this order of precedence. The variable of a setting is its name behind `MYTHIC_ANALYZER_`, in any
case. Model of how `Settings` is filled as its `model_config` says.
-/

namespace PackLint

namespace Settings

/-- What stands before the name of a setting in the name of its variable, in lower case. -/
def variableFront : List Char := "mythic_analyzer_".toList

/-- The setting that a variable is for. -/
def settingName? (name : String) : Option String :=
  let name := lower name.toList
  if variableFront.isPrefixOf name then some (String.ofList (name.drop variableFront.length))
  else none

/-- The settings that variables give. Of several variables for one setting the last one counts, and
one without a value gives none. -/
def variableFields (assigned : List (String × Option String)) : List (String × Value) :=
  let settings := Entries.ofList <| assigned.filterMap fun (name, value) =>
    (settingName? name).map fun setting => (setting, value)
  settings.filterMap fun (setting, value) => value.map fun text => (setting, .str text)

/-- The settings that fields give, the first of a name; all others have their defaults. -/
def ofFields (fields : List (String × Value)) : Except (List FieldError) Settings :=
  let d : Settings := {}
  Field.Reader.finish do
    let logLevel ← Field.read fields "log_level" Field.string d.logLevel
    let suggestionMaxDistance ←
      Field.read fields "suggestion_max_distance" Field.integer d.suggestionMaxDistance
    let maxDocumentSize ← Field.read fields "max_document_size" Field.integer d.maxDocumentSize
    let maxNodeCount ← Field.read fields "max_node_count" Field.integer d.maxNodeCount
    let maxDepth ← Field.read fields "max_depth" Field.integer d.maxDepth
    return { logLevel, suggestionMaxDistance, maxDocumentSize, maxNodeCount, maxDepth }

/-- The settings given directly, by the environment, and in a file of variables. -/
def gather (given : List (String × Value)) (environment : List (String × String))
    (file : String) : Except (List FieldError) Settings :=
  ofFields (given ++ variableFields (environment.map fun (name, value) => (name, some value)) ++
    variableFields (VariableFile.assigned environment file))

/-- The level that is logged, in capitals. -/
def loggedLevel (s : Settings) : String := upperText s.logLevel

end Settings

end PackLint
