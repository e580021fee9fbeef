import GraphQL.Settings
import GraphQL.Settings.Assignments
import GraphQL.Text.Case

/-!
# Settings from the environment

Settings may come from environment variables, and from a file of assignments for the variables that
the environment lacks, unless another variable forbids it. A variable that is empty counts as
missing, except for the switches, which an empty one turns off. Not every name and value can be
those of a variable.
-/

namespace GraphQL.Settings

/-- The environment variable of a setting. -/
def variableName (setting : SettingName) : String :=
  "TYPEGRAPH_" ++ String.ofList (setting.key.toList.map Char.toUpper)

/-- The words that turn a switch on. -/
def onWords : List String :=
  ["1", "true", "yes", "on"]

/-- Whether a text turns a switch on. -/
def isOn (text : String) : Bool :=
  onWords.contains (Text.lowercased (String.ofList (Text.trimBy Text.isSpacing text.toList)))

/-- A text in uppercase, as far as that gives ASCII letters. -/
def uppercased (text : String) : String :=
  String.ofList (text.toList.map Text.asciiUppercase)

/-- The value that a setting gets from the text of its variable, if the variable counts. -/
def valueOfText? (setting : SettingName) (text : String) : Option Value :=
  match setting with
  | .partialResults | .threads => some (.bool (isOn text))
  | .logLevel => if text = "" then none else some (.str (uppercased text))
  | .unknownFields => if text = "" then none else some (.str (Text.lowercased text))
  | .timeout => if text = "" then none else some (.str text)

/-- The settings in order. -/
def settingNames : List SettingName :=
  [.logLevel, .unknownFields, .timeout, .partialResults, .threads]

/-- Why a variable cannot be set. -/
inductive VariableError where
  /-- The name or the value holds the character that ends a text in the environment. -/
  | nullCharacter
  /-- The name holds an equals sign. -/
  | equalsSign
  | emptyName
  deriving DecidableEq

/-- The class of an error of a variable. -/
def VariableError.className : VariableError → String
  | nullCharacter | equalsSign => "ValueError"
  | emptyName => "OSError"

/-- What an error of a variable says. -/
def VariableError.message : VariableError → String
  | nullCharacter => "embedded null byte"
  | equalsSign => "illegal environment variable name"
  | emptyName => "[Errno 22] Invalid argument"

/-- Why settings could not be loaded. -/
inductive LoadError where
  | variable (cause : VariableError)
  | settings (problems : List SettingProblem)

/-- What keeps a variable from being set. -/
def variableError? (name value : String) : Option VariableError :=
  if name.contains '\x00' || value.contains '\x00' then some .nullCharacter
  else if name.contains '=' then some .equalsSign
  else if name = "" then some .emptyName
  else none

/-- Variables in order, if all of them can be set. -/
def checked (assigned : Entries String) : Except VariableError (Entries String) :=
  match assigned.findSome? fun (name, value) => variableError? name value with
  | some error => .error error
  | none => .ok assigned

/-- The variable of the environment that forbids a file of assignments. -/
def fileSwitch : String :=
  "PYTHON_DOTENV_DISABLED"

/-- The words with which the variable forbids a file. -/
def forbiddingWords : List String :=
  ["1", "true", "t", "yes", "y"]

/-- Whether an environment forbids a file of assignments. -/
def forbidsFile (environment : Entries String) : Bool :=
  (Entries.get? environment fileSwitch).any fun text =>
    forbiddingWords.contains (Text.folded text)

/-- The values that a file of assignments gives for the names that an environment lacks. -/
def additions (environment : Entries String) (file : String) : Entries String :=
  (Assignment.read environment file).filterMap fun (name, value) =>
    if Entries.contains environment name then none else value.map (name, ·)

/-- The environment with the values of a file of assignments for the names that it lacks. -/
def extended (environment : Entries String) (file : String) :
    Except VariableError (Entries String) := do
  let environment ← checked environment
  if forbidsFile environment then return environment
  else return environment ++ (← checked (additions environment file))

/-- The settings that the variables of an environment give. -/
def ofEnvironment (environment : Entries String) : Except (List SettingProblem) Settings :=
  read (settingNames.filterMap fun setting =>
    ((Entries.get? environment (variableName setting)).bind (valueOfText? setting)).map
      (setting.key, ·))

/-- The settings that an environment and a file of assignments give. -/
def load (environment : Entries String) (file : String) : Except LoadError Settings := do
  let environment ← (extended environment file).mapError .variable
  (ofEnvironment environment).mapError .settings

end GraphQL.Settings
