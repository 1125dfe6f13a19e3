import TypedQuery.Execution.Log
import TypedQuery.Text.Blank
import TypedQuery.Text.LowerCase

/-!
# Settings

Two settings govern a run: whether required arguments are enforced, and how verbose the log is.
They are put together in layers; each layer determines one setting, both or none.

* `Settings`, `Layer`: all settings, and what one layer determines;
* `merge`: the defaults overlaid with layers, of which later ones win;
* `ofMembers`, `ofEnvironment`: the layer of an object, and the settings of an environment;
* `complaints`: what is wrong with settings made by hand.
-/

namespace TypedQuery

/-- The level is kept as it was given; `Settings.complaints` tells whether it is one. -/
structure Settings where
  enforceRequiredArguments : Bool
  logLevel : String
  deriving DecidableEq

/-- What one layer determines. -/
structure Layer where
  enforceRequiredArguments : Option Bool
  logLevel : Option String
  deriving DecidableEq

namespace Settings

def default : Settings := ⟨false, "warn"⟩

/-! ## Layers -/

/-- The settings as a layer that determines both. -/
def toLayer (s : Settings) : Layer := ⟨some s.enforceRequiredArguments, some s.logLevel⟩

def overlay (s : Settings) (layer : Layer) : Settings :=
  ⟨layer.enforceRequiredArguments.getD s.enforceRequiredArguments,
    layer.logLevel.getD s.logLevel⟩

/-- The defaults overlaid with layers, of which later ones win. -/
def merge (layers : List Layer) : Settings := layers.foldl overlay default

@[simp] theorem overlay_toLayer (s t : Settings) : s.overlay t.toLayer = t := rfl

/-! ## Sources of settings -/

/-- The first member under one of two keys that has a value. -/
def firstOf (members : Members Value) (key alternative : String) : Option Value :=
  match members.get? key with
  | some .undefined | some .null | none => members.get? alternative
  | some v => some v

/-- The settings that an object gives, by camel-case or else snake-case keys. Values of the wrong
kind determine nothing. -/
def ofMembers (members : Members Value) : Layer where
  enforceRequiredArguments :=
    match firstOf members "enforceRequiredArguments" "enforce_required_arguments" with
    | some (.boolean b) => some b
    | _ => none
  logLevel :=
    match firstOf members "logLevel" "log_level" with
    | some (.string level) => if isLevelName level then some level else none
    | _ => none

/-- A setting's text without blanks around it and in lower case. -/
def normalized (text : String) : String := Text.lowerCase (Text.trim text)

/-- The truth value that a word of an environment says. -/
def truthOf? (text : String) : Option Bool :=
  if ["true", "1", "yes"].contains (normalized text) then some true
  else if ["false", "0", "no"].contains (normalized text) then some false
  else none

def levelOf? (text : String) : Option String :=
  if isLevelName (normalized text) then some (normalized text) else none

/-- The environment variables of the settings start with this, unless told otherwise. -/
def environmentName : String := "ARGCOERCE"

/-- The layer of the environment variables whose names start with `start`. -/
def environmentLayer (start : String) (environment : Members String) : Layer where
  enforceRequiredArguments :=
    (environment.get? (start ++ "_ENFORCE_REQUIRED_ARGUMENTS")).bind truthOf?
  logLevel := (environment.get? (start ++ "_LOG_LEVEL")).bind levelOf?

/-- The settings of an environment, completed by the defaults. -/
def ofEnvironment (start : String) (environment : Members String) : Settings :=
  default.overlay (environmentLayer start environment)

/-! ## Checking -/

/-- What is wrong with settings made by hand. -/
def complaints (members : Members Value) : List String :=
  let enforce :=
    match members.get? "enforceRequiredArguments" with
    | some (.boolean _) => []
    | _ => ["enforceRequiredArguments must be a boolean"]
  let level :=
    match members.get? "logLevel" with
    | some (.string level) => isLevelName level
    | _ => false
  enforce ++ if level then [] else ["logLevel must be one of " ++ ", ".intercalate levelNames]

/-- The settings as members of an object. -/
def toMembers (s : Settings) : Members Value :=
  [("enforceRequiredArguments", .boolean s.enforceRequiredArguments),
    ("logLevel", .string s.logLevel)]

end Settings

end TypedQuery
