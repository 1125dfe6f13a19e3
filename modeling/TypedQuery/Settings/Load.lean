import TypedQuery.Settings.Basic
import TypedQuery.Settings.Files
import TypedQuery.Text.Json

/-!
# Loading settings

Settings come from the environment, from one file, and from the overrides of a call, of which the
later ones win.

* `ofFile`: the layer that a file gives;
* `consultedFile`: the file that is read, if there is one;
* `load`: all settings.
-/

namespace TypedQuery.Settings

inductive LoadError
  | notFound (path : String)
  | unsupportedFormat (extension : String)
  | directory
  | notJson
  | notAnObject (path : String)
  deriving DecidableEq

def LoadError.message : LoadError → String
  | .notFound path => "Config file not found: " ++ path
  | .unsupportedFormat extension => "Unsupported config file format: " ++ extension
  | .directory => "EISDIR: illegal operation on a directory, read"
  | .notJson => "The text is not JSON"
  | .notAnObject path => "Config file must contain a JSON object: " ++ path

/-- The layer of a text of JSON. -/
def ofJson (path text : String) : Except LoadError Layer :=
  match Text.readJson text with
  | some (.object _ _ members) => .ok (ofMembers members)
  | some _ => .error (.notAnObject path)
  | none => .error .notJson

/-- The layer that a file gives, which must hold a JSON object. -/
def ofFile (system : FileSystem) (path : String) : Except LoadError Layer :=
  match system.find? path with
  | none => .error (.notFound path)
  | some node =>
    let extension := Text.lowerCase (extension path)
    if extension ≠ ".json" then .error (.unsupportedFormat extension)
    else
      match node with
      | .directory => .error .directory
      | .file text => ofJson path text

/-- The names of the files that are looked for when none is named. -/
def fileNames : List String := ["argcoerce.config.json", ".argcoercerc.json"]

/-- What surrounds a call: files, a working directory, and an environment. -/
structure Host where
  system : FileSystem
  environment : Members String

/-- What a call may say about where settings come from. Overrides that are not given determine
nothing. -/
structure LoadOptions where
  file : Option String
  directory : Option String
  environment : Option (Members String)
  overrides : Layer

/-- Where the usual files are looked for, unless told otherwise in the working directory. -/
def LoadOptions.directoryIn (options : LoadOptions) (system : FileSystem) : String :=
  options.directory.getD (pathTo system.workingDirectory)

/-- The file that is read: the named one, else the first of the usual ones that is there. An empty
name is none. -/
def consultedFile (system : FileSystem) (options : LoadOptions) : Option String :=
  match options.file with
  | some path => if path.isEmpty then usual else some path
  | none => usual
where
  usual :=
    (fileNames.map (join (options.directoryIn system))).find? fun path =>
      (system.find? path).isSome

def fileLayer (system : FileSystem) (options : LoadOptions) : Except LoadError Layer :=
  match consultedFile system options with
  | some path => ofFile system path
  | none => .ok ⟨none, none⟩

/-- All settings: the environment, merged with a file, merged with the overrides. -/
def load (host : Host) (options : LoadOptions) : Except LoadError Settings := do
  let fromEnvironment :=
    ofEnvironment environmentName (options.environment.getD host.environment)
  let fromFile ← fileLayer host.system options
  let base := merge [fromEnvironment.toLayer, fromFile]
  return merge [base.toLayer, options.overrides]

end TypedQuery.Settings
