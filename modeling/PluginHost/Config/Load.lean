/-
  PluginHost.Config.Load

  Where the configuration comes from: a file named by the environment, or one
  at a fixed place under the home directory.
-/
import PluginHost.Config.Decode
import PluginHost.Storage

namespace PluginHost

namespace Config

/-- The name under which the environment may give the path of the
    configuration. -/
def environmentKey : String :=
  "TETHER_CONFIG"

/-- The path of the configuration under the home directory. -/
def defaultPath : String :=
  ".tether/config.toml"

/-- A path from a directory on.  The empty path is the working directory. -/
def joinPath (directory path : String) : String :=
  if directory = "" ∨ directory.endsWith "/" then directory ++ path
  else directory ++ "/" ++ path

/-- The path of the configuration.  The environment comes first if it names
    something that is there, then the home directory. -/
def discover (storage : Storage) (environment : String → Option String) (home : Option String) :
    Except Error String :=
  let fromEnvironment := (environment environmentKey).filter fun p => p ≠ "" ∧ storage.isPresent p
  let fromHome := (home.map (joinPath · defaultPath)).filter fun p => storage.isPresent p
  match fromEnvironment <|> fromHome with
  | some path => .ok path
  | none => .error .configNotFound

/-- The configuration in a text. -/
def ofText (text : String) : Except Error Config :=
  match parse text with
  | .ok config => .ok config
  | .error problem => .error (.configInvalid problem)

/-- The configuration in a file. -/
def load (storage : Storage) (path : String) : Except Error Config :=
  match storage.readText path with
  | .ok text => ofText text
  | .error cause => .error (.configUnreadable path cause)

end Config

end PluginHost
