/-
  PluginHost.CommandLine.Note

  What the program records of its work.
-/
import PluginHost.Json.Value
import PluginHost.System

namespace PluginHost

namespace CommandLine

/-- How important a record is. -/
inductive Level where
  | info
  | warning
  | error
  deriving DecidableEq

/-- The name of a level. -/
def Level.name : Level → String
  | .info => "INFO"
  | .warning => "WARN"
  | .error => "ERROR"

/-- What is recorded while hosts are served. -/
inductive Note where
  /-- The configuration was loaded. -/
  | configured (path : String)
  /-- A plugin has no port, or speaks a protocol that it cannot be called by. -/
  | skipped (host plugin protocol : String)
  /-- A plugin gave its first answer. -/
  | up (host plugin reply : String)
  /-- There was no first answer. -/
  | silent (host plugin : String) (error : Error)
  /-- The process of a plugin was found dead. -/
  | died (signal : Signal)
  /-- The program was asked to stop. -/
  | stopping
  /-- A plugin could not be told to stop. -/
  | unclean (error : Error)
  /-- All is done. -/
  | stopped

namespace Note

/-- The level of a record. -/
def level : Note → Level
  | configured _ | up .. | stopping | stopped => .info
  | skipped .. | died _ | unclean _ => .warning
  | silent .. => .error

/-- The text of a record. -/
def message : Note → String
  | configured _ => "Using configuration"
  | skipped .. => "No port or no transport for plugin, it will not be started"
  | up .. => "Plugin up"
  | silent .. => "Plugin did not answer"
  | died _ => "Plugin died"
  | stopping => "Received terminate signal, shutting down..."
  | unclean _ => "Plugin did not stop cleanly"
  | stopped => "Tether shutdown complete"

/-- What a record says in particular. -/
def fields : Note → List (String × String)
  | configured path => [("path", path)]
  | skipped host plugin protocol => [("host", host), ("plugin", plugin), ("protocol", protocol)]
  | up host plugin reply => [("host", host), ("plugin", plugin), ("reply", reply)]
  | silent host plugin error => [("host", host), ("plugin", plugin), ("error", error.message)]
  | died signal =>
    [("host", signal.host), ("plugin", signal.plugin), ("pid", toString signal.pid)]
  | unclean error => [("error", error.message)]
  | stopping | stopped => []

/-- A record as a line of text. -/
def line (n : Note) : String :=
  n.level.name ++ " tether: " ++ n.message
    ++ String.join (n.fields.map fun (key, value) => " " ++ key ++ "=" ++ value)

/-- A record as an object. -/
def toJson (n : Note) : Json.Value :=
  .ofEntries [
    ("level", .text n.level.name),
    ("fields", .ofEntries (("message", .text n.message) ::
      n.fields.map fun (key, value) => (key, .text value)))]

end Note

end CommandLine

end PluginHost
