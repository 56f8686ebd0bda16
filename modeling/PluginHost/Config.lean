/-
  PluginHost.Config

  The configuration: the plugins that exist, and for every host the names of
  those it may use.
-/
import PluginHost.NameMap

namespace PluginHost

namespace Config

/-- What the configuration says about itself. -/
structure About where
  version : String := ""
  author : String := ""
  contributors : List String := []
  deriving DecidableEq, Inhabited

/-- Switches for all hosts. -/
structure Settings where
  debug : Bool := false
  deriving DecidableEq, Inhabited

/-- A plugin that hosts may be allowed to use. -/
structure PluginEntry where
  author : String := ""
  /-- The digest that `file` must have, in hexadecimal digits. -/
  digest : String := ""
  /-- The program that starts the plugin. -/
  command : String
  arguments : List String := []
  /-- The file whose digest is checked before the plugin may be started. -/
  file : String
  /-- How long the plugin needs after its start before it can be used. -/
  graceSeconds : UInt64 := 0
  /-- The name of the protocol that the plugin speaks. -/
  protocol : String
  /-- The port that the plugin is to listen on, if it has one of its own. -/
  port : Option UInt16 := none
  deriving DecidableEq, Inhabited

/-- A host. -/
structure HostEntry where
  /-- The names of the plugins that the host may use, defined or not. -/
  plugins : List String := []
  deriving DecidableEq, Inhabited

end Config

/-- A configuration. -/
structure Config where
  about : Config.About := {}
  settings : Config.Settings := {}
  plugins : NameMap Config.PluginEntry := .empty
  hosts : NameMap Config.HostEntry := .empty
  deriving Inhabited

end PluginHost
