/-
  PluginHost.Process.Table

  The processes that run, each under the name of its plugin.
-/
import PluginHost.Error
import PluginHost.NameMap
import PluginHost.Process.OutputTail

namespace PluginHost

/-- A process. -/
structure PluginProcess where
  /-- The name of the plugin that it runs. -/
  name : String
  pid : Nat
  /-- The number of its kill switch, if it has one. -/
  switch : Option Nat := none
  stdout : OutputTail := {}
  stderr : OutputTail := {}
  deriving DecidableEq

/-- Processes by name. -/
abbrev ProcessTable := NameMap PluginProcess

namespace ProcessTable

/-- Enters a process under a name.  A name that is taken stays with its
    process. -/
def register (t : ProcessTable) (name : String) (p : PluginProcess) : Except Error ProcessTable :=
  if t.contains name then .error (.alreadyStarted name) else .ok (t.insert name p)

/-- The process of a name. -/
def find (t : ProcessTable) (name : String) : Except Error PluginProcess :=
  match t.get? name with
  | some p => .ok p
  | none => .error (.pluginUnknown name)

end ProcessTable

end PluginHost
