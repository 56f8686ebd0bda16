/-
  PluginHost.CommandLine.Check

  Loading the configuration, choosing hosts, and reporting what each of them may
  run.
-/
import PluginHost.CommandLine.Note
import PluginHost.Config.Load
import PluginHost.Install

namespace PluginHost

namespace CommandLine

/-- What the program finds when it looks for its configuration. -/
structure Surroundings where
  storage : Storage := {}
  /-- The values of the environment. -/
  environment : String → Option String := fun _ => none
  /-- The home directory. -/
  home : Option String := none

/-! ## Failures -/

/-- Why the program cannot do what it is asked to. -/
inductive Failure where
  /-- The configuration at a path that was given, or at the one that was found,
      cannot be loaded. -/
  | configUnusable (path : Option String) (cause : Error)
  | hostUnknown (host : String)
  /-- Some of the hosts have no plugins that they may run. -/
  | nothingRunnable (failed total : Nat)
  | notInstalled (cause : Error)

namespace Failure

/-- The text of a failure. -/
def message : Failure → String
  | configUnusable (some path) _ => "Failed to load " ++ path
  | configUnusable none _ => "Failed to load plugin configuration"
  | hostUnknown host => "Unknown host: " ++ host
  | nothingRunnable failed total =>
    toString failed ++ " of " ++ toString total ++ " hosts have no runnable plugins"
  | notInstalled _ => "Failed to install plugin hosts"

/-- The error behind a failure. -/
def cause? : Failure → Option Error
  | configUnusable _ cause => some cause
  | notInstalled cause => some cause
  | _ => none

/-- What the user is told of a failure. -/
def report (f : Failure) : String :=
  let cause := match f.cause? with
    | some e => "\n\nCaused by:\n    " ++ e.message
    | none => ""
  "Error: " ++ f.message ++ cause

end Failure

/-! ## What is worked on -/

/-- The configuration at the path that is given, or else at the one that is
    found, with that path. -/
def loadConfig (s : Surroundings) : Option String → Except Failure (String × Config)
  | some path =>
    match Config.load s.storage path with
    | .ok config => .ok (path, config)
    | .error e => .error (.configUnusable (some path) e)
  | none =>
    let found := do
      let path ← Config.discover s.storage s.environment s.home
      return (path, ← Config.load s.storage path)
    match found with
    | .ok found => .ok found
    | .error e => .error (.configUnusable none e)

/-- The hosts that are asked for, in the order and as often as they are asked
    for; all hosts if none is. -/
def selectedHosts (config : Config) (asked : List String) : Except Failure (List String) :=
  if asked = [] then .ok config.hosts.names
  else
    match asked.find? fun host => !config.hosts.contains host with
    | some host => .error (.hostUnknown host)
    | none => .ok asked

/-! ## Checking -/

/-- The plugins that a host may run, or why there are none. -/
def runnable (s : Storage) (config : Config) (host : String) : Except Error PluginSet :=
  let installer : Installer := ⟨host, some config, .md5⟩
  (installer.install s installer.resolve).outcome

/-- The lines about a host. -/
def hostLines (host : String) : Except Error PluginSet → List String
  | .ok plugins =>
    (host ++ ":") :: plugins.entries.map fun (name, p) =>
      "  " ++ name ++ " (" ++ p.protocol ++ ") " ++ p.command
  | .error e => [host ++ ": " ++ e.message]

/-- What a check comes to. -/
structure Report where
  lines : List String := []
  failure : Option Failure := none
  notes : List Note := []

/-- The failure of a check, if one of the hosts has nothing to run. -/
def checkFailure (results : List (String × Except Error PluginSet)) : Option Failure :=
  let failed := (results.filter fun (_, result) => !result.isOk).length
  if failed = 0 then none else some (.nothingRunnable failed results.length)

/-- Checks hosts. -/
def checkHosts (s : Storage) (config : Config) (hosts : List String) : Report :=
  let results := hosts.map fun host => (host, runnable s config host)
  { lines := results.flatMap fun (host, result) => hostLines host result
    failure := checkFailure results }

/-- Loads the configuration and checks the hosts that are asked for. -/
def check (s : Surroundings) (path : Option String) (asked : List String) : Report :=
  match loadConfig s path with
  | .error failure => { failure := some failure }
  | .ok (path, config) =>
    let report : Report := match selectedHosts config asked with
      | .ok hosts => checkHosts s.storage config hosts
      | .error failure => { failure := some failure }
    { report with notes := [.configured path] }

end CommandLine

end PluginHost
