/-
  PluginHost.CommandLine

  The program from its arguments to what it leaves behind.
-/
import PluginHost.CommandLine.Serve

namespace PluginHost

namespace CommandLine

/-- What the program leaves behind. -/
structure Outcome where
  /-- What it writes for its user. -/
  lines : List String := []
  /-- What is wrong with its arguments. -/
  usageFault : Option UsageFault := none
  /-- Why it did not do what it was asked to. -/
  failure : Option Failure := none
  /-- What it records. -/
  notes : List Note := []
  /-- What plugins were asked in their first calls, and at which port. -/
  asked : List (UInt16 × Http.Request) := []

/-- The code that the program ends with. -/
def Outcome.exitCode (o : Outcome) : Nat :=
  match o.usageFault, o.failure with
  | some .helpWanted, _ => 0
  | some _, _ => 2
  | none, some _ => 1
  | none, none => 0

/-- What the user is told if something is wrong. -/
def Outcome.complaint? (o : Outcome) : Option String :=
  match o.usageFault, o.failure with
  | some fault, _ => some fault.message
  | none, failure => failure.map (·.report)

/-- The paths that may hold the configuration. -/
def Request.configPaths (r : Request) (s : Surroundings) : List String :=
  match r.config with
  | some path => [path]
  | none =>
    (s.environment Config.environmentKey).toList
      ++ (s.home.map (Config.joinPath · Config.defaultPath)).toList

/-- The files that are to be checked, as far as they can be told from the
    configuration. -/
def Request.pluginFiles (r : Request) (s : Surroundings) : List String :=
  match loadConfig s r.config with
  | .ok (_, config) => config.plugins.entries.map fun e => e.2.file
  | .error _ => []

/-- Does what a request asks for. -/
def Request.perform (w : World) (r : Request) : Outcome :=
  match r.command with
  | .check hosts =>
    let report := check w.surroundings r.config hosts
    { lines := report.lines, failure := report.failure, notes := report.notes }
  | .run options =>
    let service := serve w r.config options
    { failure := service.failure, notes := service.notes, asked := service.asked }

/-- Does what arguments ask for. -/
def perform (w : World) (arguments : List String) : Outcome :=
  match Request.ofArguments arguments with
  | .ok r => r.perform w
  | .error fault => { usageFault := some fault }

end CommandLine

end PluginHost
