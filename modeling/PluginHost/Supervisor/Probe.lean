/-
  PluginHost.Supervisor.Probe

  Finding out whether a plugin is alive.
-/
import PluginHost.Registry

namespace PluginHost

/-- What is known of the process of a plugin. -/
inductive Liveness where
  | alive
  | dead (pid : Nat)
  /-- There is no process: it was never started, or stopped on purpose. -/
  | notStarted
  deriving DecidableEq

/-- How the process of a plugin is judged. -/
inductive Probe.Kind where
  /-- By whether the process is there. -/
  | process
  | alive
  | notStarted
  | dead (pid : Nat)
  /-- By whether the process is on the list of those marked dead. -/
  | marked
  deriving DecidableEq

/-- A probe, how long it takes before it decides, in milliseconds, and whether
its start is recorded. -/
structure Probe where
  kind : Probe.Kind := .process
  delay : Nat := 0
  recorded : Bool := false
  deriving DecidableEq

namespace Probe

/-- Whether a process of a number is there. -/
def ofPid (s : System) (pid : Nat) : Liveness :=
  if pid ≤ KillSwitch.maxPid ∧ s.isAlive pid then .alive else .dead pid

/-- What a probe decides. -/
def decide (p : Probe) (r : Registry) (s : System) (host plugin : String) : Liveness :=
  match p.kind with
  | .process =>
    match r.pid s host plugin with
    | .ok pid => ofPid s pid
    | .error _ => .notStarted
  | .alive => .alive
  | .notStarted => .notStarted
  | .dead pid => .dead pid
  | .marked =>
    match r.pid s host plugin with
    | .ok pid => if s.markedDead.contains pid then .dead pid else .alive
    | .error _ => .notStarted

end Probe

end PluginHost
