/-
  PluginHost.Rehearsal

  Programs that are not started but rehearsed: what they write and whether they
  pause follows from their arguments.  Known are a small shell and the programs
  that its scripts use most.
-/
import PluginHost.Process.Runner
import PluginHost.Rehearsal.Shell.Execution

namespace PluginHost

namespace Rehearsal

/-- How deep a rehearsal goes at most. -/
def depth : Nat :=
  100000

/-- What was seen of a program. -/
structure Performance where
  stdout : Bytes
  stderr : Bytes
  /-- How many times it paused. -/
  pauses : Nat

/-- What keeps a program from being started at all. -/
def startFault? (storage : Storage) (command : String) (arguments : List String) :
    Option IoFault :=
  if (command :: arguments).any (·.contains '\x00') then
    some (.other "nul byte found in provided data")
  else if Shell.isKnown (Shell.programName command) then none
  else Shell.startFault? storage command

/-- Rehearses a program from its beginning to its end. -/
def perform (plan : Plan) (storage : Storage) (command : String) (arguments : List String) :
    Except IoFault Performance :=
  match startFault? storage command arguments with
  | some fault => .error fault
  | none =>
    let sh := Shell.runMain depth (Shell.programName command) arguments { stage := { storage, plan } }
    .ok {
      stdout := (sh.stage.content .stdout).bytes
      stderr := (sh.stage.content .stderr).bytes
      pauses := sh.stage.pauses }

/-- The programs of a machine.  One that pauses goes on for as long as nothing
    happens to it.  Nobody waits until it has come to its traps, so it has set none of them
    when it is told to stop. -/
def programs : Programs := fun storage command arguments => do
  let alone ← perform {} storage command arguments
  return { lifetime := if alone.pauses = 0 then some 0 else none, reaction := some 0 }

end Rehearsal

end PluginHost
