/-
  PluginHost.Main

  The program.  It reads the configuration and the files that are to be checked;
  all else follows from them.  Programs of plugins are rehearsed, not started.
-/
import PluginHost.CommandLine
import PluginHost.Rehearsal

namespace PluginHost

namespace Main

/-- What a path leads to. -/
def look (path : String) : IO (Option (String × Storage.Node)) := do
  try
    return some (path, .file (← IO.FS.readBinFile path).toList)
  catch
    | .inappropriateType .. => return some (path, .directory)
    | _ => return none

/-- What some paths lead to. -/
def lookAll (paths : List String) : IO Storage := do
  let found ← paths.filterMapM look
  return { known := found }

/-- Does what the arguments ask for. -/
def run (request : CommandLine.Request) : IO UInt32 := do
  let named ← IO.getEnv Config.environmentKey
  let home ← IO.getEnv "HOME"
  let empty : CommandLine.Surroundings := { environment := fun _ => named, home }
  let paths := request.configPaths empty
  let found := { empty with storage := ← lookAll paths }
  let surroundings := { empty with storage := ← lookAll (paths ++ request.pluginFiles found) }
  let o := request.perform { surroundings, programs := Rehearsal.programs }
  for note in o.notes do
    IO.println (if request.json then note.toJson.render else note.line)
  for line in o.lines do
    IO.println line
  if let some complaint := o.complaint? then
    IO.eprintln complaint
  return o.exitCode.toUInt32

end Main

end PluginHost

/-- Reads the arguments and does what they ask for. -/
def main (arguments : List String) : IO UInt32 :=
  match PluginHost.CommandLine.Request.ofArguments arguments with
  | .ok request => PluginHost.Main.run request
  | .error fault => do
    IO.eprintln fault.message
    return (({ usageFault := some fault } : PluginHost.CommandLine.Outcome).exitCode).toUInt32
