/-
  PluginHost.Rehearsal.Trial

  A program on trial: it is started, told to stop if that is wanted, and watched
  until it has ended.
-/
import PluginHost.Rehearsal
import PluginHost.Supervisor

namespace PluginHost

namespace Rehearsal

/-- A program that is to be tried. -/
structure Trial where
  request : SpawnRequest
  portFlag : String := defaultPortFlag
  plan : Plan := {}
  /-- How often its kill switch is triggered, once it has written what is waited
      for. -/
  triggers : Nat := 1

/-- What came of a trial. -/
structure Verdict where
  process : PluginProcess
  /-- How long its start took, in milliseconds. -/
  grace : Nat
  /-- Whether it ran when it was to be told to stop; there is nothing if it was
      not. -/
  alive : Option Bool
  /-- What came of triggering its switch. -/
  answers : List (Except SignalFault Bool)
  /-- Whether it runs after all. -/
  survived : Bool
  /-- What comes of triggering its switch then. -/
  late : Except SignalFault Bool

/-- Triggers the switch of a process again and again. -/
def triggerEach (p : PluginProcess) : Nat → System → List (Except SignalFault Bool) × System
  | 0, s => ([], s)
  | n + 1, s =>
    let (answer, s) := s.triggerProcess p
    let (answers, s) := triggerEach p n s
    (answer :: answers, s)

/-- Tries a program. -/
def Trial.run (t : Trial) (storage : Storage) : Except Error Verdict := do
  let pool : Pool := { label := "", runner := .machine t.portFlag }
  let (started, station) := Station.perform { system := { storage, programs, pools := [pool] } }
    (Station.starting 0 t.request)
  let p ← started
  let command := t.request.command
  let arguments := t.request.commandLine t.portFlag
  let s := station.system
  match perform t.plan storage command arguments with
  | .error cause => throw (.cannotStart p.name cause)
  | .ok seen =>
    let (alive, answers, stopped) := match t.plan.awaited with
      | none => (none, [], s)
      | some _ =>
        let (answers, stopped) := triggerEach p t.triggers s
        (some (s.isAlive p.pid), answers, stopped)
    let gone := stopped.crash p.pid
    return {
      process := { p with
        stdout := p.stdout.pump (OutputTail.readsOf seen.stdout)
        stderr := p.stderr.pump (OutputTail.readsOf seen.stderr) }
      grace := s.now
      alive
      answers
      survived := gone.isAlive p.pid
      late := (gone.triggerProcess p).1 }

end Rehearsal

end PluginHost
