/-
  PluginHost.Rehearsal.Shell

  A shell at work.  Everything that it writes is kept in order; its pauses are
  counted, and in a pause it may be asked to stop.
-/
import PluginHost.Rehearsal.Script
import PluginHost.Rehearsal.Tools

namespace PluginHost

namespace Rehearsal

/-! ## What goes on outside -/

/-- Where output goes. -/
inductive Sink where
  | stdout
  | stderr
  | nowhere
  /-- To somebody who waits for it. -/
  | kept (level : Nat)
  deriving DecidableEq

/-- When a program is asked to stop. -/
structure Plan where
  /-- In the first pause after it has written this text; never if there is none. -/
  awaited : Option Bytes := none
  /-- Whether it is killed if it does not end then. -/
  escalate : Bool := false

/-- What goes on around scripts. -/
structure Stage where
  storage : Storage := {}
  plan : Plan := {}
  /-- What was written, the last first. -/
  written : List (Sink × Stream) := []
  /-- How many times somebody has waited for output. -/
  levels : Nat := 0
  /-- How many pauses there were. -/
  pauses : Nat := 0
  /-- Whether the program was asked to stop. -/
  told : Bool := false

namespace Stage

/-- What has gone to a sink. -/
def content (g : Stage) (sink : Sink) : Stream :=
  (g.written.reverse.filter (·.1 = sink)).foldl (fun s p => s.append p.2) {}

/-- The stage after something was written. -/
def write (g : Stage) (sink : Sink) (s : Stream) : Stage :=
  if sink = .nowhere ∨ (s.bytes.isEmpty ∧ s.isFinite) then g
  else { g with written := (sink, s) :: g.written }

/-- What was written for somebody who waits, which is taken away. -/
def collect (g : Stage) (level : Nat) : Stream × Stage :=
  (g.content (.kept level), { g with written := g.written.filter (·.1 ≠ .kept level) })

end Stage

/-! ## Shells -/

/-- What a shell does next. -/
inductive Control where
  | running
  | leaving
  | returning
  | breaking (loops : Nat)
  | continuing (loops : Nat)
  /-- Nothing any more: it was stopped. -/
  | ended
  deriving DecidableEq

/-- A shell. -/
structure Shell where
  stage : Stage := {}
  bound : List (String × String) := []
  functions : List (String × Command) := []
  parameters : List String := []
  /-- The name that it was started by. -/
  name : String := "sh"
  status : Nat := 0
  /-- What it does about signals; it takes no notice if that is nothing. -/
  traps : List (String × String) := []
  /-- Signals that it has not yet done anything about. -/
  pending : List String := []
  input : Stream := {}
  out : Sink := .stdout
  err : Sink := .stderr
  /-- What it does in the background. -/
  jobs : List Command := []
  control : Control := .running
  /-- Whether it leaves after a command that fails. -/
  strict : Bool := false
  /-- Whether commands may fail because their status is looked at. -/
  guarded : Bool := false

namespace Shell

/-- Whether a shell goes on. -/
def isRunning (sh : Shell) : Bool :=
  sh.control = .running

/-- The shell with another status. -/
def ending (sh : Shell) (status : Nat) : Shell :=
  { sh with status }

/-- The shell after it has written something. -/
def write (sh : Shell) (s : Stream) : Shell :=
  { sh with stage := sh.stage.write sh.out s }

/-- The shell after it has complained. -/
def complain (sh : Shell) (text : String) : Shell :=
  { sh with stage := sh.stage.write sh.err { bytes := Utf8.encode text } }

/-- The shell after a complaint of its own, with a status. -/
def fail (sh : Shell) (text : String) (status : Nat) : Shell :=
  (sh.complain (sh.name ++ ": 1: " ++ text ++ "\n")).ending status

/-- The shell with a variable set. -/
def assign (sh : Shell) (name value : String) : Shell :=
  { sh with bound := (name, value) :: sh.bound.filter (·.1 ≠ name) }

/-- The number that stands for the shell itself. -/
def ownNumber : String :=
  "4242"

/-- The value of a parameter. -/
def value? (sh : Shell) (name : String) : Option String :=
  match name with
  | "#" => some (toString sh.parameters.length)
  | "?" => some (toString sh.status)
  | "$" => some ownNumber
  | "!" => some (ownNumber ++ "0")
  | "-" => some ""
  | "@" | "*" => if sh.parameters.isEmpty then none else some (" ".intercalate sh.parameters)
  | "0" => some sh.name
  | name =>
    match name.toNat? with
    | some n => sh.parameters[n - 1]?
    | none => sh.bound.lookup name

/-- The shell after a signal. -/
def signal (sh : Shell) (name : String) : Shell :=
  match sh.traps.lookup name with
  | none => { sh with control := .ended }
  | some "" => sh
  | some _ => { sh with pending := sh.pending ++ [name] }

/-- The shell after a pause.  If it is asked to stop and does not end, it may be
    killed. -/
def pause (sh : Shell) : Shell :=
  let sh := { sh with stage := { sh.stage with pauses := sh.stage.pauses + 1 } }
  match sh.stage.plan.awaited with
  | none => sh
  | some text =>
    if sh.stage.told ∨ !Stream.occurs text (sh.stage.content .stdout).bytes then sh
    else
      let sh := { sh with stage := { sh.stage with told := true } }.signal "TERM"
      if sh.stage.plan.escalate then { sh with control := .ended } else sh

/-- The shell after it has run out of fuel: it goes on, but nothing comes of
    it. -/
def exhaust (sh : Shell) : Shell :=
  { sh.pause with control := .ended }

/-- The shell after a command whose failure may be too much for it. -/
def checked (sh : Shell) : Shell :=
  if sh.strict ∧ !sh.guarded ∧ sh.isRunning ∧ sh.status ≠ 0 then { sh with control := .leaving }
  else sh

/-- The shell within a test, or after one. -/
def guard (sh : Shell) (guarded : Bool) : Shell :=
  { sh with guarded }

/-- Whether a loop goes round again after its body, and the shell then. -/
def nextRound (sh : Shell) : Bool × Shell :=
  match sh.control with
  | .running | .continuing 0 => (true, { sh with control := .running })
  | .breaking 0 => (false, { sh with control := .running })
  | .breaking (n + 1) => (false, { sh with control := .breaking n })
  | .continuing (n + 1) => (false, { sh with control := .continuing n })
  | _ => (false, sh)

end Shell

end Rehearsal

end PluginHost
