/-
  PluginHost.Process.Child

  Programs that were started, and their watchers.  A watcher waits for the end
  of its program.  Once it has been told that the program was asked to stop, it
  gives it some time and then kills it.
-/

namespace PluginHost

/-- How a program goes on once it was started, in milliseconds. -/
structure Behaviour where
  /-- How long it runs if nothing happens to it; without end if there is none. -/
  lifetime : Option Nat := none
  /-- How long it goes on after it was asked to stop; it takes no notice if there
      is none. -/
  reaction : Option Nat := some 0
  deriving DecidableEq

/-- A signal to a program. -/
inductive ChildSignal where
  /-- It is asked to stop. -/
  | terminate
  /-- It is ended. -/
  | kill
  deriving DecidableEq

/-- A program that was started. -/
structure Child where
  pid : Nat
  /-- The number of its kill switch. -/
  switch : Nat
  started : Nat
  behaviour : Behaviour := {}
  /-- The signals that it was sent, with their moments, the first one first. -/
  signals : List (Nat × ChildSignal) := []
  /-- When it ended. -/
  ended : Option Nat := none
  /-- Whether its watcher is there. -/
  watched : Bool := true
  deriving DecidableEq

namespace Child

/-- How long a program is given after it was asked to stop, in milliseconds. -/
def patience : Nat :=
  5000

/-- Whether a program runs. -/
def isRunning (c : Child) : Bool :=
  c.ended.isNone

/-- When a program was asked to stop. -/
def askedAt (c : Child) : Option Nat :=
  (c.signals.find? fun (_, signal) => signal = .terminate).map (·.1)

/-- When a program ends by itself, or because it was asked to. -/
def endDue (c : Child) : Option Nat :=
  let byItself := c.behaviour.lifetime.map (c.started + ·)
  let onRequest := do return (← c.askedAt) + (← c.behaviour.reaction)
  (byItself.toList ++ onRequest.toList).min?

/-- When the watcher of a program kills it. -/
def killDue (c : Child) : Option Nat :=
  if c.watched then c.askedAt.map (· + patience) else none

/-- The program after its end at a moment. -/
def endAt (c : Child) (moment : Nat) : Child :=
  { c with ended := some moment }

/-- The program after its watcher has killed it at a moment. -/
def killAt (c : Child) (moment : Nat) : Child :=
  { c with signals := c.signals ++ [(moment, .kill)], ended := some moment }

/-- The program at a later moment.  One that ends at the moment at which it would
    be killed is not killed. -/
def elapse (now : Nat) (c : Child) : Child :=
  if !c.isRunning then c
  else
    match c.endDue.filter (· ≤ now), c.killDue.filter (· ≤ now) with
    | some e, some k => if e ≤ k then c.endAt e else c.killAt k
    | some e, none => c.endAt e
    | none, some k => c.killAt k
    | none, none => c

/-- The program after it was asked to stop. -/
def ask (now : Nat) (c : Child) : Child :=
  elapse now { c with signals := c.signals ++ [(now, .terminate)] }

/-- The program after it was ended by somebody else. -/
def crash (now : Nat) (c : Child) : Child :=
  if c.isRunning then c.endAt now else c

/-- The program after its watcher has gone. -/
def abandon (c : Child) : Child :=
  { c with watched := false }

end Child

end PluginHost
