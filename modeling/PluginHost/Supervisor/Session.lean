/-
  PluginHost.Supervisor.Session

  One session of a supervisor.  At every tick each target is probed; a dead one
  gives a signal; signals wait in a queue of bounded length, and each of them
  passes all handlers before the next one is taken.  A session moves by small
  steps, none of which waits, so that any order of them can be followed.
-/
import PluginHost.Supervisor.Probe

namespace PluginHost

/-- What is done about a signal. -/
inductive Handler where
  | record (label : String)
  /-- Waits, in milliseconds. -/
  | pause (duration : Nat)
  /-- Kills the plugin. -/
  | stop
  /-- Replaces the process of the plugin. -/
  | restart
  deriving DecidableEq

/-- A plugin that is watched. -/
structure Target where
  host : String
  plugin : String
  deriving DecidableEq

/-- What keeps a handler from going on. -/
inductive Handling where
  /-- Nothing. -/
  | ready
  /-- A wait until a moment. -/
  | pausing (wake : Nat)
  /-- A process that is being started. -/
  | starting (launch : Launch)

/-- When a handler goes on. -/
def Handling.wake? : Handling → Option Nat
  | .ready => none
  | .pausing wake => some wake
  | .starting launch => some launch.due

/-- A signal on its way through the handlers: those that it has still to pass,
    and what the one that it has just reached waits for. -/
structure Dispatch where
  signal : Signal
  remaining : List Handler
  handling : Handling := .ready

/-! ## Ticks -/

/-- Where the moments end that a clock can show which counts a second in so many
    parts: after `2^63` seconds. -/
def Clock.rangeIn (perSecond : Nat) : Nat :=
  UInt64.size / 2 * perSecond

/-- Where the moments end that the clock can show, in milliseconds. -/
def Clock.range : Nat :=
  Clock.rangeIn 1000

/-- How late a tick may be taken, five milliseconds; one that is taken later was
    missed. -/
def Clock.graceIn (perSecond : Nat) : Nat :=
  perSecond / 200

/-- What makes a session tick. -/
inductive Ticker where
  /-- The next tick is due at a moment. -/
  | due (moment : Nat)
  /-- The next tick is beyond what the clock can show. -/
  | exhausted
  /-- The session was stopped. -/
  | stopped
  /-- The ticker broke down, since the first tick is beyond what the clock can
      show. -/
  | broken
  deriving DecidableEq

namespace Ticker

/-- A ticker that is begun now, by a clock that counts a second in so many parts. -/
def startIn (perSecond interval now : Nat) : Ticker :=
  if now + interval < Clock.rangeIn perSecond then .due (now + interval) else .broken

/-- A ticker that is begun now. -/
def start (interval now : Nat) : Ticker :=
  startIn 1000 interval now

/-- When the next tick is due. -/
def next? : Ticker → Option Nat
  | .due moment => some moment
  | _ => none

/-- When the next tick is due after one that was due at a moment and is taken now: an
    interval later; but if this one was missed, those that were missed with it are
    passed over. -/
def dueAfter (perSecond interval now moment : Nat) : Nat :=
  if moment + Clock.graceIn perSecond < now then now + interval - (now - moment) % interval
  else moment + interval

/-- The ticker after a tick that is taken now, by a clock that counts a second in so
    many parts. -/
def tickIn (perSecond interval now : Nat) : Ticker → Ticker
  | .due moment =>
    let next := dueAfter perSecond interval now moment
    if next < Clock.rangeIn perSecond then .due next else .exhausted
  | t => t

/-- The ticker after a tick that is taken now. -/
def tick (interval now : Nat) : Ticker → Ticker :=
  tickIn 1000 interval now

end Ticker

/-! ## Sessions -/

/-- A session. -/
structure Session where
  targets : List Target
  handlers : List Handler
  probe : Probe
  interval : Nat
  ticker : Ticker
  /-- The probes under way, each with the moment at which it decides, in the
      order of their start. -/
  probing : List (Nat × Target) := []
  /-- The signals that wait for the dispatcher. -/
  queue : List Signal := []
  /-- The signals that wait for room in the queue. -/
  blocked : List Signal := []
  dispatch : Option Dispatch := none

namespace Session

/-- How many signals may wait in the queue. -/
def queueLimit : Nat :=
  64

/-- A session that is begun now. -/
def start (targets : List Target) (handlers : List Handler) (probe : Probe) (interval now : Nat) :
    Session :=
  { targets, handlers, probe, interval, ticker := .start interval now }

/-- The session without further ticks. -/
def stop (n : Session) : Session :=
  { n with ticker := .stopped }

/-! ## Signals -/

/-- One signal more.  It waits outside if the queue is full, or if others wait
    outside already. -/
def send (n : Session) (signal : Signal) : Session :=
  if n.queue.length < queueLimit ∧ n.blocked = [] then { n with queue := n.queue ++ [signal] }
  else { n with blocked := n.blocked ++ [signal] }

/-- The session after its first signal has been taken; one from outside moves
    up. -/
def take (n : Session) (signal : Signal) (rest : List Signal) : Session :=
  { n with
    queue := rest ++ n.blocked.take 1
    blocked := n.blocked.drop 1
    dispatch := some { signal, remaining := n.handlers } }

/-! ## Steps -/

/-- A tick: a probe of every target is begun. -/
def tick (n : Session) (s : System) : Session × System :=
  let ticker := n.ticker.tick n.interval s.now
  let due := s.now + n.probe.delay
  let s := if n.probe.recorded then
      n.targets.foldl (fun s t => s.record (.probed t.host t.plugin)) s
    else s
  ({ n with
      ticker
      probing := n.probing ++ n.targets.map (due, ·) }, s)

/-- A probe decides. -/
def conclude (n : Session) (r : Registry) (s : System) (t : Target) : Session :=
  match n.probe.decide r s t.host t.plugin with
  | .dead pid => n.send ⟨t.host, t.plugin, pid⟩
  | _ => n

/-- Stops the plugin of a signal. -/
def stopPlugin (r : Registry) (s : System) (signal : Signal) : System :=
  let (result, s) := match r.container signal.host with
    | .ok c => s.kill c.pool signal.plugin
    | .error e => (.error e, s)
  s.record (.stopped signal.host signal.plugin result)

/-- A signal reaches a handler: what the handler waits for then. -/
def handle (r : Registry) (s : System) (signal : Signal) : Handler → Handling × System
  | .record label => (.ready, s.record (.signalled label signal))
  | .pause duration => (if duration = 0 then .ready else .pausing (s.now + duration), s)
  | .stop => (.ready, stopPlugin r s signal)
  | .restart =>
    match r.beginRestart s signal with
    | (none, s) => (.ready, s)
    | (some launch, s) =>
      if launch.due ≤ s.now then (.ready, Registry.finishRestart s launch)
      else (.starting launch, s)

/-- The dispatcher goes on: a handler that has waited ends, or the signal
    reaches the next handler, or has passed all of them. -/
def advance (n : Session) (r : Registry) (s : System) (d : Dispatch) : Session × System :=
  match d.handling with
  | .pausing _ => ({ n with dispatch := some { d with handling := .ready } }, s)
  | .starting launch =>
    ({ n with dispatch := some { d with handling := .ready } }, Registry.finishRestart s launch)
  | .ready =>
    match d.remaining with
    | [] => ({ n with dispatch := none }, s)
    | h :: remaining =>
      let (handling, s) := handle r s d.signal h
      ({ n with dispatch := some ⟨d.signal, remaining, handling⟩ }, s)

/-! ## The order of steps in time -/

/-- The first probe that is due, and the others. -/
def takeDue (now : Nat) : List (Nat × Target) → Option (Target × List (Nat × Target))
  | [] => none
  | (due, t) :: rest =>
    if due ≤ now then some (t, rest)
    else do
      let (found, rest) ← takeDue now rest
      return (found, (due, t) :: rest)

/-- A step that needs no time to pass: probes that are due come first, then the
    dispatcher. -/
def stepNow (n : Session) (r : Registry) (s : System) : Option (Session × System) :=
  match takeDue s.now n.probing with
  | some (t, probing) => some ({ n with probing }.conclude r s t, s)
  | none =>
    match n.dispatch with
    | some d =>
      match d.handling.wake? with
      | none => some (n.advance r s d)
      | some wake => if wake ≤ s.now then some (n.advance r s d) else none
    | none =>
      match n.queue with
      | [] => none
      | signal :: rest => some (n.take signal rest, s)

/-- The moments at which something is due. -/
def moments (n : Session) : List Nat :=
  n.ticker.next?.toList ++ n.probing.map (·.1)
    ++ ((n.dispatch.bind fun d => d.handling.wake?).toList)

/-- The next moment at which something is due. -/
def nextMoment (n : Session) : Option Nat :=
  n.moments.min?

/-- The next step before a moment, if there is one; the clock moves to it. -/
def step (n : Session) (r : Registry) (s : System) (limit : Option Nat) :
    Option (Session × System) :=
  if limit.any (· ≤ s.now) then none
  else
    match n.stepNow r s with
    | some next => some next
    | none => do
      let moment ← n.nextMoment
      if limit.any (· ≤ moment) then none
      else
        let s := s.advanceTo moment
        if n.ticker.next? = some moment then some (n.tick s) else some (n, s)

/-- The most steps that a signal takes. -/
def signalCost (n : Session) : Nat :=
  2 + 2 * n.handlers.length

/-- The most steps that what is under way takes, ticks aside. -/
def pendingCost (n : Session) : Nat :=
  n.probing.length * (n.signalCost + 2)
    + (n.queue.length + n.blocked.length) * n.signalCost
    + (n.dispatch.map fun d => 3 + 3 * d.remaining.length).getD 0

/-- The most steps before a moment. -/
def costUntil (n : Session) (moment : Nat) : Nat :=
  let ticks := (n.ticker.next?.map fun t =>
    if t < moment then (moment - t) / n.interval + 1 else 0).getD 0
  2 * (n.pendingCost + ticks * (2 + n.targets.length * (n.signalCost + 2))) + 1

/-- Steps as long as there are any before a moment.  The fuel bounds their
    number. -/
def run (r : Registry) (limit : Option Nat) : Nat → Session × System → Session × System
  | 0, x => x
  | fuel + 1, (n, s) =>
    match n.step r s limit with
    | some next => run r limit fuel next
    | none => (n, s)

/-- Everything before a moment. -/
def runUntil (n : Session) (r : Registry) (s : System) (moment : Nat) : Session × System :=
  run r (some moment) (n.costUntil moment) (n, s)

/-- Everything that is still under way in a session that was stopped. -/
def drain (n : Session) (r : Registry) (s : System) : System :=
  (run r none (2 * n.stop.pendingCost + 1) (n.stop, s)).2

end Session

end PluginHost
