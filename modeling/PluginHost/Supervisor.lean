/-
  PluginHost.Supervisor

  Hosts under supervision: everything that runs, and a supervisor that looks
  after it.  Whatever takes time is an activity with a beginning and an end; the
  session of the supervisor goes on in between.
-/
import PluginHost.Supervisor.Session

namespace PluginHost

/-- A supervisor.  What it watches and what it does about signals is fixed for a
    session when that is started. -/
structure Supervisor where
  interval : Nat := 5000
  probe : Probe := {}
  targets : List Target := []
  handlers : List Handler := []
  session : Option Session := none

namespace Supervisor

/-- The supervisor with another interval; zero changes nothing. -/
def withInterval (v : Supervisor) (interval : Nat) : Supervisor :=
  if interval = 0 then v else { v with interval }

/-- Whether a session is under way. -/
def isWatching (v : Supervisor) : Bool :=
  v.session.isSome

/-- What is watched: the installed plugins of every host. -/
def targetsOf (plugins : List (String × PluginSet)) : List Target :=
  plugins.flatMap fun (host, ps) => ps.names.map fun plugin => ⟨host, plugin⟩

/-- Sets what is watched and what is done about signals; restarting comes last. -/
def setup (v : Supervisor) (r : Registry) (handlers : List Handler) : Except Error Supervisor := do
  let plugins ← r.allPlugins
  return { v with targets := targetsOf plugins, handlers := handlers ++ [.restart] }

/-- Begins a session, unless one is under way. -/
def start (v : Supervisor) (now : Nat) : Supervisor :=
  if v.isWatching then v
  else { v with session := some (.start v.targets v.handlers v.probe v.interval now) }

end Supervisor

/-- Hosts under supervision. -/
structure Station where
  registry : Registry := {}
  system : System := {}
  supervisor : Supervisor := {}

namespace Station

/-! ## Time -/

/-- The station at a later moment.  What the session of the supervisor does
    before that moment is done; what falls on the moment itself is not. -/
def waitUntil (st : Station) (moment : Nat) : Station :=
  let st := match st.supervisor.session with
    | none => st
    | some n =>
      let (n, system) := n.runUntil st.registry st.system moment
      { st with system, supervisor := { st.supervisor with session := some n } }
  { st with system := st.system.advanceTo moment }

/-- Ends the session: there are no further ticks, and what is under way is done
    first. -/
def shutdown (st : Station) : Station :=
  match st.supervisor.session with
  | none => st
  | some n =>
    { st with
      system := n.drain st.registry st.system
      supervisor := { st.supervisor with session := none } }

/-! ## Activities -/

/-- An activity after its beginning. -/
inductive Pending (α : Type) where
  | done (a : α)
  /-- The end comes at a moment. -/
  | waiting (due : Nat) (finish : System → α × System)

/-- What an activity begins with. -/
abbrev Beginning (α : Type) := Registry → System → Pending α × System

/-- An activity that waits for a launch.  One that is there at once is not waited
    for. -/
def awaiting {α : Type} (s : System) (l : Launch) (finish : System → α × System) :
    Pending α × System :=
  if l.due ≤ s.now then
    let (a, s) := finish s
    (.done a, s)
  else (.waiting l.due finish, s)

/-- Begins an activity. -/
def begin {α : Type} (st : Station) (b : Beginning α) : Pending α × Station :=
  let (p, system) := b st.registry st.system
  (p, { st with system })

/-- Waits for the end of an activity. -/
def finish {α : Type} (st : Station) : Pending α → α × Station
  | .done a => (a, st)
  | .waiting due f =>
    let st := st.waitUntil due
    let (a, system) := f st.system
    (a, { st with system })

/-- An activity from its beginning to its end. -/
def perform {α : Type} (st : Station) (b : Beginning α) : α × Station :=
  let (p, st) := st.begin b
  st.finish p

/-- Whether the end of an activity comes before that of another one. -/
def Pending.isBefore {α : Type} : Pending α → Pending α → Bool
  | .done _, _ => true
  | .waiting .., .done _ => false
  | .waiting a _, .waiting b _ => a ≤ b

/-- Two activities at once: the second one begins when the first one waits. -/
def performBoth {α : Type} (st : Station) (a b : Beginning α) : (α × α) × Station :=
  let (p, st) := st.begin a
  let (q, st) := st.begin b
  if p.isBefore q then
    let (x, st) := st.finish p
    let (y, st) := st.finish q
    ((x, y), st)
  else
    let (y, st) := st.finish q
    let (x, st) := st.finish p
    ((x, y), st)

/-! ## What can be done with hosts -/

/-- Starting a process in a pool. -/
def starting (pool : Nat) (request : SpawnRequest) : Beginning (Except Error PluginProcess) :=
  fun _ s =>
    match s.beginStart pool request with
    | (.error e, s) => (.done (.error e), s)
    | (.ok launch, s) => awaiting s launch fun s => s.finishStart launch

/-- Starting a plugin of a host at a port. -/
def running (host plugin : String) (port : UInt16) : Beginning (Except Error Unit) := fun r s =>
  match r.container host with
  | .error e => (.done (.error e), s)
  | .ok c =>
    match c.beginRun s plugin port with
    | (.error e, s) => (.done (.error e), s)
    | (.ok launch, s) => awaiting s launch fun s => Container.finishRun s launch

/-- Getting a handle on a plugin of a host. -/
def handling (host plugin : String) : Beginning (Except Error Handle) := fun r s =>
  match r.beginHandle s host plugin with
  | (.error e, s) => (.done (.error e), s)
  | (.ok step, s) =>
    let finish (s : System) := Registry.finishHandle s host plugin step
    match step with
    | .ready _ =>
      let (h, s) := finish s
      (.done h, s)
    | .starting _ launch => awaiting s launch finish

/-- Answering a signal. -/
def restarting (signal : Signal) : Beginning Unit := fun r s =>
  match r.beginRestart s signal with
  | (none, s) => (.done (), s)
  | (some launch, s) => awaiting s launch fun s => ((), Registry.finishRestart s launch)

/-- Calls a plugin.  There is no answer if the call would go on for ever. -/
def call (st : Station) (h : Handle) (c : Call) : Option (Except Error Answer) × Station :=
  match h.call.run st.system.network st.system.peers c st.system.now with
  | none => (none, st)
  | some (run, peers) =>
    let system := { st.system with peers }
    (some run.result, { st with system }.waitUntil run.finish)

end Station

end PluginHost
