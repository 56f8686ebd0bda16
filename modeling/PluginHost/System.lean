/-
  PluginHost.System

  Everything that runs: the clock, the files, the pools of processes, the kill
  switches and the programs started, together with a journal of what happened.
  What the pools do is made of short sections that nothing can come between:
  looking up, entering, taking out, and triggering a switch.
-/
import PluginHost.Call.Peer
import PluginHost.Process.Runner

namespace PluginHost

/-- That a process of a plugin was found dead. -/
structure Signal where
  host : String
  plugin : String
  pid : Nat
  deriving DecidableEq

/-- What the journal records. -/
inductive Event where
  /-- A runner was asked for a process. -/
  | requested (pool : String) (request : SpawnRequest)
  /-- A plugin is looked after. -/
  | probed (host plugin : String)
  /-- A signal passed a handler that records it. -/
  | signalled (label : String) (signal : Signal)
  /-- A signal passed a handler that stops the plugin. -/
  | stopped (host plugin : String) (result : Except Error Unit)

/-- Everything that runs. -/
structure System where
  /-- The time, in milliseconds. -/
  now : Nat := 0
  storage : Storage := {}
  programs : Programs := fun _ _ _ => .error .notFound
  /-- Who listens at the ports of this machine. -/
  network : Http.Network := fun _ => .absent
  pools : List Pool := []
  /-- The switches in the order in which they were made, each with the process
      that it was made for. -/
  switches : List (Nat × KillSwitch) := []
  children : List Child := []
  /-- Processes of other users, to which no signals may be sent. -/
  foreign : List Nat := []
  peers : NameMap Peer := .empty
  /-- Processes that count as dead for probes that go by a list. -/
  markedDead : List Nat := []
  /-- What happened and when, the last first. -/
  journal : List (Nat × Event) := []

namespace System

/-! ## The journal -/

/-- The system with something that happens now. -/
def record (s : System) (e : Event) : System :=
  { s with journal := (s.now, e) :: s.journal }

/-! ## Pools -/

/-- The pool at a place. -/
def pool (s : System) (i : Nat) : Pool :=
  s.pools.getD i { label := "" }

/-- The system with a pool at a place changed. -/
def updatePool (s : System) (i : Nat) (f : Pool → Pool) : System :=
  { s with pools := s.pools.modify i f }

/-- The processes of a pool. -/
def table (s : System) (i : Nat) : ProcessTable :=
  (s.pool i).table

/-- Whether a pool has a process of a name. -/
def isReady (s : System) (i : Nat) (name : String) : Bool :=
  (s.table i).contains name

/-- The process of a name. -/
def process (s : System) (i : Nat) (name : String) : Except Error PluginProcess :=
  (s.table i).find name

/-- The number of the process of a name. -/
def pid (s : System) (i : Nat) (name : String) : Except Error Nat :=
  (·.pid) <$> s.process i name

/-- Enters a process under the name of its plugin. -/
def register (s : System) (i : Nat) (p : PluginProcess) : Except Error Unit × System :=
  match (s.table i).register p.name p with
  | .ok table => (.ok (), s.updatePool i fun pool => { pool with table })
  | .error e => (.error e, s)

/-- Takes the process of a name out of a pool. -/
def remove (s : System) (i : Nat) (name : String) : System :=
  s.updatePool i fun pool => { pool with table := pool.table.erase name }

/-- Takes all processes out of a pool. -/
def removeAll (s : System) (i : Nat) : System :=
  s.updatePool i fun pool => { pool with table := .empty }

/-! ## Children -/

/-- The number of the first program that is started. -/
def firstChildPid : Nat :=
  1000000000

/-- The child of a number. -/
def child? (s : System) (pid : Nat) : Option Child :=
  s.children.find? fun c => c.pid = pid

/-- Whether a child of a number runs. -/
def hasRunningChild (s : System) (pid : Nat) : Bool :=
  s.children.any fun c => c.pid = pid && c.isRunning

/-- What comes of sending a signal to a process. -/
def deliver (s : System) (pid : Nat) : Delivery :=
  if s.hasRunningChild pid then .delivered
  else if s.foreign.contains pid then .failed .notPermitted
  else .noSuchProcess

/-- Whether a process is there.  The number zero means the caller itself. -/
def isAlive (s : System) (pid : Nat) : Bool :=
  pid = 0 || s.hasRunningChild pid

/-- The system with the child of a number changed. -/
def updateChild (s : System) (pid : Nat) (f : Child → Child) : System :=
  { s with children := s.children.map fun c => if c.pid = pid then f c else c }

/-! ## Kill switches -/

/-- The switch of a number. -/
def switch? (s : System) (id : Nat) : Option KillSwitch :=
  (s.switches[id]?).map (·.2)

/-- The system with a switch changed. -/
def updateSwitch (s : System) (id : Nat) (f : KillSwitch → KillSwitch) : System :=
  { s with switches := s.switches.modify id fun (pid, k) => (pid, f k) }

/-- The system with one switch more, and its number. -/
def addSwitch (s : System) (pid : Nat) (k : KillSwitch) : Nat × System :=
  (s.switches.length, { s with switches := s.switches ++ [(pid, k)] })

/-- The switches of children that have ended have no watchers any more. -/
def releaseWatchers (s : System) : System :=
  (s.children.filter fun c => !c.isRunning).foldl
    (fun s c => s.updateSwitch c.switch KillSwitch.dropReceiver) s

/-- The system at a later moment, as far as its children go. -/
def advanceTo (s : System) (moment : Nat) : System :=
  let now := max s.now moment
  releaseWatchers { s with now, children := s.children.map (Child.elapse now) }

/-- Triggers a switch.  A child that gets the signal is asked to stop. -/
def trigger (s : System) (id : Nat) : Except SignalFault Bool × System :=
  match s.switch? id with
  | none => (.ok false, s)
  | some k =>
    let t := k.trigger s.deliver
    let s := s.updateSwitch id fun _ => t.switch
    match t.signalled with
    | none => (t.answer, s)
    | some pid => (t.answer, releaseWatchers (s.updateChild pid (Child.ask s.now)))

/-- Triggers the switch of a process, if it has one. -/
def triggerProcess (s : System) (p : PluginProcess) : Except SignalFault Bool × System :=
  match p.switch with
  | some id => s.trigger id
  | none => (.ok false, s)

/-- A child is ended by somebody else, and its watcher notices. -/
def crash (s : System) (pid : Nat) : System :=
  releaseWatchers (s.updateChild pid (Child.crash s.now))

/-- The watchers of all children go away. -/
def abandonChildren (s : System) : System :=
  s.children.foldl (fun s c => s.updateSwitch c.switch KillSwitch.dropReceiver)
    { s with children := s.children.map Child.abandon }

/-- The prepared processes whose watchers have been told and have not looked yet,
    in the order of their switches, and the system after they have looked. -/
def collectTold (s : System) : List Nat × System :=
  let told := (s.switches.filter fun (pid, k) => k.mailbox = .told && (s.child? pid).isNone).map
    (·.1)
  (told, { s with switches := s.switches.map fun (pid, k) => (pid, k.receive.2) })

/-! ## Killing -/

/-- The error of a switch that could not be triggered. -/
def killError (name : String) (fault : SignalFault) : Error :=
  .cannotBeKilled (name ++ ": " ++ fault.message)

/-- Tells the process of a name to stop and takes it out of the pool, whether or
    not it could be told. -/
def kill (s : System) (i : Nat) (name : String) : Except Error Unit × System :=
  match s.process i name with
  | .error e => (.error e, s)
  | .ok p =>
    let (answer, s) := s.triggerProcess p
    let result := match answer with
      | .ok _ => .ok ()
      | .error fault => .error (killError name fault)
    (result, s.remove i name)

/-- Kills the processes of names, one after another, and gathers the errors. -/
def killEach (s : System) (i : Nat) : List String → List Error × System
  | [] => ([], s)
  | name :: names =>
    let (result, s) := s.kill i name
    let (errors, s) := s.killEach i names
    match result with
    | .ok () => (errors, s)
    | .error e => (e :: errors, s)

/-- Kills all processes of a pool, in the order of their names. -/
def killAll (s : System) (i : Nat) : List Error × System :=
  let (errors, s) := s.killEach i (s.table i).names
  (errors, s.removeAll i)

/-! ## Starting -/

/-- Starts a program of the machine. -/
def startProgram (s : System) (portFlag : String) (r : SpawnRequest) :
    Except Error PluginProcess × System :=
  match s.programs s.storage r.command (r.commandLine portFlag) with
  | .error fault => (.error (.cannotStart r.name fault), s)
  | .ok behaviour =>
    let pid := firstChildPid + s.children.length
    let (id, s) := s.addSwitch pid { process := some pid }
    let child : Child := { pid, switch := id, started := s.now, behaviour }
    let s := { s with children := s.children ++ [child.elapse s.now] }
    (.ok { name := r.name, pid, switch := some id }, s.releaseWatchers)

/-- Asks the runner of a pool for a process. -/
def askRunner (s : System) (i : Nat) (r : SpawnRequest) : Launch × System :=
  let pool := s.pool i
  let s := (s.record (.requested pool.label r)).updatePool i fun pool =>
    { pool with requests := pool.requests + 1 }
  match pool.runner with
  | .prepared answers =>
    let answer := answers.getD pool.requests (defaultStart pool.requests)
    let outcome := (fun (pid, kind) => Birth.due pid kind) <$> answer.outcome
    (⟨i, r.name, s.now + answer.delay, outcome⟩, s)
  | .machine portFlag =>
    match s.startProgram portFlag r with
    | (.ok p, s) => (⟨i, r.name, s.now + r.grace, .ok (.running p)⟩, s)
    | (.error e, s) => (⟨i, r.name, s.now, .error e⟩, s)

/-- Begins to start a process, unless the pool has one of its name. -/
def beginStart (s : System) (i : Nat) (r : SpawnRequest) : Except Error Launch × System :=
  if s.isReady i r.name then (.error (.alreadyStarted r.name), s)
  else
    let (launch, s) := s.askRunner i r
    (.ok launch, s)

/-- A prepared process. -/
def makeProcess (s : System) (name : String) (pid : Nat) (kind : SwitchKind) :
    PluginProcess × System :=
  match kind.make? with
  | none => ({ name, pid }, s)
  | some k =>
    let (id, s) := s.addSwitch pid k
    ({ name, pid, switch := some id }, s)

/-- The process of a launch whose time has come. -/
def finishStart (s : System) (l : Launch) : Except Error PluginProcess × System :=
  match l.outcome with
  | .error e => (.error e, s)
  | .ok (.running p) => (.ok p, s)
  | .ok (.due pid kind) =>
    let (p, s) := s.makeProcess l.name pid kind
    (.ok p, s)

/-- Gives a launch up while it is waited for.  The only clone of the switch of a
    program that runs already goes with it. -/
def giveUp (s : System) (l : Launch) : System :=
  match l.outcome with
  | .ok (.running { switch := some id, .. }) => s.updateSwitch id KillSwitch.dropSender
  | _ => s

/-- Enters the process of a launch, or tells it to stop if its name has been
    taken meanwhile. -/
def enter (s : System) (i : Nat) (p : PluginProcess) : Except Error Unit × System :=
  match s.register i p with
  | (.ok (), s) => (.ok (), s)
  | (.error e, s) => (.error e, (s.triggerProcess p).2)

end System

end PluginHost
