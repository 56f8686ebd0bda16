/-
  PluginHost.Process.Runner

  How processes come into being.  A pool asks its runner for a process; between
  the question and the answer time may pass.
-/
import PluginHost.Process.Child
import PluginHost.Process.KillSwitch
import PluginHost.Process.Table
import PluginHost.Storage

namespace PluginHost

/-- What a runner is asked for. -/
structure SpawnRequest where
  name : String
  command : String
  arguments : List String
  port : UInt16
  /-- How long a process is given before it is used, in milliseconds. -/
  grace : Nat := 0
  deriving DecidableEq

/-! ## Prepared processes -/

/-- The kill switch that a prepared process comes with. -/
inductive SwitchKind where
  /-- No switch. -/
  | none
  /-- A switch with a watcher. -/
  | watched
  /-- A switch whose watcher is gone. -/
  | abandoned
  /-- A switch for a process that no signal can be sent to. -/
  | unsignalable
  /-- A switch for a process that is not there. -/
  | vanished
  deriving DecidableEq

/-- The switch of a kind. -/
def SwitchKind.make? : SwitchKind → Option KillSwitch
  | .none => Option.none
  | .watched => some {}
  | .abandoned => some { mailbox := .gone }
  | .unsignalable => some { process := some (UInt32.size - 1) }
  | .vanished => some { process := some KillSwitch.maxPid }

/-- A prepared answer of a runner, and how long it takes, in milliseconds. -/
structure PreparedStart where
  delay : Nat := 0
  outcome : Except Error (Nat × SwitchKind)

/-! ## Programs of the machine -/

/-- The port flag that programs are started with. -/
def defaultPortFlag : String :=
  "--port"

/-- The arguments that a program is started with: its own, then the port. -/
def SpawnRequest.commandLine (r : SpawnRequest) (portFlag : String) : List String :=
  r.arguments ++ [portFlag, toString r.port.toNat]

/-- The programs of the machine: how a program goes on that is started with
    arguments, or why it cannot be started. -/
abbrev Programs := Storage → String → List String → Except IoFault Behaviour

/-! ## Pools -/

/-- Where the processes of a pool come from. -/
inductive Runner where
  /-- Prepared answers, one for each request. -/
  | prepared (answers : List PreparedStart)
  /-- The programs of the machine, with the flag that comes before the port. -/
  | machine (portFlag : String)

/-- Processes that share a runner. -/
structure Pool where
  label : String
  runner : Runner := .prepared []
  /-- How often the runner was asked. -/
  requests : Nat := 0
  table : ProcessTable := .empty

/-- Pools without those whose label occurs before, and the place of each pool
    among what is left. -/
def Pool.share (pools : List Pool) : List Pool × List Nat :=
  let shared := pools.foldl
    (fun kept p => if kept.any (·.label = p.label) then kept else kept ++ [p]) []
  (shared, pools.map fun p => shared.findIdx (·.label = p.label))

/-- The answer to a request for which none is prepared. -/
def defaultStart (index : Nat) : PreparedStart where
  outcome := .ok (1000 + index, .none)

/-- What a runner has set going. -/
inductive Birth where
  /-- A prepared process, which comes into being when its time has come. -/
  | due (pid : Nat) (kind : SwitchKind)
  /-- A program that runs already. -/
  | running (p : PluginProcess)

/-- A request that a runner works on. -/
structure Launch where
  /-- The pool, by its place among the pools. -/
  pool : Nat
  name : String
  /-- When the answer comes. -/
  due : Nat
  outcome : Except Error Birth

end PluginHost
